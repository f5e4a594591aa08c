import SpiffeExample.RegistrationRoundTrip

namespace SpiffeExample.Registration
set_option autoImplicit true
open GoJson

/-- The entries up to the first that does not come back as it was sent. -/
def attempted : List (Option RegistrationEntry) → List (Option RegistrationEntry)
  | [] => []
  | e :: es => if some (storedFor e) = e then e :: attempted es else [e]

/-- Each of the entries is added to what is stored, under an ID that was free. -/
inductive Added : (String → Option RegistrationEntry) → List RegistrationEntry →
    (String → Option RegistrationEntry) → Prop where
  | nil : Added f [] f
  | cons {id : String} (hf : f id = none) (h : Added (Function.update f id (some x)) xs g) :
      Added f (x :: xs) g

theorem Added.append (h : Added f xs g) (h' : Added g ys k) : Added f (xs ++ ys) k := by
  induction h with
  | nil => exact h'
  | cons hf _ ih => exact .cons hf (ih h')

/-- Nothing that was stored is changed, and the additions stand under IDs of their own. -/
theorem Added.ids (h : Added f xs g) : ∃ ids : List String, ids.Nodup ∧
    (∀ id ∈ ids, f id = none) ∧ (∀ id, id ∉ ids → g id = f id) ∧ ids.map g = xs.map some := by
  induction h with
  | nil => exact ⟨[], List.nodup_nil, fun _ h => absurd h List.not_mem_nil, fun _ _ => rfl, rfl⟩
  | @cons f x xs g id hf _ ih =>
    obtain ⟨ids, hn, hfree, hkept, hm⟩ := ih
    have hid : id ∉ ids := by
      intro hm
      have hx := hfree id hm
      rw [Function.update_self] at hx
      cases hx
    refine ⟨id :: ids, List.nodup_cons.2 ⟨hid, hn⟩, ?_, ?_, ?_⟩
    · intro i hi
      rcases List.mem_cons.1 hi with rfl | hi
      · exact hf
      · have hne : i ≠ id := fun he => hid (he ▸ hi)
        rw [← hfree i hi, Function.update_of_ne hne]
    · intro i hi
      rw [List.mem_cons, not_or] at hi
      rw [hkept i hi.2, Function.update_of_ne hi.1]
    · rw [List.map_cons, List.map_cons, hm, hkept id hid, Function.update_self]

theorem registerFrom_added {srv : Server σ} (hf : Faithful all srv stored)
    (hp : ∀ id ∈ all, Plain id) (index : Nat) (entries : List (Option RegistrationEntry))
    (w : Tool σ) :
    Added (stored w.server) ((attempted entries).map storedFor)
      (stored (registerFrom srv index entries w).2.server) := by
  induction entries generalizing index w with
  | nil => exact .nil
  | cons e es ih =>
    obtain ⟨id, w', hfree, hs, _, he⟩ := registerFrom_stored hf hp index e es w
    rw [he, attempted]
    by_cases hx : some (storedFor e) = e
    · have hes := ih (index + 1) w'
      rw [hs] at hes
      rw [if_pos hx, if_pos hx, List.map_cons]
      exact .cons hfree hes
    · rw [if_neg hx, if_neg hx]
      change Added _ _ (stored w'.server)
      rw [hs]
      exact .cons hfree .nil

/-- The server after so many runs of the tool. -/
def rerun (srv : Server σ) (dat : String) : Nat → σ → σ
  | 0, server => server
  | n + 1, server => rerun srv dat n (main srv (.ok dat) server).2.server

theorem rerun_added {srv : Server σ} (hf : Faithful all srv stored)
    (hp : ∀ id ∈ all, Plain id) (hd : (decodeFile dat).1 = some entries) (n : Nat) (server : σ) :
    Added (stored server)
      ((List.replicate n ((attempted (entries.entries.getD [])).map storedFor)).flatten)
      (stored (rerun srv dat n server)) := by
  induction n generalizing server with
  | zero => exact .nil
  | succ n ih =>
    have hm : main srv (.ok dat) server =
        registerFrom srv 0 (entries.entries.getD []) ⟨server, [], []⟩ := by rw [main, hd]
    rw [List.replicate_succ, List.flatten_cons, rerun, hm]
    exact (registerFrom_added hf hp 0 _ ⟨server, [], []⟩).append (ih _)

/-- Where the server issues plain IDs, every run of the tool registers anew, under IDs that were
free, all entries of the file up to the first that does not come back as it was sent; nothing else
is changed. -/
theorem reruns_stored {srv : Server σ} (hf : Faithful all srv stored)
    (hp : ∀ id ∈ all, Plain id) (hd : (decodeFile dat).1 = some entries) (n : Nat) (server : σ) :
    ∃ ids : List String, ids.Nodup ∧ (∀ id ∈ ids, stored server id = none) ∧
      (∀ id, id ∉ ids → stored (rerun srv dat n server) id = stored server id) ∧
      ids.map (stored (rerun srv dat n server)) = ((List.replicate n
        ((attempted (entries.entries.getD [])).map storedFor)).flatten).map some :=
  (rerun_added hf hp hd n server).ids

/-- The third entry is never sent. -/
theorem reruns_stored_sample : ∃ ids : List String, ids.Nodup ∧
    (∀ id ∈ ids, issued unary [] id = none) ∧
    (∀ id, id ∉ ids →
      issued unary (rerun (issuing unary) sampleFile 2 []) id = issued unary [] id) ∧
    ids.map (issued unary (rerun (issuing unary) sampleFile 2 [])) =
      [some ⟨none, "", "a", 0, none⟩, some .zero, some ⟨none, "", "a", 0, none⟩, some .zero] :=
  reruns_stored unary_faithful unary_plain decodeFile_sample 2 []

end SpiffeExample.Registration
