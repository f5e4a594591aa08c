import SpiffeExample.RegistrationSoundness
import Mathlib.Data.Set.Finite.Basic
import Mathlib.Logic.Function.Basic

namespace SpiffeExample.Registration
set_option autoImplicit true
open GoJson
open GoUrl (bytes)

/-- What the server reads from the body of a request. -/
def decodeBody (body : String) : RegistrationEntry × Option UnmarshalError :=
  let (target, err) := unmarshal (.struct RegistrationEntry.Target.fields) body .zero
  (target.read, err)

def idResponse (entityID : String) : String := marshal (RegistrationEntryID.encode ⟨entityID⟩)

/-- The server decodes what is posted and stores it under a fresh ID, one of the given ones, which
it returns, and it returns what is stored under an ID that is asked for. -/
structure Faithful (ids : Set String) (srv : Server σ)
    (stored : σ → String → Option RegistrationEntry) : Prop where
  post : ∀ {server body x}, decodeBody body = (x, none) →
    ∃ id ∈ ids, ∃ server', srv server (postRequest body) = (.ok (idResponse id), server') ∧
      stored server id = none ∧ stored server' = Function.update (stored server) id (some x)
  get : ∀ {server id x req}, stored server id = some x → Names req id →
    ∃ server', srv server req = (.ok (marshal x.encode), server') ∧
      stored server' = stored server

/-- An entry that is posted, stored and fetched. -/
def refetched (x : RegistrationEntry) : Except Failure (Option RegistrationEntry) :=
  decodeEntry (marshal (decodeBody (marshal x.encode)).1.encode)

/-- The request is made under the ID that the response returns. -/
def UnderIssuedID (created : String) (req : Request) : Prop :=
  ∃ entityID, created = idResponse entityID ∧ Names req entityID

structure Complete (srv : Server σ) (dat : String) (entries : List (Option RegistrationEntry))
    (server : σ) : Prop where
  roundTrip : ∀ x, some x ∈ entries → refetched x = .ok (some x)
  validated : Rounds UnderIssuedID entries (main srv (.ok dat) server).2.exchanges
  allOK : allOK ∈ (main srv (.ok dat) server).2.printed

/-- No list of the entry is empty without being nil. -/
def RegistrationEntry.NoEmptyList (x : RegistrationEntry) : Prop :=
  x.selectors ≠ some [] ∧ x.fbSpiffeIds ≠ some []

theorem onWire_eq_self {x : RegistrationEntry} : x.onWire = x ↔ x.NoEmptyList := by
  rw [RegistrationEntry.NoEmptyList, ← nilIfEmpty_eq_self, ← nilIfEmpty_eq_self]
  cases x with
  | mk selectors parentId spiffeId ttl fbSpiffeIds =>
    simp only [RegistrationEntry.onWire, RegistrationEntry.mk.injEq, true_and]

theorem onWire_onWire (x : RegistrationEntry) : x.onWire.onWire = x.onWire :=
  onWire_eq_self.2 ⟨nilIfEmpty_ne, nilIfEmpty_ne⟩

/-- What a faithful server stores for an entry, which is sent as `null` when it is nil. -/
def storedFor : Option RegistrationEntry → RegistrationEntry
  | none => .zero
  | some x => x.onWire

theorem decodeBody_encode (e : Option RegistrationEntry) :
    decodeBody (marshal (encodePointer RegistrationEntry.encode e)) = (storedFor e, none) := by
  rw [decodeBody, unmarshal_marshal]
  cases e with
  | none => rfl
  | some x =>
    rw [encodePointer, x.decode_encode]
    exact congrArg (·, none) (RegistrationEntry.Target.read_made x.onWire)

theorem decodeEntry_onWire (x : RegistrationEntry) :
    decodeEntry (marshal x.onWire.encode) = .ok (some x.onWire) := by
  have h := decodeEntry_marshal Json.Value.noConfusion x.onWire.decode_encode
  rwa [onWire_onWire] at h

theorem decodeEntry_storedFor (e : Option RegistrationEntry) :
    decodeEntry (marshal (storedFor e).encode) = .ok (some (storedFor e)) := by
  cases e with
  | none => exact decodeEntry_onWire .zero
  | some x => exact decodeEntry_onWire x

theorem refetched_eq (x : RegistrationEntry) : refetched x = .ok (some x.onWire) := by
  have hb : decodeBody (marshal x.encode) = (x.onWire, none) := decodeBody_encode (some x)
  rw [refetched, hb, decodeEntry_onWire]

/-- A round with a faithful server adds the entry to what is stored, and goes on exactly when the
stored entry is the same. -/
theorem registerFrom_stored {srv : Server σ} (hf : Faithful ids srv stored)
    (hp : ∀ id ∈ ids, Plain id) (index : Nat) (e : Option RegistrationEntry)
    (es : List (Option RegistrationEntry)) (w : Tool σ) :
    ∃ id w', stored w.server id = none ∧
      stored w'.server = Function.update (stored w.server) id (some (storedFor e)) ∧
      (allOK ∈ w'.printed ↔ allOK ∈ w.printed) ∧
      registerFrom srv index (e :: es) w =
        if some (storedFor e) = e then registerFrom srv (index + 1) es w' else (.returned, w') := by
  obtain ⟨id, hm, server₁, hc, hfree, hs₁⟩ :=
    @Faithful.post _ _ _ _ hf w.server _ _ (decodeBody_encode e)
  have hs : stored server₁ id = some (storedFor e) := by rw [hs₁, Function.update_self]
  obtain ⟨url, hurl, hn⟩ := fetchURL_plain (hp id hm)
  obtain ⟨server₂, hv, hs₂⟩ := hf.get hs hn
  obtain ⟨w', rfl, hq, he⟩ := registerFrom_answered hc (decodeID_marshal id) hurl hv
    (decodeEntry_storedFor e) index es
  exact ⟨id, w', hfree, hs₂.trans hs₁, hq, he⟩

/-- With a faithful server, success is reported exactly when each entry is what is left of it. -/
theorem registerFrom_faithful {srv : Server σ} {w : Tool σ} (hf : Faithful ids srv stored)
    (hp : entries ≠ [] → ∀ id ∈ ids, Plain id) (hn : ∀ e ∈ entries, e ≠ none)
    (hw : allOK ∉ w.printed) :
    allOK ∈ (registerFrom srv index entries w).2.printed ↔
      ∀ x, some x ∈ entries → x.NoEmptyList := by
  induction entries generalizing index w with
  | nil =>
    apply Iff.intro
    · intro _ x hx
      cases hx
    · intro _
      exact List.mem_append_right _ (List.mem_singleton.2 rfl)
  | cons registeredEntry entries ih =>
    have hplain := hp (List.cons_ne_nil _ _)
    cases registeredEntry with
    | none => exact absurd rfl (hn none List.mem_cons_self)
    | some x =>
      obtain ⟨_, w', _, _, hq, he⟩ := registerFrom_stored hf hplain index (some x) entries w
      have hx : some x.onWire = some x ↔ x.NoEmptyList := Option.some_inj.trans onWire_eq_self
      have hw' : allOK ∉ w'.printed := hq.not.2 hw
      have hi := @ih (index + 1) w' (fun _ => hplain)
        (fun e hm => hn e (List.mem_cons_of_mem _ hm)) hw'
      rw [he, storedFor]
      apply Iff.intro
      · intro h y hy
        by_cases hxs : some x.onWire = some x
        · rw [if_pos hxs] at h
          rcases List.mem_cons.1 hy with hyx | hy
          · cases hyx
            exact hx.1 hxs
          · exact hi.1 h y hy
        · rw [if_neg hxs] at h
          exact absurd h hw'
      · intro h
        rw [if_pos (hx.2 (h x List.mem_cons_self))]
        exact hi.2 fun y hy => h y (List.mem_cons_of_mem _ hy)

/-- Where the IDs are plain, each entry is asked for under the ID that was issued for it. -/
theorem Attempted.issued {srv : Server σ} (h : Attempted entries trace .allOK)
    (hf : Faithful ids srv stored) (hp : entries ≠ [] → ∀ id ∈ ids, Plain id)
    (ha : ∀ x ∈ trace, Answered srv x) : Rounds UnderIssuedID entries trace := by
  have hr := h.rounds
  apply hr.imp
  intro e created req hm hu
  obtain ⟨server, hs⟩ := ha _ hm
  obtain ⟨id, hid, server', hc, _⟩ :=
    @Faithful.post _ _ _ _ hf server _ _ (decodeBody_encode e)
  have hcreated : Except.ok created = .ok (idResponse id) :=
    hs.symm.trans (congrArg Prod.fst hc)
  cases hcreated
  obtain ⟨id', url, hdec, hurl, rfl⟩ := hu
  have hsame : Except.ok id = .ok id' := (decodeID_marshal id).symm.trans hdec
  cases hsame
  exact ⟨id, rfl, (names_iff_plain hurl).2 (hp (hr.ne_nil hm) id hid)⟩

theorem complete_of_plain {srv : Server σ} (hf : Faithful ids srv stored)
    (hd : decodeFile dat = (some entries, none)) (hn : ∀ e ∈ entries.entries.getD [], e ≠ none)
    (hp : entries.entries.getD [] ≠ [] → ∀ id ∈ ids, Plain id) (server : σ) :
    Complete srv dat (entries.entries.getD []) server ↔
      ∀ x, some x ∈ entries.entries.getD [] → x.NoEmptyList := by
  have hr : allOK ∈ (main srv (.ok dat) server).2.printed ↔
      ∀ x, some x ∈ entries.entries.getD [] → x.NoEmptyList := by
    rw [main, hd]
    exact registerFrom_faithful hf hp hn List.not_mem_nil
  apply Iff.intro
  · intro h
    exact hr.1 h.allOK
  · intro h
    have hok := hr.2 h
    obtain ⟨ending, ht, ha, _, hend⟩ := main_reports srv (congrArg Prod.fst hd) server
    rw [hend.1 hok] at ht
    refine ⟨fun x hx => ?_, ht.issued hf hp ha, hok⟩
    rw [refetched_eq, onWire_eq_self.2 (h x hx)]

/-- The entries that are stored, the newest first, under the IDs of a sequence. -/
def issued (ids : Nat → String) : List RegistrationEntry → String → Option RegistrationEntry
  | [], _ => none
  | x :: xs, id => if id = ids xs.length then some x else issued ids xs id

def asked (ids : Nat → String) : List RegistrationEntry → GoUrl.Bytes → Option RegistrationEntry
  | [], _ => none
  | x :: xs, path =>
    if path = bytes "/entry/" ++ bytes (ids xs.length) then some x else asked ids xs path

/-- A server that issues the IDs of a sequence. -/
def issuing (ids : Nat → String) : Server (List RegistrationEntry) := fun entries req =>
  match req.method with
  | .post =>
    match decodeBody req.body with
    | (_, some _) => (.ok "\x7b\x7d", entries)
    | (x, none) => (.ok (idResponse (ids entries.length)), x :: entries)
  | .get =>
    match req.url.query, asked ids entries req.url.path with
    | none, some x => (.ok (marshal x.encode), entries)
    | _, _ => (.error "not found", entries)

theorem issued_fresh {ids : Nat → String} (hi : Function.Injective ids)
    (entries : List RegistrationEntry) (h : entries.length ≤ n) :
    issued ids entries (ids n) = none := by
  induction entries with
  | nil => rfl
  | cons x xs ih =>
    have hlt : xs.length < n := h
    have hne : ids n ≠ ids xs.length := fun he => Nat.ne_of_gt hlt (hi he)
    rw [issued, if_neg hne]
    exact ih (Nat.le_of_lt hlt)

theorem issued_cons (ids : Nat → String) (x : RegistrationEntry) (xs : List RegistrationEntry) :
    issued ids (x :: xs) = Function.update (issued ids xs) (ids xs.length) (some x) := by
  funext id
  rw [issued, Function.update_apply]

theorem asked_path (ids : Nat → String) (entries : List RegistrationEntry) (id : String) :
    asked ids entries (bytes "/entry/" ++ bytes id) = issued ids entries id := by
  induction entries with
  | nil => rfl
  | cons x xs ih =>
    have he : bytes "/entry/" ++ bytes id = bytes "/entry/" ++ bytes (ids xs.length) ↔
        id = ids xs.length :=
      List.append_right_inj _ |>.trans GoUrl.bytes_injective.eq_iff
    simp only [asked, issued, he, ih]

theorem issuing_faithful {ids : Nat → String} (hi : Function.Injective ids)
    (hm : ∀ n, ids n ∈ all) : Faithful all (issuing ids) (issued ids) where
  post := by
    intro entries body x h
    refine ⟨ids entries.length, hm _, x :: entries, ?_, issued_fresh hi _ (Nat.le_refl _),
      issued_cons ids x entries⟩
    simp only [issuing, postRequest, h]
  get := by
    intro entries id x req h hn
    refine ⟨entries, ?_, rfl⟩
    rw [← asked_path, ← hn.path] at h
    simp only [issuing, hn.method, hn.query, h]

def startingWith (id : String) (others : Nat → String) : Nat → String
  | 0 => id
  | n + 1 => others n

theorem startingWith_injective {id : String} {others : Nat → String}
    (ho : Function.Injective others) (hne : ∀ n, others n ≠ id) :
    Function.Injective (startingWith id others) := by
  intro m n h
  cases m with
  | zero =>
    cases n with
    | zero => rfl
    | succ n => exact absurd h.symm (hne n)
  | succ m =>
    cases n with
    | zero => exact absurd h (hne m)
    | succ n => exact congrArg Nat.succ (ho h)

/-- Among infinitely many IDs each can be the first one issued. -/
theorem exists_ids {all : Set String} {id : String} (hi : all.Infinite) (hm : id ∈ all) :
    ∃ others : Nat → String, Function.Injective (startingWith id others) ∧
      ∀ n, startingWith id others n ∈ all := by
  have hr : (all \ {id}).Infinite := hi.sdiff (Set.finite_singleton id)
  have ho : Function.Injective fun n => (hr.natEmbedding _ n : String) :=
    Subtype.val_injective.comp (hr.natEmbedding _).injective
  refine ⟨_, startingWith_injective ho fun n => (hr.natEmbedding _ n).2.2, fun n => ?_⟩
  cases n with
  | zero => exact hm
  | succ n => exact (hr.natEmbedding _ n).2.1

/-- A server whose first ID is not plain does not get its first entry fetched. -/
theorem issuing_panicked {ids : Nat → String} (h : ¬ Plain (ids 0)) (index : Nat)
    (e : Option RegistrationEntry) (es : List (Option RegistrationEntry)) {w : Tool _}
    (hw : w.server = []) : (registerFrom (issuing ids) index (e :: es) w).1 = .panicked := by
  have hc : issuing ids w.server (posted e) = (.ok (idResponse (ids 0)), [storedFor e]) := by
    rw [hw]
    simp only [issuing, posted, postRequest, decodeBody_encode, List.length_nil]
  apply registerFrom_unfetched hc (decodeID_marshal (ids 0))
  intro url hurl
  have hpath : url.path ≠ bytes "/entry/" ++ bytes (ids 0) := fun he =>
    h (plain_of_fetchURL hurl he)
  have hasked : asked ids [storedFor e] url.path = none := if_neg hpath
  refine ⟨"not found", ?_⟩
  simp only [issuing, got, hasked]
  cases url.query <;> rfl

/-- The files that come through all faithful servers with IDs of a set are those without an empty
list, where the IDs of the set are plain; and then one faithful server is like another. -/
theorem complete_iff {ids : Set String} (hi : ids.Infinite)
    (hd : decodeFile dat = (some entries, none)) (hn : ∀ e ∈ entries.entries.getD [], e ≠ none) :
    ((∀ (σ : Type) (srv : Server σ) (stored : σ → String → Option RegistrationEntry) (server : σ),
        Faithful ids srv stored → Complete srv dat (entries.entries.getD []) server) ↔
      (∀ x, some x ∈ entries.entries.getD [] → x.NoEmptyList) ∧
        (entries.entries.getD [] ≠ [] → ∀ id ∈ ids, Plain id)) ∧
    ((∀ id ∈ ids, Plain id) → ∀ (σ : Type) (srv : Server σ)
      (stored : σ → String → Option RegistrationEntry) (server : σ), Faithful ids srv stored →
        (Complete srv dat (entries.entries.getD []) server ↔
          ∀ x, some x ∈ entries.entries.getD [] → x.NoEmptyList)) := by
  refine ⟨⟨fun h => ⟨?_, ?_⟩, ?_⟩, ?_⟩
  · obtain ⟨id, hm⟩ := hi.nonempty
    obtain ⟨others, hinj, hall⟩ := exists_ids hi hm
    have hc := h _ _ _ [] (issuing_faithful hinj hall)
    intro x hx
    have hr := hc.roundTrip x hx
    rw [refetched_eq] at hr
    exact onWire_eq_self.1 (Option.some.inj (Except.ok.inj hr))
  · intro hne id hm
    obtain ⟨others, hinj, hall⟩ := exists_ids hi hm
    have hc := h _ _ _ [] (issuing_faithful hinj hall)
    obtain ⟨ending, _, _, ho, hok⟩ := main_reports (issuing (startingWith id others))
      (congrArg Prod.fst hd) []
    rw [hok.1 hc.allOK] at ho
    by_contra hplain
    rw [main, hd] at ho
    dsimp only at ho
    cases hes : entries.entries.getD [] with
    | nil => exact hne hes
    | cons e es =>
      rw [hes, issuing_panicked hplain 0 e es rfl] at ho
      cases ho
  · rintro ⟨hx, hp⟩ σ srv stored server hf
    exact (complete_of_plain hf hd hn hp server).2 hx
  · intro hp σ srv stored server hf
    exact complete_of_plain hf hd hn (fun _ => hp) server

/-- IDs that count the entries. -/
def unary (n : Nat) : String := String.ofList (List.replicate n 'x')

theorem unary_injective : Function.Injective unary := by
  intro m n h
  have hl := congrArg String.length h
  rwa [unary, unary, String.length_ofList, String.length_ofList, List.length_replicate,
    List.length_replicate] at hl

theorem plain_unary (n : Nat) : Plain (unary n) := by
  have hb : bytes (unary n) = List.replicate n 120 := by
    rw [bytes, unary, String.toList_ofList]
    induction n with
    | zero => rfl
    | succ n ih =>
      rw [List.replicate_succ, List.flatMap_cons, ih]
      rfl
  rw [Plain, hb]
  constructor <;> exact fun hm => absurd (List.eq_of_mem_replicate hm) (by decide)

theorem unary_plain : ∀ id ∈ Set.range unary, Plain id := by
  rintro _ ⟨n, rfl⟩
  exact plain_unary n

theorem unary_faithful : Faithful (Set.range unary) (issuing unary) (issued unary) :=
  issuing_faithful unary_injective fun n => ⟨n, rfl⟩

theorem complete_sample :
    Complete (issuing unary) "\x7b\"entries\": [\x7b\"spiffe_id\": \"a\"\x7d]\x7d"
      [some ⟨none, "", "a", 0, none⟩] [] := by
  have hd : decodeFile "\x7b\"entries\": [\x7b\"spiffe_id\": \"a\"\x7d]\x7d" =
      (some ⟨some [some ⟨none, "", "a", 0, none⟩]⟩, none) := by
    rfl
  have hn : ∀ e ∈ [some (⟨none, "", "a", 0, none⟩ : RegistrationEntry)], e ≠ none := by
    intro e he
    cases List.mem_singleton.1 he
    exact nofun
  apply ((complete_iff (Set.infinite_range_of_injective unary_injective) hd hn).2 unary_plain
    _ _ _ [] unary_faithful).2
  intro x hx
  cases List.mem_singleton.1 hx
  exact ⟨nofun, nofun⟩

/-- An entry that was stored as it was sent is reported as a mismatch. -/
theorem emptyList_mismatch :
    ¬ ∀ (σ : Type) (srv : Server σ) (stored : σ → String → Option RegistrationEntry) (dat : String)
      (entries : RegistrationEntries) (server : σ), Faithful Set.univ srv stored →
      decodeFile dat = (some entries, none) → (∀ e ∈ entries.entries.getD [], e ≠ none) →
      Complete srv dat (entries.entries.getD []) server := by
  intro h
  have hd : decodeFile "\x7b\"entries\": [\x7b\"selectors\": []\x7d]\x7d" =
      (some ⟨some [some ⟨some [], "", "", 0, none⟩]⟩, none) := by
    rfl
  have hf : Faithful Set.univ (issuing unary) (issued unary) :=
    issuing_faithful unary_injective fun n => Set.mem_univ _
  have hc := h _ _ _ _ _ [] hf hd fun e he => by
    cases List.mem_singleton.1 he
    exact nofun
  have hr := hc.roundTrip ⟨some [], "", "", 0, none⟩ (List.mem_singleton.2 rfl)
  rw [refetched_eq] at hr
  cases hr

end SpiffeExample.Registration
