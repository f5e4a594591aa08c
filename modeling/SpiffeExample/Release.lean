import SpiffeExample.Daemon

namespace SpiffeExample
set_option autoImplicit true

/-- What was acquired has been released: the temporary files and the open handles are as before. -/
structure World.Released (w w' : World) : Prop where
  temps : w'.temps = w.temps
  handles : w'.handles = w.handles

/-- The temporary files are as before, and every handle that was open still is. -/
structure World.Grows (w w' : World) : Prop where
  temps : w'.temps = w.temps
  handles : w.handles <:+ w'.handles

theorem World.Grows.of_unchanged (ht : w'.temps = w.temps) (hh : w'.handles = w.handles) :
    World.Grows w w' := by
  apply World.Grows.mk ht
  rw [hh]

theorem World.Grows.trans (h : World.Grows w₁ w₂) (h' : World.Grows w₂ w₃) :
    World.Grows w₁ w₃ :=
  ⟨h'.temps.trans h.temps, h.handles.trans h'.handles⟩

theorem World.Grows.released_iff (h : World.Grows w w') :
    World.Released w w' ↔ w'.handles.length = w.handles.length := by
  apply Iff.intro
  · intro hr
    rw [hr.handles]
  · intro hl
    exact ⟨h.temps, (h.handles.eq_of_length hl.symm).symm⟩

/-- What a sequence releases was released by its first part. -/
theorem World.Grows.released {x : Go α} {f : α → Go β} (hx : x.Takes World.Grows)
    (hf : ∀ a, (f a).Takes World.Grows) (h : World.Released w ((x >>= f) w).2) :
    World.Released w (x w).2 := by
  rw [(hx w).released_iff]
  apply le_antisymm _ (hx w).handles.length_le
  rw [← h.handles]
  cases hr : (x w).1 with
  | error e => rw [Go.bind_error hr]
  | ok a =>
    rw [Go.bind_ok hr]
    exact (hf a (x w).2).handles.length_le

theorem World.update_fresh (w : World) (h : w.next ≤ n) :
    Function.update w.temps n none = w.temps :=
  Function.update_eq_self_iff.2 (w.fresh n h).symm

namespace Sidecar

theorem convertToPem_temps (env : Conversion) (format : String) (input : Bytes) (w : World) :
    (convertToPem env format input w).2.temps = w.temps := by
  have hn : Function.update w.temps w.next none = w.temps := w.update_fresh (Nat.le_refl _)
  have hs : Function.update w.temps (w.next + 1) none = w.temps :=
    w.update_fresh (Nat.le_succ _)
  have hne : w.next ≠ w.next + 1 := Nat.ne_of_lt (Nat.lt_succ_self _)
  simp only [convertToPem, tempFile, wait, readFile, bind, Go.fail, Go.defer, Go.act,
    World.tempFile, World.write, World.close, World.remove]
  cases env.tempIn with
  | some e => rfl
  | none =>
    cases env.tempOut with
    | some e => simp only [Function.update_idem, hn]
    | none =>
      cases env.start with
      | some e => simp only [Function.update_idem, Function.update_comm hne, hs, hn]
      | none =>
        cases env.readFile with
        | some e => simp only [Function.update_idem, Function.update_comm hne, hs, hn]
        | none => simp only [Function.update_idem, Function.update_comm hne, hs, hn]

theorem convertToPem_handles (env : Conversion) (format : String) (input : Bytes) (w : World) :
    (convertToPem env format input w).2.handles =
      if env.tempIn = none ∧ env.tempOut = none then (w.next + 1) :: w.handles else w.handles := by
  have hn : w.next ∉ w.handles := fun hm => Nat.lt_irrefl _ (w.issued _ hm)
  have hne : w.next + 1 ≠ w.next := Nat.succ_ne_self _
  have he : ((w.next + 1) :: (w.next :: w.handles).erase w.next).erase w.next =
      (w.next + 1) :: w.handles := by
    have hb : ¬ (w.next + 1 == w.next) = true := fun hb => hne (beq_iff_eq.1 hb)
    rw [List.erase_cons_head, List.erase_cons_tail hb, List.erase_of_not_mem hn]
  simp only [convertToPem, tempFile, wait, readFile, bind]
  cases env.tempIn with
  | some e => rfl
  | none =>
    cases env.tempOut with
    | some e => exact List.erase_cons_head w.next w.handles
    | none =>
      rw [if_pos ⟨rfl, rfl⟩]
      cases env.start with
      | some e => exact he
      | none => cases env.readFile <;> exact he

theorem convertToPem_grows (env : Conversion) (format : String) (input : Bytes) :
    (convertToPem env format input).Takes World.Grows := by
  intro w
  apply World.Grows.mk (convertToPem_temps env format input w)
  rw [convertToPem_handles]
  split
  · exact List.suffix_cons _ _
  · exact List.suffix_refl _

/-- The handle of the output file is never closed. -/
theorem convertToPem_released (env : Conversion) (format : String) (input : Bytes) (w : World) :
    World.Released w (convertToPem env format input w).2 ↔
      env.tempIn ≠ none ∨ env.tempOut ≠ none := by
  rw [(convertToPem_grows env format input w).released_iff, convertToPem_handles]
  split
  · next h =>
    rw [List.length_cons]
    exact iff_of_false (Nat.succ_ne_self _) (fun hn => hn.elim (· h.1) (· h.2))
  · next h => exact iff_of_true rfl (not_and_or.1 h)

theorem kept_grows : Kept World.Grows where
  refl _ := .of_unchanged rfl rfl
  trans := World.Grows.trans
  convertToPem := convertToPem_grows
  write _ _ _ := .of_unchanged rfl rfl

theorem convertToPem_fails (format : String) (input : Bytes) (w : World)
    (h : env.tempIn ≠ none ∨ env.tempOut ≠ none) :
    ∃ e, (convertToPem env format input w).1 = .error e := by
  have he : osError env ≠ none := by
    rw [osError, Ne, Option.or_eq_none_iff, Option.or_eq_none_iff]
    exact fun hn => h.elim (· hn.1) (· hn.2.1)
  obtain ⟨e, he⟩ := Option.ne_none_iff_exists'.1 he
  exact ⟨e, (convertToPem_error env format input he).result w⟩

/-- The loop releases what it acquires only when it ends before the first output file. -/
theorem dumpFrom_released (env : Environment) (certDir : String) (index : Nat)
    (bundles : List WorkloadEntry) (w : World) :
    World.Released w (dumpFrom env certDir index bundles w).2 ↔ bundles = [] ∨
      (env.conversion index .svidPrivateKey).tempIn ≠ none ∨
      (env.conversion index .svidPrivateKey).tempOut ≠ none := by
  cases bundles with
  | nil => exact iff_of_true ⟨rfl, rfl⟩ (.inl rfl)
  | cons bundle bundles =>
    rw [dumpFrom]
    apply Iff.intro
    · intro h
      have hb := World.Grows.released (kept_grows.dumpBundle env certDir index bundle)
        (fun _ => kept_grows.dumpFrom env certDir (index + 1) bundles) h
      rw [dumpBundle_eq] at hb
      have hc := World.Grows.released (convertToPem_grows _ _ _)
        (kept_grows.dumpRest env certDir index bundle) hb
      exact .inr ((convertToPem_released _ _ _ w).1 hc)
    · intro h
      have hc := h.resolve_left (List.cons_ne_nil _ _)
      obtain ⟨e, he⟩ := convertToPem_fails "ec" bundle.svidPrivateKey w hc
      have hb : dumpBundle env certDir index bundle w = (.error e, _) := Go.bind_error he
      rw [Go.bind_error (congrArg Prod.fst hb), hb]
      exact (convertToPem_released _ _ _ w).2 hc

/-- The first conversion of a renewal gets as far as creating its output file. -/
def CreatesOutput (env : Environment) (fetched : Except GoError Bundles) : Prop :=
  ∃ response, fetched = .ok response ∧ response.bundles ≠ [] ∧
    (env.conversion 0 .svidPrivateKey).tempIn = none ∧
    (env.conversion 0 .svidPrivateKey).tempOut = none

theorem dumpBundles_grows (env : Environment) (certDir : String)
    (fetched : Except GoError Bundles) (w : World) :
    World.Grows w (dumpBundles env certDir fetched w).2 := by
  cases fetched with
  | error e => exact .of_unchanged rfl rfl
  | ok response =>
    rw [dumpBundles_snd]
    exact kept_grows.dumpFrom env certDir 0 response.bundles w

theorem dumpBundles_released (env : Environment) (certDir : String)
    (fetched : Except GoError Bundles) (w : World) :
    World.Released w (dumpBundles env certDir fetched w).2 ↔ ¬ CreatesOutput env fetched := by
  cases fetched with
  | error e =>
    apply iff_of_true ⟨rfl, rfl⟩
    intro h
    obtain ⟨response, hf, _⟩ := h
    cases hf
  | ok response =>
    rw [dumpBundles_snd, dumpFrom_released]
    apply Iff.intro
    · intro h hc
      obtain ⟨_, hf, hn, hi, ho⟩ := hc
      cases hf
      rcases h with h | h | h
      · exact hn h
      · exact h hi
      · exact h ho
    · intro h
      by_contra hn
      simp only [not_or, not_not] at hn
      exact h ⟨response, rfl, hn.1, hn.2⟩

end Sidecar

namespace Daemon
open Transition

def Event.CreatesOutput : Event → Prop
  | .dumpBundles env fetched => Sidecar.CreatesOutput env fetched
  | _ => False

/-- Only a renewal touches the temporary files and the handles. -/
theorem step_grows (hs : step s e = some t) : World.Grows s.world t.world ∧
    (World.Released s.world t.world ↔ ¬ e.CreatesOutput) := by
  cases step_cases hs with
  | @dumped env fetched dump w hl hd he | @dumpFailed env fetched dump w e hl hd he =>
    have hw : (Sidecar.dumpBundles env s.config.certDir fetched s.world).2 = w :=
      congrArg Prod.snd hd
    subst hw
    exact ⟨Sidecar.dumpBundles_grows env _ fetched _, Sidecar.dumpBundles_released env _ fetched _⟩
  | notRunning | running | startFailed | started | signalled | signalFailed | timer | interrupted
  | marked | waiting | collected | finished | exit | interrupt | advance =>
    exact ⟨.of_unchanged rfl rfl, iff_of_true ⟨rfl, rfl⟩ id⟩

theorem run_grows (hr : system.run s es = some t) : World.Grows s.world t.world :=
  System.run_preserves (I := fun u => World.Grows s.world u.world)
    (fun hi hs => hi.trans (step_grows hs).1) (.of_unchanged rfl rfl) hr

/-- Over a run nothing is released that one of its renewals has not released. -/
theorem run_released (hr : system.run s es = some t) :
    World.Released s.world t.world ↔ ∀ e ∈ es, ¬ e.CreatesOutput := by
  have hl := @System.run_eq_iff _ _ _ s es t _ system (fun s => s.world.handles.length)
    (fun e => ¬ e.CreatesOutput) ?_ hr
  · exact (run_grows hr).released_iff.trans hl.2
  · intro s e t hs
    obtain ⟨hg, hr⟩ := step_grows hs
    exact ⟨hg.handles.length_le, hg.released_iff.symm.trans hr⟩

/-- Temporary files never accumulate. Handles do: a conversion releases its own exactly when it
does not get as far as creating its output file, and a run exactly when no renewal does. -/
theorem released_iff_no_output (env : Conversion) (format : String) (input : Bytes)
    (w : World) (hr : system.run s es = some t) :
    (Sidecar.convertToPem env format input w).2.temps = w.temps ∧
    (World.Released w (Sidecar.convertToPem env format input w).2 ↔
      env.tempIn ≠ none ∨ env.tempOut ≠ none) ∧
    t.world.temps = s.world.temps ∧
    (World.Released s.world t.world ↔ ∀ e ∈ es, ¬ e.CreatesOutput) :=
  ⟨Sidecar.convertToPem_temps env format input w,
    Sidecar.convertToPem_released env format input w, (run_grows hr).temps, run_released hr⟩

def outOfFiles : Sidecar.Environment :=
  { Sidecar.Environment.sample 0 with conversion := fun _ _ =>
      ⟨none, some "too many open files", none, none, id, fun _ input => (0, input)⟩ }

theorem released_out_of_files :
    ∃ t, system.run sample [.dumpBundles outOfFiles (.ok .sample)] = some t ∧
      World.Released World.sample (Sidecar.convertToPem (outOfFiles.conversion 0 .svid) "x509" [1]
        World.sample).2 ∧
      World.Released sample.world t.world := by
  obtain ⟨world, hs⟩ := @step_dump sample outOfFiles .sample rfl (List.cons_ne_nil _ _)
  have hr : system.run sample [.dumpBundles outOfFiles (.ok .sample)] = some _ :=
    System.run_cons.2 ⟨_, hs.step, rfl⟩
  obtain ⟨_, hc, _, ht⟩ :=
    released_iff_no_output (outOfFiles.conversion 0 .svid) "x509" [1] World.sample hr
  refine ⟨_, hr, hc.2 (.inr (Option.some_ne_none _)), ht.2 ?_⟩
  intro e he hc
  cases List.mem_singleton.1 he
  obtain ⟨_, _, _, _, ho⟩ := hc
  cases ho

/-- A conversion without any failure leaves one more handle, and so does a renewal. -/
theorem handle_left_open :
    ¬ World.Released World.sample
      (Sidecar.convertToPem ((Sidecar.Environment.sample 0).conversion 0 .svid) "x509" [1]
        World.sample).2 ∧
    ∃ t, system.run sample [.dumpBundles (.sample 0) (.ok .sample)] = some t ∧
      ¬ World.Released sample.world t.world := by
  apply And.intro
  · intro h
    rcases (Sidecar.convertToPem_released _ _ _ _).1 h with hi | ho
    · exact hi rfl
    · exact ho rfl
  · obtain ⟨world, hs⟩ := @step_dump sample (.sample 0) .sample rfl (List.cons_ne_nil _ _)
    have hr : system.run sample [.dumpBundles (.sample 0) (.ok .sample)] = some _ :=
      System.run_cons.2 ⟨_, hs.step, rfl⟩
    refine ⟨_, hr, ?_⟩
    intro h
    exact (run_released hr).1 h _ List.mem_cons_self
      ⟨.sample, rfl, List.cons_ne_nil _ _, rfl, rfl⟩

end Daemon
end SpiffeExample
