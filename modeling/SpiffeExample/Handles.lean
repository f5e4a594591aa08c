import SpiffeExample.Release
import SpiffeExample.Renewals

namespace SpiffeExample
set_option autoImplicit true
open Transition

namespace Go

/-- It leaves at most `n` handles open, and exactly `n` where it returns no error. -/
def Leaves (n : Nat) (x : Go α) : Prop :=
  ∀ w, (x w).2.handles.length ≤ w.handles.length + n ∧
    ∀ a, (x w).1 = .ok a → (x w).2.handles.length = w.handles.length + n

theorem Leaves.of_unchanged {x : Go α} (h : ∀ w, (x w).2.handles = w.handles) : x.Leaves 0 := by
  intro w
  rw [h w]
  exact ⟨Nat.le_refl _, fun _ _ => rfl⟩

theorem Leaves.bind {x : Go α} {f : α → Go β} (hx : x.Leaves m) (hf : ∀ a, (f a).Leaves n) :
    (x >>= f).Leaves (m + n) := by
  intro w
  obtain ⟨hle, heq⟩ := hx w
  cases hr : (x w).1 with
  | error e =>
    rw [bind_error hr]
    refine ⟨hle.trans (Nat.add_le_add_left (Nat.le_add_right m n) _), fun a ha => ?_⟩
    cases ha
  | ok a =>
    rw [bind_ok hr]
    obtain ⟨hle', heq'⟩ := hf a (x w).2
    have hm := heq a hr
    rw [hm, Nat.add_assoc] at hle' heq'
    exact ⟨hle', heq'⟩

theorem Leaves.fail (err : Option GoError) : (Go.fail err).Leaves 0 := by
  apply Leaves.of_unchanged
  intro w
  cases err <;> rfl

end Go

namespace Sidecar

/-- The handle of the output file. -/
theorem convertToPem_leaves (env : Conversion) (format : String) (input : Bytes) :
    (convertToPem env format input).Leaves 1 := by
  intro w
  have hh := convertToPem_handles env format input w
  by_cases hc : env.tempIn = none ∧ env.tempOut = none
  · rw [if_pos hc] at hh
    rw [hh]
    exact ⟨Nat.le_refl _, fun _ _ => rfl⟩
  · rw [if_neg hc] at hh
    rw [hh]
    refine ⟨Nat.le_succ _, fun a ha => ?_⟩
    obtain ⟨e, he⟩ := @convertToPem_fails env format input w (not_and_or.1 hc)
    cases ha.symm.trans he

theorem writeFile_leaves (env : Writing) (filename : String) (data : Bytes) :
    (writeFile env filename data).Leaves 0 := by
  have ha : (Go.act (·.writeFile filename (env.content data))).Leaves 0 :=
    .of_unchanged fun _ => rfl
  exact (Go.Leaves.fail env.openFile).bind fun _ => ha.bind fun _ => Go.Leaves.fail env.writeError

theorem dumpBundle_leaves (env : Environment) (certDir : String) (index : Nat)
    (bundle : WorkloadEntry) : (dumpBundle env certDir index bundle).Leaves 3 := by
  have hc (part : Part) := convertToPem_leaves (env.conversion index part)
  exact (hc _ _ _).bind fun _ => (hc _ _ _).bind fun _ => (writeFile_leaves _ _ _).bind fun _ =>
    (hc _ _ _).bind fun _ => writeFile_leaves _ _ _

theorem dumpFrom_leaves (env : Environment) (certDir : String) (index : Nat)
    (bundles : List WorkloadEntry) :
    (dumpFrom env certDir index bundles).Leaves (3 * bundles.length) := by
  induction bundles generalizing index with
  | nil => exact .of_unchanged fun _ => rfl
  | cons bundle bundles ih =>
    rw [List.length_cons, Nat.mul_succ, Nat.add_comm]
    exact (dumpBundle_leaves env certDir index bundle).bind fun _ => ih (index + 1)

def entries : Except GoError Bundles → Nat
  | .error _ => 0
  | .ok response => response.bundles.length

theorem dumpBundles_leaves (env : Environment) (certDir : String)
    (fetched : Except GoError Bundles) (w : World) :
    (dumpBundles env certDir fetched w).2.handles.length ≤
        w.handles.length + 3 * entries fetched ∧
      ((dumpBundles env certDir fetched w).1.err = none →
        (dumpBundles env certDir fetched w).2.handles.length =
          w.handles.length + 3 * entries fetched) := by
  cases fetched with
  | error e => exact ⟨Nat.le_refl _, fun _ => rfl⟩
  | ok response =>
    obtain ⟨hle, heq⟩ := dumpFrom_leaves env certDir 0 response.bundles w
    rw [dumpBundles_snd]
    refine ⟨hle, fun he => ?_⟩
    rw [dumpBundles] at he
    split at he
    · cases he
    · cases hr : dumpFrom env certDir 0 response.bundles w with
      | mk r w' =>
        rw [hr] at he heq
        cases r with
        | error e => cases he
        | ok u => exact heq u rfl

end Sidecar

namespace Daemon

def Event.entries : Event → Nat
  | .dumpBundles _ fetched => Sidecar.entries fetched
  | _ => 0

/-- All the entries of all the responses of a run. -/
def entries : List Event → Nat
  | [] => 0
  | e :: es => e.entries + entries es

theorem entries_snoc : entries (es ++ [e]) = entries es + e.entries := by
  induction es with
  | nil => exact Nat.add_comm _ _
  | cons l ls ih => rw [List.cons_append, entries, entries, ih, Nat.add_assoc]

structure Spent (s : Daemon) (es : List Event) (t : Daemon) : Prop where
  bound : t.world.handles.length ≤ s.world.handles.length + 3 * entries es
  whole : (∀ err, t.loop ≠ .returned (some err)) →
    t.world.handles.length = s.world.handles.length + 3 * entries es

theorem Event.entries_zero {e : Event} (h : e.dump = none) : e.entries = 0 := by
  cases e with
  | dumpBundles => cases h
  | _ => rfl

theorem Spent.step (h : Spent s es t) (hs : step t e = some u) : Spent s (es ++ [e]) u := by
  cases renewal hs with
  | @dumped env fetched dump _ hl hc hd he =>
    obtain ⟨_, heq⟩ := Sidecar.dumpBundles_leaves env t.config.certDir fetched t.world
    rw [hd] at heq
    have ht : ∀ err, t.loop ≠ .returned (some err) := by
      rw [hl]
      exact nofun
    have hw : u.world.handles.length = s.world.handles.length +
        3 * entries (es ++ [.dumpBundles env fetched]) := by
      rw [entries_snoc, Nat.mul_add, ← Nat.add_assoc, ← h.whole ht]
      exact heq he
    exact ⟨Nat.le_of_eq hw, fun _ => hw⟩
  | @failed env fetched dump _ err hc hd ht =>
    obtain ⟨hle, _⟩ := Sidecar.dumpBundles_leaves env t.config.certDir fetched t.world
    rw [hd] at hle
    constructor
    · rw [entries_snoc, Nat.mul_add, ← Nat.add_assoc]
      exact hle.trans (Nat.add_le_add_right h.bound _)
    · intro hu
      exact absurd ht (hu _)
  | other he _ hw _ hl =>
    have hn : entries (es ++ [e]) = entries es := by
      rw [entries_snoc, Event.entries_zero he, Nat.add_zero]
    constructor
    · rw [hn, hw]
      exact h.bound
    · intro hu
      rw [hn, hw]
      exact h.whole (hl hu)

/-- A run leaves three handles open for each entry of each response, none more if it fails. -/
theorem handles_of_run (hr : system.run s es = some t) :
    t.world.handles.length ≤ s.world.handles.length + 3 * entries es ∧
      ((∀ err, t.loop ≠ .returned (some err)) →
        t.world.handles.length = s.world.handles.length + 3 * entries es) := by
  have h : Spent s es t := by
    apply System.Path.history _ _ (System.Path.of_run hr)
    · intro es t e u h _ hs
      exact h.step hs
    · exact ⟨Nat.le_refl _, fun _ => rfl⟩
  exact ⟨h.bound, h.whole⟩

/-- One entry is renewed. -/
theorem handles_of_renewal :
    ∃ t, system.run sample [.dumpBundles (.sample 0) (.ok .sample)] = some t ∧
      t.world.handles.length = 3 := by
  obtain ⟨world, h⟩ := @step_renewal sample rfl rfl
  have hp := followed .nil h trivial
  exact ⟨_, hp.run, (handles_of_run hp.run).2 nofun⟩

end Daemon
end SpiffeExample
