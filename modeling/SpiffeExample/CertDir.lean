import SpiffeExample.Renewals

namespace SpiffeExample
set_option autoImplicit true
open Transition

namespace Sidecar

/-- What a workload entry of an index makes of its two files; without one they are as before. -/
def Stored (certDir : String) (i : Nat) (before after : World) :
    Option (Environment × WorkloadEntry) → Prop
  | none => after.files (pkFilename certDir i) = before.files (pkFilename certDir i) ∧
      after.files (certFilename certDir i) = before.files (certFilename certDir i)
  | some (env, bundle) =>
      after.files (pkFilename certDir i) = some (newKeystore env i bundle) ∧
      after.files (certFilename certDir i) = some (newCerts env i bundle)

theorem Stored.trans (h : Stored certDir i u v entry) (h' : Stored certDir i v w entry') :
    Stored certDir i u w (entry'.or entry) := by
  cases entry' with
  | some p => exact h'
  | none =>
    cases entry with
    | none => exact ⟨h'.1.trans h.1, h'.2.trans h.2⟩
    | some p => exact ⟨h'.1.trans h.1, h'.2.trans h.2⟩

/-- No file of this path is ever written. -/
def Outside (certDir path : String) : Prop :=
  ∀ i, path ≠ pkFilename certDir i ∧ path ≠ certFilename certDir i

/-- An entry of the response renews its files, and an index the response has not keeps them. -/
theorem Dumped.stored
    (h : Dumped env certDir response (dumpBundles env certDir (.ok response) w).2) (i : Nat) :
    Stored certDir i w (dumpBundles env certDir (.ok response) w).2
      (response.bundles[i]?.map (env, ·)) := by
  cases hb : response.bundles[i]? with
  | some bundle => exact h.files i bundle hb
  | none =>
    have hn : ∀ bundle, response.bundles[i]? ≠ some bundle := by
      intro bundle he
      cases hb.symm.trans he
    apply And.intro
    · exact keystore_old fun bundle he => absurd he (hn bundle)
    · exact certs_old fun bundle he => absurd he (hn bundle)

theorem dumpBundles_outside (env : Environment) (fetched : Except GoError Bundles) (w : World)
    (hp : Outside certDir path) :
    (dumpBundles env certDir fetched w).2.files path = w.files path := by
  cases fetched with
  | error e => rfl
  | ok response => exact other_old fun i _ => hp i

end Sidecar

namespace Daemon

/-- The entry of this index in the response that was dumped. -/
def Event.entry (i : Nat) : Event → Option (Sidecar.Environment × Sidecar.WorkloadEntry)
  | .dumpBundles env (.ok response) => response.bundles[i]?.map (env, ·)
  | _ => none

/-- The newest entry of this index in all the responses of a run. -/
def lastEntry (i : Nat) (es : List Event) :
    Option (Sidecar.Environment × Sidecar.WorkloadEntry) :=
  es.reverse.findSome? (Event.entry i)

theorem lastEntry_snoc : lastEntry i (es ++ [e]) = (e.entry i).or (lastEntry i es) := by
  rw [lastEntry, lastEntry, List.reverse_append, List.reverse_singleton, List.singleton_append,
    List.findSome?_cons]
  cases e.entry i <;> rfl

structure Directory (s : Daemon) (es : List Event) (t : Daemon) : Prop where
  certDir : t.config = s.config
  outside : ∀ path, Sidecar.Outside s.config.certDir path →
    t.world.files path = s.world.files path
  stored : (∀ err, t.loop ≠ .returned (some err)) → ∀ i,
    Sidecar.Stored s.config.certDir i s.world t.world (lastEntry i es)

theorem Event.entry_none (h : e.dump = none) : Event.entry i e = none := by
  cases e with
  | dumpBundles => cases h
  | _ => rfl

theorem Directory.step (h : Directory s es t) (hs : step t e = some u) :
    Directory s (es ++ [e]) u := by
  cases renewal hs with
  | @dumped env fetched dump _ hl hc hd he =>
    have hw : u.world = (Sidecar.dumpBundles env t.config.certDir fetched t.world).2 := by rw [hd]
    obtain ⟨response, rfl, hx, _⟩ := Sidecar.dumped_of_ok hd he
    rw [h.certDir] at hw hx
    rw [hw] at hx
    constructor
    · exact hc.trans h.certDir
    · intro path hp
      rw [hw]
      exact (Sidecar.dumpBundles_outside env _ t.world hp).trans (h.outside path hp)
    · intro _ i
      have ht : ∀ err, t.loop ≠ .returned (some err) := by
        rw [hl]
        exact nofun
      rw [hw, lastEntry_snoc]
      exact (h.stored ht i).trans (hx.stored i)
  | @failed env fetched dump _ err hc hd ht =>
    have hw : u.world = (Sidecar.dumpBundles env t.config.certDir fetched t.world).2 := by rw [hd]
    rw [h.certDir] at hw
    constructor
    · exact hc.trans h.certDir
    · intro path hp
      rw [hw]
      exact (Sidecar.dumpBundles_outside env _ t.world hp).trans (h.outside path hp)
    · intro hu
      exact absurd ht (hu _)
  | other he hc hw _ hl =>
    constructor
    · exact hc.trans h.certDir
    · intro path hp
      rw [hw]
      exact h.outside path hp
    · intro hu i
      rw [hw, lastEntry_snoc, Event.entry_none he, Option.none_or]
      exact h.stored (hl hu) i

/-- After a run the two files of each index are those of the newest response that had an entry of
that index, be it not the last one, unless an error has ended the loop; and whatever happened, no
other file has been written. -/
theorem directory_of_run (hr : system.run s es = some t) :
    (∀ path, Sidecar.Outside s.config.certDir path → t.world.files path = s.world.files path) ∧
      ((∀ err, t.loop ≠ .returned (some err)) → ∀ i,
        Sidecar.Stored s.config.certDir i s.world t.world (lastEntry i es)) := by
  have h : Directory s es t := by
    apply System.Path.history _ _ (System.Path.of_run hr)
    · intro es t e u h _ hs
      exact h.step hs
    · exact ⟨rfl, fun _ _ => rfl, fun _ _ => ⟨rfl, rfl⟩⟩
  exact ⟨h.outside, h.stored⟩

def twoEntries : Sidecar.Bundles := ⟨[⟨[1], [2], [3]⟩, ⟨[4], [5], [6]⟩], 10⟩

theorem renewed_followed (hp : system.Path Marked s es t) (hl : t.loop = .dumpBundles) :
    ∃ u, system.run s (es ++ [.dumpBundles (.sample 0) (.ok tenSeconds)]) = some u ∧
      ∃ dump, u.loop = .signalProcess dump := by
  obtain ⟨w, h⟩ := step_dump (.sample 0) tenSeconds hl (List.cons_ne_nil _ _)
  exact ⟨_, (followed hp h trivial).run, _, rfl⟩

/-- The second entry of the first response is still there after a shorter one. -/
theorem directory_of_shorter : ∃ t es, system.run sample es = some t ∧
    es.countP Event.isDump = 2 ∧
    Sidecar.Stored "/certs" 1 sample.world t.world (some (.sample 0, ⟨[4], [5], [6]⟩)) := by
  have ht : (0 : Int) + (10 : Int).tdiv 2 ≤ 0 + (5 : Nat) := by decide
  obtain ⟨w, h⟩ := @step_dump sample (.sample 0) twoEntries rfl (List.cons_ne_nil _ _)
  have hp := followed .nil h trivial
  have hp := followed hp (.notRunning rfl rfl) List.not_mem_nil
  have hp := followed hp (.started rfl) trivial
  have hp := followed hp (@Step.advance _ 5) trivial
  have hp := followed hp (.timer rfl ht) trivial
  obtain ⟨u, hr, dump, hu⟩ := renewed_followed hp rfl
  have hl : ∀ err, u.loop ≠ .returned (some err) := by
    rw [hu]
    exact nofun
  exact ⟨u, _, hr, rfl, (directory_of_run hr).2 hl 1⟩

end Daemon
end SpiffeExample
