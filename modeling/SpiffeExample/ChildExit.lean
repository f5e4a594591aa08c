import SpiffeExample.SingleChild

namespace SpiffeExample.Daemon
set_option autoImplicit true
open Transition

/-- Every fetch, conversion, write and start succeeds. -/
def Healthy (_ : Daemon) : Event → Prop
  | .dumpBundles env fetched => ∃ response, fetched = .ok response ∧
      ∀ i, i < response.bundles.length → Sidecar.bundleError env i = none
  | .start err => err = none
  | _ => True

/-- The response is not empty, and no goroutine has come back from its wait for the process that
the loop signals. -/
def Uncollected (s : Daemon) : Event → Prop
  | .dumpBundles _ (.ok response) => response.bundles ≠ []
  | .signal => ∀ pid, s.process = some pid → pid ∉ s.collected
  | _ => True

/-- `RunDaemon` has returned in `t` only as the consequence of an interrupt signal. -/
def EndsByInterrupt (s : Daemon) (es : List Event) (t : Daemon) : Prop :=
  ∀ err, t.loop = .returned err → err = none ∧ (s.interrupt = true ∨ .interrupt ∈ es)

theorem healthy_dump (hh : Healthy s (.dumpBundles env fetched))
    (hd : Sidecar.dumpBundles env s.config.certDir fetched s.world = (dump, w)) :
    dump.err = none ↔ Uncollected s (.dumpBundles env fetched) := by
  obtain ⟨response, rfl, hb⟩ := hh
  cases hn : response.bundles with
  | nil =>
    have he : dump.err = some "Fetched zero bundles" := by
      rw [Sidecar.dumpBundles, hn] at hd
      cases hd
      rfl
    rw [he, Uncollected, hn]
    apply Iff.intro
    · intro h
      cases h
    · intro h
      exact absurd rfl h
  | cons bundle bundles =>
    have hne : response.bundles ≠ [] := hn ▸ List.cons_ne_nil bundle bundles
    have hf : Sidecar.firstError env 0 response.bundles = none := by
      apply Sidecar.firstError_eq_none.2
      intro k hk
      rw [Nat.zero_add]
      exact hb k hk
    have he := (Sidecar.dumpBundles_ok env s.config.certDir response s.world hne).1
    rw [hd, hf] at he
    exact ⟨fun _ => hne, fun _ => congrArg Sidecar.Dump.err he⟩

/-- An interrupt that is pending or that has ended the loop was sent, and nothing else ended it. -/
structure Calm (sent : Prop) (s : Daemon) : Prop where
  pending : s.interrupt = true → sent
  returned : ∀ err, s.loop = .returned err → err = none ∧ sent

theorem Calm.step (h : Calm sent s) (hh : Healthy s e) (hu : Uncollected s e)
    (hs : Daemon.step s e = some t) : Calm (sent ∨ e = .interrupt) t := by
  have hp : s.interrupt = true → sent ∨ e = .interrupt := fun hi => .inl (h.pending hi)
  have hr : ∀ err, s.loop = .returned err → err = none ∧ (sent ∨ e = .interrupt) :=
    fun err hl => ⟨(h.returned err hl).1, .inl (h.returned err hl).2⟩
  cases step_cases hs with
  | dumped | notRunning | running | started | signalled | timer =>
    exact ⟨hp, fun _ hl => (nomatch hl)⟩
  | dumpFailed hl hd he => cases he.symm.trans ((healthy_dump hh hd).2 hu)
  | startFailed => cases hh
  | signalFailed hl hq hc => exact absurd hc (hu _ hq)
  | interrupted hl hi =>
    apply Calm.mk
    · intro hi
      cases hi
    · intro err hl
      cases hl
      exact ⟨rfl, hp hi⟩
  | marked | waiting | collected | finished | exit | advance => exact ⟨hp, hr⟩
  | interrupt => exact ⟨fun _ => .inr rfl, hr⟩

theorem Calm.run (h : Calm sent s) (hh : system.Along Healthy s es)
    (hu : system.Along Uncollected s es) (hr : system.run s es = some t) :
    Calm (sent ∨ .interrupt ∈ es) t := by
  induction es generalizing s sent with
  | nil =>
    cases hr
    exact ⟨fun hi => .inl (h.pending hi), fun err hl => (h.returned err hl).imp_right .inl⟩
  | cons e es ih =>
    obtain ⟨u, hs, hr⟩ := System.run_cons.1 hr
    have ht := ih (h.step hh.1 hu.1 hs) (hh.2 u hs) (hu.2 u hs) hr
    have hsent : (sent ∨ e = .interrupt) ∨ .interrupt ∈ es → sent ∨ .interrupt ∈ e :: es := by
      intro hsent
      rcases hsent with (hsent | he) | hm
      · exact .inl hsent
      · exact .inr (he ▸ List.mem_cons_self)
      · exact .inr (List.mem_cons_of_mem e hm)
    exact ⟨fun hi => hsent (ht.pending hi), fun err hl => (ht.returned err hl).imp_right hsent⟩

def Failed (s : Daemon) : Prop := ∃ e, s.loop = .returned (some e)

theorem Failed.run (h : Failed s) (hr : system.run s es = some t) : Failed t := by
  apply system.run_preserves _ h hr
  intro s e t h hs
  obtain ⟨err, hl⟩ := h
  cases step_cases hs with
  | dumped hl' | dumpFailed hl' | notRunning hl' | running hl' | startFailed hl' | started hl'
  | signalled hl' | signalFailed hl' | timer hl' | interrupted hl' => cases hl.symm.trans hl'
  | marked | waiting | collected | finished | exit | interrupt | advance => exact ⟨err, hl⟩

theorem failed_of_collected (hh : Healthy s e) (hu : ¬ Uncollected s e)
    (hs : step s e = some t) : Failed t := by
  cases step_cases hs with
  | dumped hl hd he => exact absurd ((healthy_dump hh hd).1 he) hu
  | dumpFailed | signalFailed => exact ⟨_, rfl⟩
  | signalled hl hp hc =>
    have hun : Uncollected s .signal := by
      intro pid hq
      cases hp.symm.trans hq
      exact hc
    exact absurd hun hu
  | notRunning | running | startFailed | started | timer | interrupted | marked | waiting
  | collected | finished | exit | interrupt | advance => exact absurd trivial hu

theorem uncollected_of_not_failed (hh : system.Along Healthy s es)
    (hr : system.run s es = some t) (hf : ¬ Failed t) : system.Along Uncollected s es := by
  induction es generalizing s with
  | nil => trivial
  | cons e es ih =>
    obtain ⟨u, hs, hr⟩ := System.run_cons.1 hr
    have hu : Uncollected s e := by
      by_contra hn
      exact hf ((failed_of_collected hh.1 hn hs).run hr)
    exact System.Along.cons hs hu (ih (hh.2 u hs) hr)

/-- A run in which everything else succeeds ends by interrupts only exactly when no process is
signalled whose exit has been collected. -/
theorem endsByInterrupt_iff (hi : system.init s) (hr : system.run s es = some t)
    (hh : system.Along Healthy s es) :
    EndsByInterrupt s es t ↔ system.Along Uncollected s es := by
  apply Iff.intro
  · intro h
    apply uncollected_of_not_failed hh hr
    intro hf
    obtain ⟨e, hl⟩ := hf
    cases (h _ hl).1
  · intro hu
    have hl : ∀ err, s.loop = .returned err → err = none ∧ s.interrupt = true :=
      fun err hl => nomatch hi.2.2.1.symm.trans hl
    have hc : Calm (s.interrupt = true) s := ⟨id, hl⟩
    exact (hc.run hh hu hr).returned

theorem taken (h : system.Path C s es t) (hs : Step t e u) (hc : C t e) :
    system.Path C s (es ++ [e]) u :=
  h.snoc hs.step hc

theorem healthy_renewal (s : Daemon) : Healthy s (.dumpBundles (.sample 0) (.ok .sample)) :=
  ⟨.sample, rfl, fun _ _ => rfl⟩

theorem endsByInterrupt_after_renewal :
    ∃ es t, t.loop = .returned none ∧ t.alive = [0] ∧ EndsByInterrupt sample es t := by
  have hi : system.init sample := ⟨rfl, rfl, rfl, rfl, rfl, rfl, rfl⟩
  have ht : (0 : Int) + (1 : Int).tdiv 2 ≤ 0 := by decide
  obtain ⟨w₁, h₁⟩ := @step_renewal sample rfl rfl
  obtain ⟨w₂, h₂⟩ := @step_renewal { sample.start sampleDump with
    processRunning := true
    watchers := [.marked]
    loop := .dumpBundles
    world := w₁ } rfl rfl
  have hne : Sidecar.Bundles.sample.bundles ≠ [] := List.cons_ne_nil _ _
  have hp := @System.Path.nil _ _ (fun s e => Healthy s e ∧ Uncollected s e) sample system
  have hp := taken hp h₁ ⟨healthy_renewal _, hne⟩
  have hp := taken hp (Step.notRunning rfl rfl) ⟨trivial, trivial⟩
  have hp := taken hp (Step.started rfl) ⟨rfl, trivial⟩
  have hp := taken hp (@Step.marked _ 0 rfl) ⟨trivial, trivial⟩
  have hp := taken hp (Step.timer rfl ht) ⟨trivial, trivial⟩
  have hp := taken hp h₂ ⟨healthy_renewal _, hne⟩
  have hp := taken hp (Step.running rfl rfl) ⟨trivial, trivial⟩
  have hp := taken hp (Step.signalled rfl rfl List.not_mem_nil)
    ⟨trivial, fun _ _ => List.not_mem_nil⟩
  have hp := taken hp .interrupt ⟨trivial, trivial⟩
  have hp := taken hp (Step.interrupted rfl rfl) ⟨trivial, trivial⟩
  have hh := System.Along.mono (I := fun _ => True) (fun _ _ _ => trivial) (fun _ h => h.1)
    trivial hp.along
  have hu := System.Along.mono (I := fun _ => True) (fun _ _ _ => trivial) (fun _ h => h.2)
    trivial hp.along
  exact ⟨_, _, rfl, rfl, (endsByInterrupt_iff hi hp.run hh).2 hu⟩

/-- A renewal finds the flag still up after the exit of the child has been collected. -/
theorem exit_ends_daemon :
    ¬ ∀ es t, system.run sample es = some t → system.Along Healthy sample es →
      EndsByInterrupt sample es t := by
  intro h
  have ht : (0 : Int) + (1 : Int).tdiv 2 ≤ 0 := by decide
  obtain ⟨w₁, h₁⟩ := @step_renewal sample rfl rfl
  obtain ⟨w₂, h₂⟩ := @step_renewal { sample.start sampleDump with
    processRunning := true
    watchers := [.collected]
    alive := []
    collected := [0]
    loop := .dumpBundles
    world := w₁ } rfl rfl
  have hp := @System.Path.nil _ _ Healthy sample system
  have hp := taken hp h₁ (healthy_renewal _)
  have hp := taken hp (Step.notRunning rfl rfl) trivial
  have hp := taken hp (Step.started rfl) rfl
  have hp := taken hp (@Step.marked _ 0 rfl) trivial
  have hp := taken hp (@Step.waiting _ 0 0 rfl rfl) trivial
  have hp := taken hp (Step.exit List.mem_cons_self) trivial
  have hp := taken hp (@Step.collected _ 0 0 rfl List.not_mem_nil) trivial
  have hp := taken hp (Step.timer rfl ht) trivial
  have hp := taken hp h₂ (healthy_renewal _)
  have hp := taken hp (Step.running rfl rfl) trivial
  have hp := taken hp (Step.signalFailed rfl rfl List.mem_cons_self) trivial
  cases (h _ _ hp.run hp.along _ rfl).1

end SpiffeExample.Daemon
