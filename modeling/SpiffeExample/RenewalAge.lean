import SpiffeExample.Renewals

namespace SpiffeExample.Daemon
set_option autoImplicit true
open Transition

/-- The time of the newest dump, and how many of the seconds since then the loop spent elsewhere
than in waiting for a timer that was still running. -/
structure Delay where
  begun : Int
  late : Int

def lateness (s : Daemon) (seconds : Nat) : Int :=
  match s.loop with
  | .wait deadline => max 0 (min seconds (s.clock + seconds - deadline))
  | _ => seconds

def Delay.next (s : Daemon) (d : Delay) : Event → Delay
  | .dumpBundles _ _ => ⟨s.clock, 0⟩
  | .advance seconds => { d with late := d.late + s.lateness seconds }
  | _ => d

def delay (s : Daemon) (d : Delay) : List Event → Delay
  | [] => d
  | e :: es =>
    match s.step e with
    | none => d
    | some t => t.delay (d.next s e) es

theorem delay_snoc (hr : system.run s es = some t) (hs : t.step e = some u) :
    s.delay d (es ++ [e]) = (s.delay d es).next t e := by
  induction es generalizing s d with
  | nil =>
    cases hr
    simp only [List.nil_append, delay, hs]
  | cons l ls ih =>
    obtain ⟨v, hv, hr⟩ := System.run_cons.1 hr
    have hv : s.step l = some v := hv
    simp only [List.cons_append, delay, hv]
    exact ih hr

/-- Where the loop is since a response of this lifetime was dumped. -/
def TimelyAt (ttl : Int) (d : Delay) (clock : Int) : Loop → Prop
  | .signalProcess dump | .start dump => dump.ttl = ttl ∧ clock - d.begun ≤ d.late
  | .signal lifetime => lifetime = ttl ∧ clock - d.begun ≤ d.late
  | .wait deadline => deadline - d.begun ≤ ttl.tdiv 2 + d.late
  | .dumpBundles | .returned _ => True

structure Timely (ttl : Int) (d : Delay) (s : Daemon) : Prop where
  age : s.clock - d.begun ≤ max 0 (ttl.tdiv 2) + d.late
  loop : TimelyAt ttl d s.clock s.loop

theorem Timely.same {s t : Daemon} (h : Timely ttl d s) (hl : t.loop = s.loop)
    (hc : t.clock = s.clock) : Timely ttl d t where
  age := by
    rw [hc]
    exact h.age
  loop := by
    rw [hl, hc]
    exact h.loop

theorem lateness_wait {s : Daemon} (h : s.loop = .wait time) :
    s.lateness seconds = max 0 (min (seconds : Int) (s.clock + seconds - time)) := by
  rw [lateness, h]

theorem lateness_elsewhere {s : Daemon} (h : ∀ time, s.loop ≠ .wait time) :
    s.lateness seconds = seconds := by
  rw [lateness]
  split
  · next hl => exact absurd hl (h _)
  · rfl

/-- What goes by while the timer runs is part of the wait, and the rest is late. -/
theorem Timely.advance (h : Timely ttl d s) :
    Timely ttl { d with late := d.late + s.lateness seconds }
      { s with clock := s.clock + seconds } := by
  obtain ⟨ha, hl⟩ := h
  have hk : (0 : Int) ≤ seconds := Int.natCast_nonneg seconds
  by_cases hw : ∃ time, s.loop = .wait time
  · obtain ⟨time, he⟩ := hw
    have hx := @lateness_wait time seconds s he
    rw [he] at hl
    have hd : time - d.begun ≤ ttl.tdiv 2 + d.late := hl
    constructor
    · change s.clock + seconds - d.begun ≤ _ + (d.late + s.lateness seconds)
      omega
    · change TimelyAt ttl _ _ s.loop
      rw [he]
      change time - d.begun ≤ _ + (d.late + s.lateness seconds)
      omega
  · have hx := @lateness_elsewhere seconds s (fun time he => hw ⟨time, he⟩)
    constructor
    · change s.clock + seconds - d.begun ≤ _ + (d.late + s.lateness seconds)
      omega
    · change TimelyAt ttl _ (s.clock + seconds) s.loop
      cases he : s.loop with
      | wait time => exact absurd ⟨time, he⟩ hw
      | dumpBundles | returned => trivial
      | signalProcess | start | signal =>
        rw [he] at hl
        refine ⟨hl.1, ?_⟩
        change s.clock + seconds - d.begun ≤ d.late + s.lateness seconds
        have hb := hl.2
        omega

/-- The newest response, if there is one, is not older than its wait and the delays since. -/
def Renewed (d : Delay) (es : List Event) (s : Daemon) : Prop :=
  ∀ env response, lastDump es = some (env, .ok response) → Timely response.ttl d s

theorem Timely.begun (s : Daemon) (hl : TimelyAt ttl ⟨s.clock, 0⟩ s.clock s.loop) :
    Timely ttl ⟨s.clock, 0⟩ s := by
  refine ⟨?_, hl⟩
  change s.clock - s.clock ≤ max 0 (ttl.tdiv 2) + 0
  omega

/-- The timer is set for half the lifetime. -/
theorem waits_half {s : Daemon} (ht : lifetime = ttl) (hb : s.clock - d.begun ≤ d.late) :
    TimelyAt ttl d s.clock (.wait (s.deadline lifetime)) := by
  subst ht
  change s.clock + lifetime.tdiv 2 - d.begun ≤ _ + d.late
  omega

theorem Renewed.step (h : Renewed d es s) (hs : step s e = some t) :
    Renewed (d.next s e) (es ++ [e]) t := by
  intro env response hf
  cases step_cases hs with
  | @dumped env' fetched dump w hl hd he =>
    rw [lastDump_snoc] at hf
    cases hf
    obtain ⟨_, hr, _, rfl⟩ := Sidecar.dumped_of_ok hd he
    cases hr
    have hz : s.clock - s.clock ≤ 0 := by omega
    exact Timely.begun { s with world := w, loop := .signalProcess _ } ⟨rfl, hz⟩
  | @dumpFailed env' fetched dump w err hl hd he =>
    exact Timely.begun { s with world := w, loop := .returned (some err) } trivial
  | notRunning hl | running hl =>
    rw [lastDump_snoc_none rfl] at hf
    obtain ⟨ha, hw⟩ := h env response hf
    rw [hl] at hw
    exact ⟨ha, hw⟩
  | startFailed | signalFailed | interrupted | timer =>
    rw [lastDump_snoc_none rfl] at hf
    exact ⟨(h env response hf).age, trivial⟩
  | started hl =>
    rw [lastDump_snoc_none rfl] at hf
    obtain ⟨ha, hw⟩ := h env response hf
    rw [hl] at hw
    exact ⟨ha, waits_half hw.1 hw.2⟩
  | signalled hl =>
    rw [lastDump_snoc_none rfl] at hf
    obtain ⟨ha, hw⟩ := h env response hf
    rw [hl] at hw
    exact ⟨ha, waits_half hw.1 hw.2⟩
  | marked | waiting | collected | finished | exit | interrupt =>
    rw [lastDump_snoc_none rfl] at hf
    exact (h env response hf).same rfl rfl
  | advance =>
    rw [lastDump_snoc_none rfl] at hf
    exact (h env response hf).advance

/-- At every moment the newest response is at most half its lifetime old, but for the seconds since
then in which the loop was not waiting or its timer had run out. -/
theorem renewed_in_time (hr : system.run s es = some t)
    (hf : lastDump es = some (env, .ok response)) :
    t.clock - (s.delay d es).begun ≤
      max 0 (response.ttl.tdiv 2) + (s.delay d es).late := by
  have h : system.run s es = some t ∧ Renewed (s.delay d es) es t := by
    apply System.Path.history (H := fun es t => system.run s es = some t ∧
      Renewed (s.delay d es) es t) _ _ (System.Path.of_run hr)
    · intro es t e u h _ hs
      obtain ⟨hr, hR⟩ := h
      rw [delay_snoc hr hs]
      exact ⟨((System.Path.of_run hr).snoc hs trivial).run, hR.step hs⟩
    · refine ⟨rfl, fun env response hf => ?_⟩
      cases hf
  exact (h.2 env response hf).age

theorem renewed_in_time_sample : ∃ t es, system.run sample es = some t ∧ t.clock = 5 ∧
    t.clock - (sample.delay ⟨0, 0⟩ es).begun ≤
      max 0 ((10 : Int).tdiv 2) + (sample.delay ⟨0, 0⟩ es).late := by
  have hn : tenSeconds.bundles ≠ [] := List.cons_ne_nil _ _
  obtain ⟨w, h⟩ := @step_dump sample (.sample 0) tenSeconds rfl hn
  have hp := followed .nil h trivial
  have hp := followed hp (.notRunning rfl rfl) List.not_mem_nil
  have hp := followed hp (.started rfl) trivial
  have hp := followed hp (@Step.advance _ 5) trivial
  exact ⟨_, _, hp.run, rfl, @renewed_in_time _ _ _ (.sample 0) tenSeconds ⟨0, 0⟩ hp.run rfl⟩

end SpiffeExample.Daemon
