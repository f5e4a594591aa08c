import SpiffeExample.Daemon

namespace SpiffeExample.Daemon
set_option autoImplicit true
open Transition

/-- A child that is alive is the process that the sidecar signals, so there is at most one. -/
def SingleChild (s : Daemon) : Prop :=
  (∀ p ∈ s.alive, s.process = some p) ∧ ∀ p ∈ s.alive, ∀ q ∈ s.alive, p = q

/-- The loop does not look at the flag while a goroutine has not yet set it. -/
def Marked (s : Daemon) : Event → Prop
  | .signalProcess => .spawned ∉ s.watchers
  | _ => True

instance (s : Daemon) : ∀ e, Decidable (Marked s e)
  | .signalProcess => inferInstanceAs (Decidable (_ ∉ _))
  | .dumpBundles _ _ | .start _ | .signal | .timer | .interrupted | .watcher _ | .exit _
  | .interrupt | .advance _ => .isTrue trivial

def running : Option Watcher → Bool
  | some .marked | some (.waiting _) | some .collected => true
  | some .spawned | some .finished | none => false

def watching : Option Watcher → Bool
  | some .spawned | some .marked | some (.waiting _) => true
  | some .collected | some .finished | none => false

/-- Only the newest goroutine is at work, and the flag and the children are its own. -/
structure Inv (s : Daemon) : Prop where
  tail : ∀ w ∈ s.watchers.tail, w = .finished
  flag : s.processRunning = running s.watchers.head?
  alive : ∀ p ∈ s.alive, s.process = some p ∧ watching s.watchers.head? = true
  waiting : ∀ p, s.watchers.head? = some (.waiting p) → s.process = some p
  start : ∀ dump, s.loop = .start dump → ∀ w ∈ s.watchers, w = .finished

theorem Inv.singleChild (h : Inv s) : SingleChild s := by
  apply And.intro
  · intro p hp
    exact (h.alive p hp).1
  · intro p hp q hq
    have hpq := (h.alive p hp).1.symm.trans (h.alive q hq).1
    exact Option.some.inj hpq

theorem Inv.init (h : system.init s) : Inv s := by
  obtain ⟨hr, _, hl, hw, _, ha, _⟩ := h
  apply Inv.mk
  · simp only [hw, List.tail_nil, List.not_mem_nil, false_imp_iff, implies_true]
  · simp only [hw, hr, List.head?_nil, running]
  · simp only [ha, List.not_mem_nil, false_imp_iff, implies_true]
  · simp only [hw, List.head?_nil, reduceCtorEq, false_imp_iff, implies_true]
  · simp only [hl, reduceCtorEq, false_imp_iff, implies_true]

theorem Inv.loop {t : Daemon} (h : Inv s) (hl : ∀ dump, t.loop ≠ .start dump)
    (hw : t.watchers = s.watchers)
    (hr : t.processRunning = s.processRunning) (hp : t.process = s.process)
    (ha : t.alive = s.alive) : Inv t := by
  apply Inv.mk (hw ▸ h.tail) _ _ _ (fun dump hd => absurd hd (hl dump))
  · rw [hr, hw]
    exact h.flag
  · rw [ha, hp, hw]
    exact h.alive
  · rw [hw, hp]
    exact h.waiting

theorem Inv.finished (h : Inv s) (hr : s.processRunning = false) (hw : .spawned ∉ s.watchers) :
    ∀ w ∈ s.watchers, w = .finished := by
  intro w hm
  have hf := hr.symm.trans h.flag
  cases hws : s.watchers with
  | nil =>
    rw [hws] at hm
    cases hm
  | cons newest rest =>
    rw [hws] at hm hf hw
    rcases List.mem_cons.1 hm with rfl | hm
    · cases w with
      | spawned => exact absurd List.mem_cons_self hw
      | finished => rfl
      | marked | waiting | collected => cases hf
    · exact h.tail w (by rw [hws]; exact hm)

theorem Inv.no_child (h : Inv s) (hw : ∀ w ∈ s.watchers, w = .finished) : s.alive = [] := by
  apply List.eq_nil_iff_forall_not_mem.2
  intro p hp
  have hl := (h.alive p hp).2
  cases hws : s.watchers with
  | nil =>
    rw [hws] at hl
    cases hl
  | cons newest rest =>
    rw [hws] at hl hw
    rw [hw newest List.mem_cons_self] at hl
    cases hl

theorem Inv.not_running (h : Inv s) (hw : ∀ w ∈ s.watchers, w = .finished) :
    s.processRunning = false := by
  rw [h.flag]
  cases hws : s.watchers with
  | nil => rfl
  | cons newest rest =>
    rw [hws] at hw
    rw [hw newest List.mem_cons_self]
    rfl

theorem Inv.started (h : Inv s) (hl : s.loop = .start dump) : Inv (s.start dump) := by
  have hw := h.start dump hl
  refine ⟨hw, h.not_running hw, ?_, ?_, ?_⟩
  · intro p hp
    simp only [Daemon.start, h.no_child hw, List.mem_singleton] at hp
    exact ⟨congrArg some hp.symm, rfl⟩
  · intro p hp
    cases hp
  · intro d hd
    cases hd

theorem Inv.exit (h : Inv s) (pid : Nat) : Inv { s with alive := s.alive.erase pid } :=
  ⟨h.tail, h.flag, fun p hp => h.alive p (List.mem_of_mem_erase hp), h.waiting, h.start⟩

theorem Inv.newest (h : Inv s) (hw : s.watchers[index]? = some w) (hn : w ≠ .finished) :
    ∃ rest, s.watchers = w :: rest ∧ index = 0 := by
  cases hws : s.watchers with
  | nil =>
    rw [hws] at hw
    cases hw
  | cons newest rest =>
    rw [hws] at hw
    cases index with
    | zero =>
      cases hw
      exact ⟨rest, rfl, rfl⟩
    | succ index =>
      have hm : w ∈ s.watchers.tail := by
        rw [hws]
        exact List.mem_of_getElem? hw
      exact absurd (h.tail w hm) hn

theorem Inv.not_start (h : Inv s) (hm : w ∈ s.watchers) (hn : w ≠ .finished) (dump : Sidecar.Dump) :
    s.loop ≠ .start dump :=
  fun hl => hn (h.start dump hl w hm)

theorem Inv.watcher {s t : Daemon} (h : Inv s) (hw : s.watchers = w :: rest) (hn : w ≠ .finished)
    (ht : t.watchers = w' :: rest) (hr : t.processRunning = running (some w'))
    (hp : t.process = s.process) (ha : t.alive = s.alive) (hl : t.loop = s.loop)
    (hc : ∀ p ∈ s.alive, s.process = some p → watching (some w') = true)
    (he : ∀ p, w' = .waiting p → s.process = some p) : Inv t := by
  have htail : ∀ x ∈ rest, x = .finished := fun x hx => h.tail x (by rw [hw]; exact hx)
  apply Inv.mk
  · rw [ht]
    exact htail
  · rw [ht]
    exact hr
  · intro p hm
    rw [ha] at hm
    rw [hp, ht]
    have hq := (h.alive p hm).1
    exact ⟨hq, hc p hm hq⟩
  · intro p hs
    rw [ht] at hs
    rw [hp]
    exact he p (Option.some.inj hs)
  · intro dump hd
    exact absurd (hl.symm.trans hd) (h.not_start (hw ▸ List.mem_cons_self) hn dump)

theorem Inv.step (h : Inv s) (hm : Marked s e) (hs : step s e = some t) : Inv t := by
  cases step_cases hs with
  | dumped | dumpFailed | running | signalled | signalFailed | timer | interrupted | startFailed =>
    exact h.loop (fun d hd => (nomatch hd)) rfl rfl rfl rfl
  | notRunning _ hr => exact ⟨h.tail, h.flag, h.alive, h.waiting, fun _ _ => h.finished hr hm⟩
  | started hl => exact h.started hl
  | exit => exact h.exit _
  | interrupt | advance => exact ⟨h.tail, h.flag, h.alive, h.waiting, h.start⟩
  | marked hw =>
    have hn : Watcher.spawned ≠ .finished := by decide
    obtain ⟨rest, hws, rfl⟩ := h.newest hw hn
    have ht : s.watchers.set 0 .marked = .marked :: rest := by rw [hws, List.set_cons_zero]
    exact h.watcher hws hn ht rfl rfl rfl rfl (fun _ _ _ => rfl) (fun _ hp => (nomatch hp))
  | @waiting index pid hw hp =>
    have hn : Watcher.marked ≠ .finished := by decide
    obtain ⟨rest, hws, rfl⟩ := h.newest hw hn
    have ht : s.watchers.set 0 (.waiting pid) = .waiting pid :: rest := by
      rw [hws, List.set_cons_zero]
    have hr : s.processRunning = true := by
      rw [h.flag, hws]
      rfl
    refine h.watcher hws hn ht hr rfl rfl rfl (fun _ _ _ => rfl) ?_
    intro p he
    cases he
    exact hp
  | @collected index pid hw ha =>
    have hn : Watcher.waiting pid ≠ .finished := Watcher.noConfusion
    obtain ⟨rest, hws, rfl⟩ := h.newest hw hn
    have ht : s.watchers.set 0 .collected = .collected :: rest := by rw [hws, List.set_cons_zero]
    have hr : s.processRunning = true := by
      rw [h.flag, hws]
      rfl
    refine h.watcher hws hn ht hr rfl rfl rfl ?_ (fun _ hp => (nomatch hp))
    intro p hp hq
    have he := (h.waiting _ (by rw [hws]; rfl)).symm.trans hq
    exact absurd (Option.some.inj he ▸ hp) ha
  | finished hw =>
    have hn : Watcher.collected ≠ .finished := by decide
    obtain ⟨rest, hws, rfl⟩ := h.newest hw hn
    have ht : s.watchers.set 0 .finished = .finished :: rest := by rw [hws, List.set_cons_zero]
    refine h.watcher hws hn ht rfl rfl rfl rfl ?_ (fun _ hp => (nomatch hp))
    intro p hp _
    have hf := (h.alive p hp).2
    rw [hws] at hf
    cases hf

theorem inv_marked : (system.restrict Marked).Invariant Inv :=
  System.Invariant.restrict Inv.init Inv.step

/-- As long as every goroutine sets the flag before the loop reads it, there is one child. -/
theorem singleChild_of_marked (h : (system.restrict Marked).Reachable s) : SingleChild s :=
  (inv_marked.reachable h).singleChild

def sampleDump : Sidecar.Dump :=
  ⟨Sidecar.pkFilename "/certs" 0, Sidecar.certFilename "/certs" 0, 1, none⟩

theorem step_renewal {s : Daemon} (hc : s.config = sample.config) (hl : s.loop = .dumpBundles) :
    ∃ world, Step s (.dumpBundles (.sample 0) (.ok .sample))
      { s with world := world, loop := .signalProcess sampleDump } := by
  cases s
  cases hc
  exact step_dump (.sample 0) .sample hl (List.cons_ne_nil _ _)

theorem reached (hr : system.Reachable s) (h : Step s e t) : system.Reachable t :=
  hr.step h.step

/-- The sidecar with its first child, whose goroutine has not run yet. -/
theorem reached_start :
    ∃ world, system.Reachable { sample.start sampleDump with world := world } := by
  have hi : system.init sample := ⟨rfl, rfl, rfl, rfl, rfl, rfl, rfl⟩
  obtain ⟨world, h⟩ := @step_renewal sample rfl rfl
  have hr := reached (.init hi) h
  have hr := reached hr (.notRunning rfl rfl)
  exact ⟨world, reached hr (.started rfl)⟩

theorem kept (hr : (system.restrict Marked).Reachable s) (h : Step s e t) (hm : Marked s e) :
    (system.restrict Marked).Reachable t :=
  hr.step (System.restrict_step.2 ⟨hm, h.step⟩)

theorem singleChild_after_renewal :
    ∃ s, s.loop = .signal 1 ∧ s.alive = [0] ∧ SingleChild s := by
  have hi : (system.restrict Marked).init sample := ⟨rfl, rfl, rfl, rfl, rfl, rfl, rfl⟩
  have ht : (0 : Int) + (1 : Int).tdiv 2 ≤ 0 := by decide
  obtain ⟨w₁, h₁⟩ := @step_renewal sample rfl rfl
  have hr := kept (.init hi) h₁ trivial
  have hr := kept hr (.notRunning rfl rfl) List.not_mem_nil
  have hr := kept hr (.started rfl) trivial
  have hr := kept hr (@Step.marked _ 0 rfl) trivial
  have hr := kept hr (.timer rfl ht) trivial
  obtain ⟨w₂, h₂⟩ := @step_renewal { sample.start sampleDump with
    processRunning := true
    watchers := [.marked]
    loop := .dumpBundles
    world := w₁ } rfl rfl
  have hr := kept hr h₂ trivial
  have hm : Watcher.spawned ∉ [Watcher.marked] := by decide
  have hr := kept hr (.running rfl rfl) hm
  exact ⟨_, rfl, rfl, singleChild_of_marked hr⟩

/-- A lifetime of one second leaves no wait, and the loop starts a second child before the
first goroutine has run. -/
theorem second_child :
    ¬ ∀ s, system.Reachable s → SingleChild s := by
  intro h
  have ht : (0 : Int) + (1 : Int).tdiv 2 ≤ 0 := by decide
  obtain ⟨w₁, hr⟩ := reached_start
  have hr := reached hr (.timer rfl ht)
  obtain ⟨w₂, h₂⟩ := @step_renewal { sample.start sampleDump with
    loop := .dumpBundles
    world := w₁ } rfl rfl
  have hr := reached hr h₂
  have hr := reached hr (.notRunning rfl rfl)
  have hr := reached hr (.started rfl)
  have hp := (h _ hr).2 1 List.mem_cons_self 0 (List.mem_cons_of_mem _ List.mem_cons_self)
  exact absurd hp (by decide)

end SpiffeExample.Daemon
