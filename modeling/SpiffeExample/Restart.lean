import SpiffeExample.SingleChild

namespace SpiffeExample.Daemon
set_option autoImplicit true
open Transition

/-- Some goroutine is past its first assignment and not yet past its last. -/
def Watched (s : Daemon) : Prop := ∃ w ∈ s.watchers, running (some w) = true

def Unwatched (s : Daemon) : Prop := ∀ w ∈ s.watchers, w = .finished

theorem watched_set {s t : Daemon} (hw : s.watchers[index]? = some w)
    (ht : t.watchers = s.watchers.set index w') (hr : running (some w') = true) : Watched t := by
  obtain ⟨hlt, _⟩ := List.getElem?_eq_some_iff.1 hw
  have hm : w' ∈ t.watchers := ht ▸ List.mem_set hlt w'
  exact ⟨w', hm, hr⟩

theorem Watched.step (h : s.processRunning = true → Watched s) (hs : step s e = some t) :
    t.processRunning = true → Watched t := by
  cases step_cases hs with
  | dumped | dumpFailed | notRunning | running | startFailed | signalled | signalFailed | timer
  | interrupted | exit | interrupt | advance => exact h
  | started =>
    intro hr
    obtain ⟨w, hm, hw⟩ := h hr
    exact ⟨w, List.mem_cons_of_mem _ hm, hw⟩
  | marked hw => exact fun _ => watched_set hw rfl rfl
  | waiting hw => exact fun _ => watched_set hw rfl rfl
  | collected hw => exact fun _ => watched_set hw rfl rfl
  | finished =>
    intro hr
    cases hr

theorem Unwatched.not_running (h : Unwatched s) (hw : s.processRunning = true → Watched s) :
    s.processRunning = false := by
  apply Bool.eq_false_iff.2
  intro hr
  obtain ⟨w, hm, hw⟩ := hw hr
  cases h w hm
  cases hw

theorem Unwatched.step (h : Unwatched s) (hn : ∀ err, e ≠ .start err) (hs : step s e = some t) :
    Unwatched t := by
  have hno {index : Nat} {w : Watcher} (hw : s.watchers[index]? = some w) : w = .finished :=
    h w (List.mem_of_getElem? hw)
  cases step_cases hs with
  | dumped | dumpFailed | notRunning | running | signalled | signalFailed | timer | interrupted
  | exit | interrupt | advance => exact h
  | startFailed | started => exact absurd rfl (hn _)
  | marked hw | waiting hw | collected hw | finished hw => cases hno hw

theorem Unwatched.run (h : Unwatched s) (hn : ∀ err, .start err ∉ es)
    (hr : system.run s es = some t) : Unwatched t := by
  induction es generalizing s with
  | nil =>
    cases hr
    exact h
  | cons e es ih =>
    obtain ⟨u, hs, hr⟩ := System.run_cons.1 hr
    have hu : Unwatched u := h.step (fun err he => hn err (he ▸ List.mem_cons_self)) hs
    exact ih hu (fun err hm => hn err (List.mem_cons_of_mem e hm)) hr

/-- The processes that there are and were are those that have been started. -/
structure Numbered (s : Daemon) : Prop where
  process : ∀ p, s.process = some p → p < s.started.length
  alive : ∀ p ∈ s.alive, p < s.started.length
  waiting : ∀ p, .waiting p ∈ s.watchers → p < s.started.length
  collected : ∀ p ∈ s.collected, p < s.started.length

theorem Numbered.set {s : Daemon} (h : Numbered s)
    (hw : ∀ p, w = .waiting p → p < s.started.length) :
    ∀ p, .waiting p ∈ s.watchers.set index w → p < s.started.length := by
  intro p hm
  rcases List.mem_or_eq_of_mem_set hm with hm | he
  · exact h.waiting p hm
  · exact hw p he.symm

theorem Numbered.started {s : Daemon} (h : Numbered s) (dump : Sidecar.Dump) :
    Numbered (s.start dump) := by
  have hl : (s.start dump).started.length = s.started.length + 1 := by
    rw [start, List.length_append, List.length_singleton]
  constructor
  · intro p hp
    cases hp
    rw [hl]
    exact Nat.lt_succ_self _
  · intro p hp
    rw [hl]
    rcases List.mem_cons.1 hp with rfl | hp
    · exact Nat.lt_succ_self _
    · exact Nat.lt_succ_of_lt (h.alive p hp)
  · intro p hp
    rw [hl]
    rcases List.mem_cons.1 hp with he | hp
    · cases he
    · exact Nat.lt_succ_of_lt (h.waiting p hp)
  · intro p hp
    rw [hl]
    exact Nat.lt_succ_of_lt (h.collected p hp)

theorem Numbered.step (h : Numbered s) (hs : step s e = some t) : Numbered t := by
  cases step_cases hs with
  | dumped | dumpFailed | notRunning | running | startFailed | signalled | signalFailed | timer
  | interrupted | interrupt | advance => exact ⟨h.process, h.alive, h.waiting, h.collected⟩
  | started => exact h.started _
  | marked | finished =>
    exact ⟨h.process, h.alive, h.set fun _ => Watcher.noConfusion, h.collected⟩
  | waiting _ hp =>
    refine ⟨h.process, h.alive, h.set fun q he => ?_, h.collected⟩
    cases he
    exact h.process _ hp
  | collected hw =>
    refine ⟨h.process, h.alive, h.set fun _ => Watcher.noConfusion, fun p hm => ?_⟩
    rcases List.mem_cons.1 hm with rfl | hm
    · exact h.waiting p (List.mem_of_getElem? hw)
    · exact h.collected p hm
  | exit =>
    exact ⟨h.process, fun p hm => h.alive p (List.mem_of_mem_erase hm), h.waiting, h.collected⟩

end SpiffeExample.Daemon
