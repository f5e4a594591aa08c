import Mathlib.Logic.Function.Basic

namespace Replay
set_option autoImplicit true

variable {K V : Type} [DecidableEq K]

/-- The store after the writes of a log, oldest first. -/
def replay (log : List (K × V)) (store : K → Option V) : K → Option V :=
  match log with
  | [] => store
  | (k, v) :: log => replay log (Function.update store k (some v))

theorem replay_append {store : K → Option V} :
    replay (log ++ log') store = replay log' (replay log store) := by
  induction log generalizing store with
  | nil => rfl
  | cons p log ih => exact ih

theorem replay_unwritten {store : K → Option V} (h : ∀ v, (k, v) ∉ log) :
    replay log store k = store k := by
  induction log generalizing store with
  | nil => rfl
  | cons p log ih =>
    obtain ⟨k', v'⟩ := p
    have hne : k ≠ k' := by
      intro he
      subst he
      exact h v' List.mem_cons_self
    rw [replay, ih (fun v hm => h v (List.mem_cons_of_mem _ hm)), Function.update_of_ne hne]

/-- A key that is only written with one value has it afterwards. -/
theorem replay_written {store : K → Option V} (hm : (k, v) ∈ log)
    (hu : ∀ v', (k, v') ∈ log → v' = v) : replay log store k = some v := by
  induction log generalizing store with
  | nil => cases hm
  | cons p log ih =>
    have hu' : ∀ v', (k, v') ∈ log → v' = v := fun v' hm => hu v' (List.mem_cons_of_mem _ hm)
    by_cases hlog : (k, v) ∈ log
    · exact ih hlog hu'
    · have hno : ∀ v', (k, v') ∉ log := by
        intro v' hm'
        cases hu' v' hm'
        exact hlog hm'
      rcases List.mem_cons.1 hm with rfl | hm
      · rw [replay, replay_unwritten hno, Function.update_self]
      · exact absurd hm hlog

end Replay
