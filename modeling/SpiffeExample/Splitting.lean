import Mathlib.Order.Basic

namespace Splitting
set_option autoImplicit true

variable {α : Type u} [DecidableEq α] {sep : α}

theorem not_mem_of_mem_splitOn {text : List α} (h : w ∈ text.splitOn sep) : sep ∉ w := by
  induction text generalizing w with
  | nil =>
    cases List.mem_singleton.1 h
    exact List.not_mem_nil
  | cons a text ih =>
    rw [List.splitOn_cons_eq_if_modifyHead] at h
    by_cases ha : a = sep
    · rw [if_pos (beq_iff_eq.2 ha)] at h
      rcases List.mem_cons.1 h with rfl | h
      · exact List.not_mem_nil
      · exact ih h
    · rw [if_neg (fun hb => ha (beq_iff_eq.1 hb))] at h
      cases hs : text.splitOn sep with
      | nil => exact absurd hs (List.splitOn_ne_nil sep text)
      | cons v vs =>
        rw [hs] at h ih
        rcases List.mem_cons.1 h with rfl | h
        · intro hm
          rcases List.mem_cons.1 hm with rfl | hm
          · exact ha rfl
          · exact ih List.mem_cons_self hm
        · exact ih (List.mem_cons_of_mem v h)

/-- Words joined by the separator come back from a split exactly when there is a word and the
separator is in none of them. -/
theorem splitOn_intercalate_iff {ws : List (List α)} :
    ([sep].intercalate ws).splitOn sep = ws ↔ ws ≠ [] ∧ ∀ w ∈ ws, sep ∉ w := by
  apply Iff.intro
  · intro h
    apply And.intro
    · intro hn
      exact List.splitOn_ne_nil sep _ (h.trans hn)
    · intro w hw
      rw [← h] at hw
      exact not_mem_of_mem_splitOn hw
  · intro h
    exact List.splitOn_intercalate sep h.2 h.1

end Splitting
