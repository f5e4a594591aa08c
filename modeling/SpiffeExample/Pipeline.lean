import Mathlib.Data.List.Basic

namespace Pipeline
set_option autoImplicit true

/-- A mapped and filtered pipeline asked for its first element: it maps no element past it. -/
def findFirst (f : α → Except ε β) (p : β → Bool) : List α → Except ε (Option β)
  | [] => .ok none
  | x :: xs =>
    match f x with
    | .error e => .error e
    | .ok y => if p y then .ok (some y) else findFirst f p xs

/-- A mapped and filtered pipeline collected into a list: it maps every element. -/
def collect (f : α → Except ε β) (p : β → Bool) : List α → Except ε (List β)
  | [] => .ok []
  | x :: xs =>
    match f x with
    | .error e => .error e
    | .ok y =>
      match collect f p xs with
      | .error e => .error e
      | .ok ys => .ok (if p y then y :: ys else ys)

def Dropped (f : α → Except ε β) (p : β → Bool) (x : α) : Prop := ∃ y, f x = .ok y ∧ p y = false

theorem findFirst_cons_ok {f : α → Except ε β} {p : β → Bool} (h : f x = .ok y) :
    findFirst f p (x :: xs) = if p y then .ok (some y) else findFirst f p xs := by
  simp only [findFirst, h]

theorem findFirst_append {f : α → Except ε β} {p : β → Bool} (h : ∀ z ∈ pre, Dropped f p z) :
    findFirst f p (pre ++ xs) = findFirst f p xs := by
  induction pre with
  | nil => rfl
  | cons z pre ih =>
    obtain ⟨y, hy, hp⟩ := h z List.mem_cons_self
    rw [List.cons_append, findFirst_cons_ok hy, hp]
    exact ih (fun w hw => h w (List.mem_cons_of_mem z hw))

theorem findFirst_eq_some {f : α → Except ε β} {p : β → Bool} :
    findFirst f p xs = .ok (some y) ↔
      ∃ pre x post, xs = pre ++ x :: post ∧ (∀ z ∈ pre, Dropped f p z) ∧
        f x = .ok y ∧ p y = true := by
  apply Iff.intro
  · intro h
    induction xs with
    | nil => cases h
    | cons x xs ih =>
      cases hx : f x with
      | error e =>
        simp only [findFirst, hx] at h
        cases h
      | ok w =>
        rw [findFirst_cons_ok hx] at h
        cases hp : p w with
        | true =>
          rw [hp] at h
          cases h
          exact ⟨[], x, xs, rfl, fun z hz => absurd hz List.not_mem_nil, hx, hp⟩
        | false =>
          rw [hp] at h
          obtain ⟨pre, z, post, he, hd, hz, hy⟩ := ih h
          have hd' : ∀ v ∈ x :: pre, Dropped f p v := by
            intro v hv
            rcases List.mem_cons.1 hv with rfl | hv
            · exact ⟨w, hx, hp⟩
            · exact hd v hv
          exact ⟨x :: pre, z, post, by rw [he, List.cons_append], hd', hz, hy⟩
  · intro h
    obtain ⟨pre, x, post, rfl, hd, hx, hy⟩ := h
    rw [findFirst_append hd, findFirst_cons_ok hx, if_pos hy]

/-- Where collecting succeeds, asking for the first element returns the head of the list. -/
theorem collect_findFirst {f : α → Except ε β} {p : β → Bool} (h : collect f p xs = .ok ys) :
    findFirst f p xs = .ok ys.head? := by
  induction xs generalizing ys with
  | nil =>
    cases h
    rfl
  | cons x xs ih =>
    cases hx : f x with
    | error e =>
      simp only [collect, hx] at h
      cases h
    | ok w =>
      cases hc : collect f p xs with
      | error e =>
        simp only [collect, hx, hc] at h
        cases h
      | ok zs =>
        simp only [collect, hx, hc] at h
        rw [findFirst_cons_ok hx]
        cases hp : p w with
        | true =>
          rw [hp] at h
          cases h
          rfl
        | false =>
          rw [hp] at h
          cases h
          exact ih hc

theorem collect_error {f : α → Except ε β} {p : β → Bool} (h : collect f p xs = .error e) :
    ∃ x ∈ xs, f x = .error e := by
  induction xs with
  | nil => cases h
  | cons x xs ih =>
    cases hx : f x with
    | error e' =>
      simp only [collect, hx, Except.error.injEq] at h
      subst h
      exact ⟨x, List.mem_cons_self, hx⟩
    | ok w =>
      cases hc : collect f p xs with
      | error e' =>
        simp only [collect, hx, hc, Except.error.injEq] at h
        subst h
        obtain ⟨z, hz, he⟩ := ih hc
        exact ⟨z, List.mem_cons_of_mem x hz, he⟩
      | ok zs =>
        simp only [collect, hx, hc] at h
        cases h

theorem findFirst_eq_none {f : α → Except ε β} {p : β → Bool} (h : findFirst f p xs = .ok none) :
    ∀ x ∈ xs, Dropped f p x := by
  induction xs with
  | nil => exact fun x hx => absurd hx List.not_mem_nil
  | cons x xs ih =>
    cases hx : f x with
    | error e =>
      simp only [findFirst, hx] at h
      cases h
    | ok y =>
      rw [findFirst_cons_ok hx] at h
      cases hp : p y with
      | true =>
        rw [hp] at h
        cases h
      | false =>
        rw [hp] at h
        exact List.forall_mem_cons.2 ⟨⟨y, hx, hp⟩, ih h⟩

theorem collect_cons_ok {f : α → Except ε β} {p : β → Bool} (h : f x = .ok y) :
    collect f p (x :: xs) = (collect f p xs).map fun ys => if p y then y :: ys else ys := by
  simp only [collect, h]
  cases collect f p xs <;> rfl

theorem collect_append {f : α → Except ε β} {p : β → Bool} (h : ∀ z ∈ pre, Dropped f p z) :
    collect f p (pre ++ xs) = collect f p xs := by
  induction pre with
  | nil => rfl
  | cons z pre ih =>
    obtain ⟨y, hy, hp⟩ := h z List.mem_cons_self
    rw [List.cons_append, collect_cons_ok hy, hp,
      ih (fun w hw => h w (List.mem_cons_of_mem z hw))]
    cases collect f p xs <;> rfl

theorem collect_ok {f : α → Except ε β} {p : β → Bool} (h : collect f p xs = .ok ys)
    (hx : x ∈ xs) : ∃ y, f x = .ok y ∧ (p y = true → y ∈ ys) := by
  induction xs generalizing ys with
  | nil => cases hx
  | cons z xs ih =>
    cases hz : f z with
    | error e =>
      simp only [collect, hz] at h
      cases h
    | ok w =>
      rw [collect_cons_ok hz] at h
      cases hc : collect f p xs with
      | error e =>
        rw [hc] at h
        cases h
      | ok ws =>
        simp only [hc, Except.map, Except.ok.injEq] at h
        subst h
        rcases List.mem_cons.1 hx with rfl | hx
        · refine ⟨w, hz, fun hp => ?_⟩
          rw [if_pos hp]
          exact List.mem_cons_self
        · obtain ⟨y, hy, hm⟩ := ih hc hx
          refine ⟨y, hy, fun hp => ?_⟩
          split
          · exact List.mem_cons_of_mem w (hm hp)
          · exact hm hp

theorem collect_eq_nil {f : α → Except ε β} {p : β → Bool} :
    collect f p xs = .ok [] ↔ ∀ x ∈ xs, Dropped f p x := by
  apply Iff.intro
  · intro h x hx
    obtain ⟨y, hy, hm⟩ := collect_ok h hx
    cases hp : p y with
    | true => cases hm hp
    | false => exact ⟨y, hy, hp⟩
  · intro h
    have hc := @collect_append _ _ _ _ [] f p h
    rw [List.append_nil] at hc
    exact hc

end Pipeline
