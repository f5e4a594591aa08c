import Mathlib.Order.Basic

namespace Transition
set_option autoImplicit true

/-- A system whose nondeterminism is entirely in the labels of its steps. -/
structure System (S : Type u) (L : Type v) where
  init : S → Prop
  step : S → L → Option S

def System.run (T : System S L) (s : S) : List L → Option S
  | [] => some s
  | l :: ls => (T.step s l).bind (fun t => T.run t ls)

inductive System.Reachable (T : System S L) : S → Prop where
  | init : T.init s → T.Reachable s
  | step : T.Reachable s → T.step s l = some t → T.Reachable t

theorem System.run_cons {T : System S L} :
    T.run s (l :: ls) = some u ↔ ∃ t, T.step s l = some t ∧ T.run t ls = some u := by
  simp only [System.run, Option.bind_eq_some_iff]

theorem System.Reachable.run {T : System S L} (h : T.Reachable s) (hr : T.run s ls = some t) :
    T.Reachable t := by
  induction ls generalizing s with
  | nil =>
    cases hr
    exact h
  | cons l ls ih =>
    obtain ⟨u, hs, hr⟩ := System.run_cons.1 hr
    exact ih (h.step hs) hr

theorem System.Reachable.of_run {T : System S L} (h : T.init s) (hr : T.run s ls = some t) :
    T.Reachable t :=
  (System.Reachable.init h).run hr

theorem System.run_preserves {T : System S L} {I : S → Prop}
    (h : ∀ {s l t}, I s → T.step s l = some t → I t) (hi : I s) (hr : T.run s ls = some t) :
    I t := by
  induction ls generalizing s with
  | nil =>
    cases hr
    exact hi
  | cons l ls ih =>
    obtain ⟨u, hs, hr⟩ := System.run_cons.1 hr
    exact ih (h hi hs) hr

/-- What no step lowers is the same after a run exactly when it is the same after every step. -/
theorem System.run_eq_iff [PartialOrder β] {T : System S L} {f : S → β} {C : L → Prop}
    (h : ∀ {s l t}, T.step s l = some t → f s ≤ f t ∧ (f t = f s ↔ C l))
    (hr : T.run s ls = some t) : f s ≤ f t ∧ (f t = f s ↔ ∀ l ∈ ls, C l) := by
  induction ls generalizing s with
  | nil =>
    cases hr
    exact ⟨le_rfl, fun _ _ hm => absurd hm List.not_mem_nil, fun _ => rfl⟩
  | cons l ls ih =>
    obtain ⟨u, hs, hr⟩ := System.run_cons.1 hr
    obtain ⟨hsu, hl⟩ := h hs
    obtain ⟨hut, hls⟩ := ih hr
    refine ⟨hsu.trans hut, ?_⟩
    rw [List.forall_mem_cons, ← hl, ← hls]
    apply Iff.intro
    · intro he
      have hu : f u = f s := le_antisymm (he ▸ hut) hsu
      exact ⟨hu, he.trans hu.symm⟩
    · intro he
      exact he.2.trans he.1

structure System.Invariant (T : System S L) (I : S → Prop) : Prop where
  init : ∀ {s}, T.init s → I s
  step : ∀ {s l t}, I s → T.step s l = some t → I t

theorem System.Invariant.reachable {T : System S L} (h : T.Invariant I) (hr : T.Reachable s) :
    I s := by
  induction hr with
  | init hs => exact h.init hs
  | step _ hs ih => exact h.step ih hs

/-- The steps of a system that are taken where their label is permitted. -/
def System.restrict (T : System S L) (C : S → L → Prop) [∀ s l, Decidable (C s l)] :
    System S L where
  init := T.init
  step s l := if C s l then T.step s l else none

theorem System.restrict_step {T : System S L} {C : S → L → Prop} [∀ s l, Decidable (C s l)] :
    (T.restrict C).step s l = some t ↔ C s l ∧ T.step s l = some t := by
  simp only [System.restrict, Option.ite_none_right_eq_some]

theorem System.Invariant.restrict {T : System S L} {C : S → L → Prop} [∀ s l, Decidable (C s l)]
    (hi : ∀ {s}, T.init s → I s) (hs : ∀ {s l t}, I s → C s l → T.step s l = some t → I t) :
    (T.restrict C).Invariant I where
  init := hi
  step := by
    intro s l t h ht
    obtain ⟨hc, ht⟩ := System.restrict_step.1 ht
    exact hs h hc ht

/-- Every step of a run is taken where its label is permitted. -/
def System.Along (T : System S L) (C : S → L → Prop) (s : S) : List L → Prop
  | [] => True
  | l :: ls => C s l ∧ ∀ t, T.step s l = some t → T.Along C t ls

instance System.Along.decidable (T : System S L) (C : S → L → Prop) [∀ s l, Decidable (C s l)] :
    ∀ s ls, Decidable (T.Along C s ls)
  | _, [] => .isTrue trivial
  | s, l :: ls =>
    match h : T.step s l with
    | none =>
      decidable_of_iff (C s l) ⟨fun hc => ⟨hc, fun _ ht => nomatch h.symm.trans ht⟩, And.left⟩
    | some t =>
      have := System.Along.decidable T C t ls
      decidable_of_iff (C s l ∧ T.Along C t ls)
        ⟨fun hc => ⟨hc.1, fun _ ht => Option.some.inj (h.symm.trans ht) ▸ hc.2⟩,
          fun hc => ⟨hc.1, hc.2 t h⟩⟩

theorem System.Along.cons {T : System S L} (hs : T.step s l = some t) (hc : C s l)
    (h : T.Along C t ls) : T.Along C s (l :: ls) := by
  apply And.intro hc
  intro u hu
  cases hs.symm.trans hu
  exact h

theorem System.Along.and {T : System S L} (hC : T.Along C s ls) (hD : T.Along D s ls) :
    T.Along (fun s l => C s l ∧ D s l) s ls := by
  induction ls generalizing s with
  | nil => trivial
  | cons l ls ih => exact ⟨⟨hC.1, hD.1⟩, fun t ht => ih (hC.2 t ht) (hD.2 t ht)⟩

theorem System.Along.mono {T : System S L} {I : S → Prop}
    (hI : ∀ {s l t}, I s → C s l → T.step s l = some t → I t)
    (hD : ∀ {s l}, I s → C s l → D s l) (hi : I s) (h : T.Along C s ls) : T.Along D s ls := by
  induction ls generalizing s with
  | nil => trivial
  | cons l ls ih => exact ⟨hD hi h.1, fun t ht => ih (hI hi h.1 ht) (h.2 t ht)⟩

theorem System.Along.of_mem {T : System S L} (hD : ∀ {s l}, l ∈ ls → C s l → D s l)
    (h : T.Along C s ls) : T.Along D s ls := by
  induction ls generalizing s with
  | nil => trivial
  | cons l ls ih =>
    exact ⟨hD List.mem_cons_self h.1, fun t ht => ih (fun hm => hD (List.mem_cons_of_mem l hm))
      (h.2 t ht)⟩

theorem System.restrict_run {T : System S L} {C : S → L → Prop} [∀ s l, Decidable (C s l)] :
    (T.restrict C).run s ls = some t ↔ T.run s ls = some t ∧ T.Along C s ls := by
  induction ls generalizing s with
  | nil => exact ⟨fun h => ⟨h, trivial⟩, And.left⟩
  | cons l ls ih =>
    rw [System.run_cons, System.run_cons]
    apply Iff.intro
    · intro h
      obtain ⟨u, hs, hr⟩ := h
      obtain ⟨hc, hs⟩ := System.restrict_step.1 hs
      obtain ⟨hr, ha⟩ := ih.1 hr
      have hv : ∀ v, T.step s l = some v → T.Along C v ls := by
        intro v hv
        cases hs.symm.trans hv
        exact ha
      exact ⟨⟨u, hs, hr⟩, hc, hv⟩
    · intro h
      obtain ⟨⟨u, hs, hr⟩, hc, ha⟩ := h
      exact ⟨u, System.restrict_step.2 ⟨hc, hs⟩, ih.2 ⟨hr, ha u hs⟩⟩

/-- A run whose steps are all taken where their label is permitted. -/
structure System.Path (T : System S L) (C : S → L → Prop) (s : S) (ls : List L) (t : S) :
    Prop where
  run : T.run s ls = some t
  along : T.Along C s ls

theorem System.Path.of_run {T : System S L} (h : T.run s ls = some t) :
    T.Path (fun _ _ => True) s ls t := by
  refine ⟨h, ?_⟩
  clear h
  induction ls generalizing s with
  | nil => trivial
  | cons l ls ih => exact ⟨trivial, fun _ _ => ih⟩

theorem System.Path.nil {T : System S L} : T.Path C s [] s :=
  ⟨rfl, trivial⟩

theorem System.Path.cons {T : System S L} (hs : T.step s l = some t) (hc : C s l)
    (h : T.Path C t ls u) : T.Path C s (l :: ls) u :=
  ⟨System.run_cons.2 ⟨t, hs, h.run⟩, h.along.cons hs hc⟩

theorem System.Path.snoc {T : System S L} (h : T.Path C s ls t) (hs : T.step t l = some u)
    (hc : C t l) : T.Path C s (ls ++ [l]) u := by
  induction ls generalizing s with
  | nil =>
    cases h.run
    exact System.Path.nil.cons hs hc
  | cons k ls ih =>
    obtain ⟨v, hk, hr⟩ := System.run_cons.1 h.run
    exact (ih ⟨hr, h.along.2 v hk⟩).cons hk h.along.1

/-- An invariant that sees the run so far. -/
theorem System.Path.history {T : System S L} {H : List L → S → Prop}
    (hH : ∀ {ls s l t}, H ls s → C s l → T.step s l = some t → H (ls ++ [l]) t) (hi : H [] s)
    (hp : T.Path C s ls t) : H ls t := by
  have hk : ∀ ks s, H ks s → T.Path C s ls t → H (ks ++ ls) t := by
    clear hi hp
    induction ls with
    | nil =>
      intro ks s hi hp
      cases hp.run
      rw [List.append_nil]
      exact hi
    | cons l ls ih =>
      intro ks s hi hp
      obtain ⟨u, hs, hr⟩ := System.run_cons.1 hp.run
      have hu := ih (ks ++ [l]) u (hH hi hp.along.1 hs) ⟨hr, hp.along.2 u hs⟩
      rw [List.append_assoc] at hu
      exact hu
  exact hk [] s hi hp

theorem System.Path.mono {T : System S L} {I : S → Prop}
    (hI : ∀ {s l t}, I s → C s l → T.step s l = some t → I t)
    (hD : ∀ {s l t}, I s → C s l → T.step s l = some t → D s l) (hi : I s)
    (h : T.Path C s ls t) : T.Path D s ls t := by
  induction ls generalizing s with
  | nil =>
    cases h.run
    exact System.Path.nil
  | cons l ls ih =>
    obtain ⟨u, hs, hr⟩ := System.run_cons.1 h.run
    obtain ⟨hl, ha⟩ := h.along
    exact (ih (hI hi hl hs) ⟨hr, ha u hs⟩).cons hs (hD hi hl hs)

/-- Some moment of the run, its last one included. -/
def System.Once (T : System S L) (s : S) (ls : List L) (P : S → Prop) : Prop :=
  ∃ before after t, ls = before ++ after ∧ T.run s before = some t ∧ P t

theorem System.Once.here {T : System S L} (hr : T.run s ls = some t) (hP : P t) :
    T.Once s ls P :=
  ⟨ls, [], t, (List.append_nil ls).symm, hr, hP⟩

theorem System.Once.later {T : System S L} (h : T.Once s ls P) (ks : List L) :
    T.Once s (ls ++ ks) P := by
  obtain ⟨before, after, t, rfl, hr, hP⟩ := h
  exact ⟨before, after ++ ks, t, List.append_assoc before after ks, hr, hP⟩

theorem System.Once.imp {T : System S L} (hPQ : ∀ t, P t → Q t) (h : T.Once s ls P) :
    T.Once s ls Q := by
  obtain ⟨before, after, t, he, hr, hP⟩ := h
  exact ⟨before, after, t, he, hr, hPQ t hP⟩

/-- Two systems side by side, each of whose steps may look at the state of the other. -/
def System.pair (T : P → S → System S L) (p q : P) : System (S × S) (L ⊕ L) where
  init s := (T p s.2).init s.1 ∧ (T q s.1).init s.2
  step s
    | .inl l => ((T p s.2).step s.1 l).map fun t => (t, s.2)
    | .inr l => ((T q s.1).step s.2 l).map fun t => (s.1, t)

/-- What holds of each of the two as long as it keeps it, and as long as the other one does. -/
theorem System.pair_invariant {T : P → S → System S L} {I : P → S → S → Prop}
    (hi : ∀ {p s o}, (T p o).init s → I p s o)
    (hown : ∀ {p q s o l t}, I p s o → I q o s → (T p o).step s l = some t → I p t o)
    (hpeer : ∀ {p q s o l u}, I p s o → I q o s → (T q s).step o l = some u → I p s u) :
    (System.pair T p q).Invariant fun s => I p s.1 s.2 ∧ I q s.2 s.1 where
  init h := ⟨hi h.1, hi h.2⟩
  step := by
    intro s l t h hs
    cases l with
    | inl l =>
      obtain ⟨u, hu, rfl⟩ := Option.map_eq_some_iff.1 hs
      exact ⟨hown h.1 h.2 hu, hpeer h.2 h.1 hu⟩
    | inr l =>
      obtain ⟨u, hu, rfl⟩ := Option.map_eq_some_iff.1 hs
      exact ⟨hpeer h.1 h.2 hu, hown h.2 h.1 hu⟩

end Transition
