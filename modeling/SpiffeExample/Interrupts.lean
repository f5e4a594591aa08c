import SpiffeExample.Transition

namespace Interrupts
set_option autoImplicit true

open Transition

/-- What the next statement does with the frame it runs in. -/
inductive Outcome (F E : Type) where
  | goto (f : F)
  | ret
  | raise (e : E)

/-- A program whose statements run in frames, and whose handlers are entered between two of them.
`caught f e` is where the frame `f` goes on when `e` is raised at it or comes up to it. -/
structure Program (S F E C G X : Type) where
  exec : F → S → C → Option (S × Outcome F E)
  caught : F → E → Option F
  enter : G → S → Option (S × F)
  world : X → S → Option S

/-- The innermost frame stands first. The last frame ends by returning or by an exception. -/
structure Config (S F E : Type) where
  state : S
  stack : List F
  ended : Option E

inductive Event (C G X : Type) where
  | exec (c : C)
  | signal (g : G)
  | world (x : X)
  deriving DecidableEq

variable {S F E C G X : Type}

def Program.unwind (P : Program S F E C G X) (s : S) (e : E) : List F → Config S F E
  | [] => ⟨s, [], some e⟩
  | f :: fs =>
    match P.caught f e with
    | none => P.unwind s e fs
    | some g => ⟨s, g :: fs, none⟩

def Program.resume (P : Program S F E C G X) (f : F) (fs : List F) :
    S × Outcome F E → Config S F E
  | (s, .goto g) => ⟨s, g :: fs, none⟩
  | (s, .ret) => ⟨s, fs, none⟩
  | (s, .raise e) => P.unwind s e (f :: fs)

def Program.step (P : Program S F E C G X) (c : Config S F E) :
    Event C G X → Option (Config S F E)
  | .exec d =>
    match c.stack with
    | [] => none
    | f :: fs => (P.exec f c.state d).map (P.resume f fs)
  | .signal g =>
    match c.stack with
    | [] => none
    | f :: fs => (P.enter g c.state).map (fun r => ⟨r.1, r.2 :: f :: fs, none⟩)
  | .world x => (P.world x c.state).map (fun s => { c with state := s })

def Program.system (P : Program S F E C G X) (init : Config S F E → Prop) :
    System (Config S F E) (Event C G X) where
  init := init
  step := P.step

/-- One step, by what takes it. -/
inductive Program.Step (P : Program S F E C G X) :
    Config S F E → Event C G X → Config S F E → Prop where
  | exec : P.exec f s d = some r →
      P.Step ⟨s, f :: fs, o⟩ (.exec d) (P.resume f fs r)
  | signal : P.enter g s = some (t, h) →
      P.Step ⟨s, f :: fs, o⟩ (.signal g) ⟨t, h :: f :: fs, none⟩
  | world : P.world x s = some t → P.Step ⟨s, fs, o⟩ (.world x) ⟨t, fs, o⟩

theorem Program.step_iff {P : Program S F E C G X} : P.step c l = some d ↔ P.Step c l d := by
  apply Iff.intro
  · intro h
    obtain ⟨s, fs, o⟩ := c
    cases l with
    | exec a =>
      cases fs with
      | nil => cases h
      | cons f fs =>
        obtain ⟨r, hr, rfl⟩ := Option.map_eq_some_iff.1 h
        exact .exec hr
    | signal g =>
      cases fs with
      | nil => cases h
      | cons f fs =>
        obtain ⟨r, hr, rfl⟩ := Option.map_eq_some_iff.1 h
        exact .signal hr
    | world x =>
      obtain ⟨t, ht, rfl⟩ := Option.map_eq_some_iff.1 h
      exact .world ht
  · intro h
    cases h with
    | exec hr => exact Option.map_eq_some_iff.2 ⟨_, hr, rfl⟩
    | signal hr => exact Option.map_eq_some_iff.2 ⟨_, hr, rfl⟩
    | world ht => exact Option.map_eq_some_iff.2 ⟨_, ht, rfl⟩

/-- What holds of the frames that are left, of an exception on its way up, and of the one that
ended the program. -/
structure Assertion (S F E : Type) where
  frames : S → List F → Prop
  rising : S → E → List F → Prop
  ended : S → E → Prop

def Assertion.Holds (A : Assertion S F E) (c : Config S F E) : Prop :=
  match c.ended with
  | none => A.frames c.state c.stack
  | some e => c.stack = [] ∧ A.ended c.state e

def Assertion.Resumes (A : Assertion S F E) (f : F) (fs : List F) : S × Outcome F E → Prop
  | (s, .goto g) => A.frames s (g :: fs)
  | (s, .ret) => A.frames s fs
  | (s, .raise e) => A.rising s e (f :: fs)

/-- The proof obligations of an assertion, in runs whose steps are taken where `C` permits them. -/
structure Program.Kept (P : Program S F E C G X) (A : Assertion S F E)
    (permitted : Config S F E → Event C G X → Prop) : Prop where
  exec : ∀ {f fs s c r}, A.frames s (f :: fs) → permitted ⟨s, f :: fs, none⟩ (.exec c) →
    P.exec f s c = some r → A.Resumes f fs r
  past : ∀ {f fs s e}, A.rising s e (f :: fs) → P.caught f e = none → A.rising s e fs
  caught : ∀ {f g fs s e}, A.rising s e (f :: fs) → P.caught f e = some g →
    A.frames s (g :: fs)
  out : ∀ {s e}, A.rising s e [] → A.ended s e
  signal : ∀ {g h fs s t}, A.frames s fs → permitted ⟨s, fs, none⟩ (.signal g) →
    P.enter g s = some (t, h) → A.frames t (h :: fs)
  world : ∀ {x fs s t}, A.frames s fs → P.world x s = some t → A.frames t fs
  after : ∀ {x s t e}, A.ended s e → P.world x s = some t → A.ended t e

theorem Program.Kept.unwind {P : Program S F E C G X} (h : P.Kept A C')
    (ha : A.rising s e fs) : A.Holds (P.unwind s e fs) := by
  induction fs with
  | nil => exact ⟨rfl, h.out ha⟩
  | cons f fs ih =>
    rw [Program.unwind]
    cases hc : P.caught f e with
    | none => exact ih (h.past ha hc)
    | some g => exact h.caught ha hc

theorem Program.Kept.resume {P : Program S F E C G X} (h : P.Kept A C')
    (ha : A.Resumes f fs r) : A.Holds (P.resume f fs r) := by
  obtain ⟨s, o⟩ := r
  cases o with
  | goto g => exact ha
  | ret => exact ha
  | raise e => exact h.unwind ha

theorem Program.Kept.step {P : Program S F E C G X} (h : P.Kept A C') (ha : A.Holds c)
    (hp : C' c l) (hs : P.step c l = some d) : A.Holds d := by
  cases Program.step_iff.1 hs with
  | @exec f s a r fs o hr =>
    cases o with
    | none => exact h.resume (h.exec ha hp hr)
    | some e => cases ha.1
  | @signal g s t f' f fs o hr =>
    cases o with
    | none => exact h.signal ha hp hr
    | some e => cases ha.1
  | @world x s t fs o ht =>
    cases o with
    | none => exact h.world ha ht
    | some e => exact ⟨ha.1, h.after ha.2 ht⟩

theorem Program.Kept.path {P : Program S F E C G X} (h : P.Kept A C') (ha : A.Holds c)
    (hp : (P.system init).Path C' c ls d) : A.Holds d := by
  obtain ⟨hr, hl⟩ := hp
  induction ls generalizing c with
  | nil =>
    cases hr
    exact ha
  | cons l ls ih =>
    obtain ⟨b, hs, hr⟩ := System.run_cons.1 hr
    exact ih (h.step ha hl.1 hs) hr (hl.2 b hs)

section Sections

/-- `I` holds while every frame is plain. The one frame that is not keeps `K` instead, and `X`
holds once it has ended the program. -/
structure Section (S F E : Type) where
  plain : F → Prop
  I : S → Prop
  K : S → F → Prop
  X : S → E → Prop

def Section.Keeps (A : Section S F E) (s t : S) : Prop :=
  (A.I s → A.I t) ∧ ∀ f, A.K s f → A.K t f

def Section.Continues (A : Section S F E) (s : S) (f : F) : Prop :=
  A.plain f ∧ A.I s ∨ ¬ A.plain f ∧ A.K s f

def Section.Plainly (A : Section S F E) : Outcome F E → Prop
  | .goto g => A.plain g
  | .ret => True
  | .raise _ => False

def Program.Uncaught (P : Program S F E C G X) (f : F) : Prop :=
  ∀ e, P.caught f e = none

def Program.Leaves (P : Program S F E C G X) (A : Section S F E) (f : F) :
    S × Outcome F E → Prop
  | (t, .goto g) => A.Continues t g
  | (t, .ret) => A.I t
  | (t, .raise e) => A.X t e ∧ P.caught f e = none

/-- `ok` is which events there are at all, of the choices of a statement and of the signals. -/
structure Program.Sound (P : Program S F E C G X) (A : Section S F E)
    (ok : Event C G X → Prop) : Prop where
  plain : ∀ {f s c t o}, A.plain f → P.exec f s c = some (t, o) → A.Plainly o ∧ A.Keeps s t
  exec : ∀ {f s c r}, ¬ A.plain f → A.K s f → ok (.exec c) → P.exec f s c = some r →
    P.Leaves A f r
  signal : ∀ {g s t h}, ok (.signal g) → P.enter g s = some (t, h) →
    A.plain h ∧ A.Keeps s t ∨ ¬ A.plain h ∧ (A.I s → A.K t h)
  world : ∀ {x s t}, P.world x s = some t → A.Keeps s t ∧ ∀ e, A.X s e → A.X t e

/-- A handler that is not plain is entered over plain frames only, outside of their `try` blocks. -/
def Program.Apart (P : Program S F E C G X) (A : Section S F E) (ok : Event C G X → Prop)
    (c : Config S F E) (l : Event C G X) : Prop :=
  ok l ∧ ∀ g t h, l = .signal g → P.enter g c.state = some (t, h) → ¬ A.plain h →
    ∀ f ∈ c.stack, A.plain f ∧ P.Uncaught f

def Program.Single (P : Program S F E C G X) (A : Section S F E) (s : S) : List F → Prop
  | [] => A.I s
  | f :: fs =>
    A.plain f ∧ P.Single A s fs ∨
      ¬ A.plain f ∧ A.K s f ∧ ∀ w ∈ fs, A.plain w ∧ P.Uncaught w

theorem Program.Single.of_plain {P : Program S F E C G X} (h : A.I s)
    (hf : ∀ f ∈ fs, A.plain f) : P.Single A s fs := by
  induction fs with
  | nil => exact h
  | cons f fs ih =>
    obtain ⟨hf, hfs⟩ := List.forall_mem_cons.1 hf
    exact .inl ⟨hf, ih hfs⟩

theorem Program.Single.plain {P : Program S F E C G X} (h : P.Single A s fs)
    (hf : ∀ f ∈ fs, A.plain f) : A.I s := by
  induction fs with
  | nil => exact h
  | cons f fs ih =>
    obtain ⟨hf, hfs⟩ := List.forall_mem_cons.1 hf
    rcases h with ⟨_, h⟩ | ⟨hn, _⟩
    · exact ih h hfs
    · exact absurd hf hn

theorem Program.Single.top {P : Program S F E C G X} (h : P.Single A s (f :: fs))
    (hf : ¬ A.plain f) : A.K s f := by
  rcases h with ⟨hp, _⟩ | ⟨_, hk, _⟩
  · exact absurd hp hf
  · exact hk

theorem Program.Single.mono {P : Program S F E C G X} (hk : A.Keeps s t)
    (h : P.Single A s fs) : P.Single A t fs := by
  induction fs with
  | nil => exact hk.1 h
  | cons f fs ih =>
    rcases h with ⟨hf, h⟩ | ⟨hf, h, hw⟩
    · exact .inl ⟨hf, ih h⟩
    · exact .inr ⟨hf, hk.2 f h, hw⟩

def Program.single (P : Program S F E C G X) (A : Section S F E) : Assertion S F E where
  frames := P.Single A
  rising s e fs := A.X s e ∧ ∀ f ∈ fs, P.caught f e = none
  ended := A.X

theorem Program.Sound.resumes {P : Program S F E C G X} (h : P.Sound A ok)
    (hf : P.Single A s (f :: fs)) (hc : ok (.exec c)) (hr : P.exec f s c = some r) :
    (P.single A).Resumes f fs r := by
  obtain ⟨t, o⟩ := r
  rcases hf with ⟨hf, hs⟩ | ⟨hf, hk, hw⟩
  · obtain ⟨ho, hk⟩ := h.plain hf hr
    have ht := hs.mono hk
    cases o with
    | goto g => exact .inl ⟨ho, ht⟩
    | ret => exact ht
    | raise e => exact ho.elim
  · have hl := h.exec hf hk hc hr
    cases o with
    | goto g =>
      rcases hl with ⟨hg, hi⟩ | ⟨hg, hk⟩
      · exact .inl ⟨hg, .of_plain hi (fun w hm => (hw w hm).1)⟩
      · exact .inr ⟨hg, hk, hw⟩
    | ret => exact .of_plain hl (fun w hm => (hw w hm).1)
    | raise e =>
      obtain ⟨hx, hc⟩ := hl
      exact ⟨hx, List.forall_mem_cons.2 ⟨hc, fun w hm => (hw w hm).2 e⟩⟩

theorem Program.Sound.kept {P : Program S F E C G X} (h : P.Sound A ok) :
    P.Kept (P.single A) (P.Apart A ok) where
  exec hf hp hr := h.resumes hf hp.1 hr
  past hu _ := ⟨hu.1, (List.forall_mem_cons.1 hu.2).2⟩
  caught hu hc := absurd ((List.forall_mem_cons.1 hu.2).1.symm.trans hc) nofun
  out hu := hu.1
  signal := by
    intro g w fs s t hs hp he
    rcases h.signal hp.1 he with ⟨hw, hk⟩ | ⟨hw, hk⟩
    · exact .inl ⟨hw, hs.mono hk⟩
    · have hf := hp.2 g t w rfl he hw
      exact .inr ⟨hw, hk (hs.plain (fun f hm => (hf f hm).1)), hf⟩
  world hs hw := hs.mono (h.world hw).1
  after hx hw := (h.world hw).2 _ hx

theorem Program.Sound.path {P : Program S F E C G X} (h : P.Sound A ok)
    (hc : P.Single A s fs) (hp : (P.system init).Path (P.Apart A ok) ⟨s, fs, none⟩ ls d) :
    (P.single A).Holds d := by
  have ha : (P.single A).Holds ⟨s, fs, none⟩ := hc
  exact h.kept.path ha hp

end Sections

section Budget

def Program.charge (cost : F → Nat) (c : Config S F E) : Event C G X → Nat
  | .exec _ => (c.stack.head?.map cost).getD 0
  | _ => 0

theorem Program.charge_world : Program.charge cost c (.world x : Event C G X) = 0 :=
  rfl

/-- What the statements of a run cost, each one by the frame that it is run in. -/
def Program.spent (P : Program S F E C G X) (cost : F → Nat) (c : Config S F E) :
    List (Event C G X) → Nat
  | [] => 0
  | l :: ls => Program.charge cost c l + ((P.step c l).map (P.spent cost · ls)).getD 0

theorem Program.spent_cons {P : Program S F E C G X} (h : (P.system init).step c l = some d) :
    P.spent cost c (l :: ls) = Program.charge cost c l + P.spent cost d ls := by
  have hs : P.step c l = some d := h
  rw [Program.spent, hs]
  rfl

def Undisturbed (_ : Config S F E) : Event C G X → Prop
  | .signal _ => False
  | _ => True

/-- No handler is entered, and the frames up to depth `n` are left alone. -/
def Within (n : Nat) (c : Config S F E) : Event C G X → Prop
  | .exec _ => n < c.stack.length
  | .signal _ => False
  | .world _ => True

def Event.isExec : Event C G X → Bool
  | .exec _ => true
  | _ => false

theorem Program.spent_one {P : Program S F E C G X}
    (h : (P.system init).Path (Within n) c ls d) :
    P.spent (fun _ => 1) c ls = ls.countP Event.isExec := by
  obtain ⟨hr, ha⟩ := h
  induction ls generalizing c with
  | nil => rfl
  | cons l ls ih =>
    obtain ⟨b, hs, hr⟩ := System.run_cons.1 hr
    rw [Program.spent_cons hs, ih hr (ha.2 b hs)]
    cases Program.step_iff.1 hs with
    | exec h =>
      rw [List.countP_cons_of_pos rfl]
      exact Nat.add_comm 1 _
    | signal h => exact ha.1.elim
    | world h => exact Nat.zero_add _

instance Undisturbed.decidable : ∀ (c : Config S F E) (l : Event C G X), Decidable (Undisturbed c l)
  | _, .exec _ => .isTrue trivial
  | _, .signal _ => .isFalse id
  | _, .world _ => .isTrue trivial

instance Within.decidable :
    ∀ (c : Config S F E) (l : Event C G X), Decidable (Within n c l)
  | c, .exec _ => inferInstanceAs (Decidable (n < c.stack.length))
  | _, .signal _ => .isFalse id
  | _, .world _ => .isTrue trivial

def Program.Pays (P : Program S F E C G X) (K : S → F → Prop) (cost : F → Nat)
    (budget : S → F → Nat) (s : S) (f : F) : S × Outcome F E → Prop
  | (t, .goto g) => K t g ∧ cost f + budget t g ≤ budget s f
  | (_, .ret) => cost f ≤ budget s f
  | (_, .raise e) => P.caught f e = none ∧ cost f ≤ budget s f

structure Program.Bounded (P : Program S F E C G X) (K : S → F → Prop) (cost : F → Nat)
    (budget : S → F → Nat) : Prop where
  exec : ∀ {f s c r}, K s f → P.exec f s c = some r → P.Pays K cost budget s f r
  world : ∀ {x s t f}, K s f → P.world x s = some t → K t f ∧ budget t f ≤ budget s f

theorem Program.unwind_length {P : Program S F E C G X} :
    (P.unwind s e fs).stack.length ≤ fs.length := by
  induction fs with
  | nil => exact Nat.le_refl 0
  | cons f fs ih =>
    rw [Program.unwind]
    cases P.caught f e with
    | none => exact Nat.le_succ_of_le ih
    | some g => exact Nat.le_refl _

theorem Program.spent_left {P : Program S F E C G X} (hl : c.stack.length ≤ n)
    (h : (P.system init).Path (Within n) c ls d) :
    P.spent cost c ls = 0 ∧ d.stack.length ≤ n := by
  obtain ⟨hr, ha⟩ := h
  induction ls generalizing c with
  | nil =>
    cases hr
    exact ⟨rfl, hl⟩
  | cons l ls ih =>
    obtain ⟨b, hs, hr⟩ := System.run_cons.1 hr
    have hc := ha.1
    rw [Program.spent_cons hs]
    cases Program.step_iff.1 hs with
    | exec h => exact absurd hc (Nat.not_lt.2 hl)
    | signal h => exact hc.elim
    | @world _ _ t fs o h =>
      have hl : (Config.mk t fs o).stack.length ≤ n := hl
      obtain ⟨he, hd⟩ := ih hl hr (ha.2 _ hs)
      rw [he]
      exact ⟨rfl, hd⟩

/-- A call that is entered with a budget keeps to it until it is left. -/
theorem Program.Bounded.path {P : Program S F E C G X} (h : P.Bounded K cost budget) (hk : K s f)
    (hp : (P.system init).Path (Within fs.length) ⟨s, f :: fs, none⟩ ls d) :
    (∃ g, d.stack = g :: fs ∧ K d.state g ∧
        P.spent cost ⟨s, f :: fs, none⟩ ls + budget d.state g ≤ budget s f) ∨
      d.stack.length ≤ fs.length ∧ P.spent cost ⟨s, f :: fs, none⟩ ls ≤ budget s f := by
  obtain ⟨hr, ha⟩ := hp
  induction ls generalizing s f with
  | nil =>
    cases hr
    exact .inl ⟨f, rfl, hk, Nat.le_of_eq (Nat.zero_add _)⟩
  | cons l ls ih =>
    obtain ⟨b, hs, hr⟩ := System.run_cons.1 hr
    have hc := ha.1
    have ha := ha.2 b hs
    rw [Program.spent_cons hs]
    have left : ∀ {b}, b.stack.length ≤ fs.length → cost f ≤ budget s f →
        (P.system init).run b ls = some d → (P.system init).Along (Within fs.length) b ls →
        d.stack.length ≤ fs.length ∧ cost f + P.spent cost b ls ≤ budget s f := by
      intro b hb hf hr ha
      obtain ⟨he, hd⟩ := Program.spent_left hb ⟨hr, ha⟩
      rw [he]
      exact ⟨hd, hf⟩
    have hs : P.step ⟨s, f :: fs, none⟩ l = some b := hs
    cases Program.step_iff.1 hs with
    | @exec _ _ _ r _ _ he =>
      obtain ⟨t, o⟩ := r
      have hb := h.exec hk he
      cases o with
      | goto g =>
        rcases ih hb.1 hr ha with ⟨g', hg, hk', hl⟩ | ⟨hd, hl⟩
        · refine .inl ⟨g', hg, hk', ?_⟩
          rw [Nat.add_assoc]
          exact Nat.le_trans (Nat.add_le_add_left hl _) hb.2
        · exact .inr ⟨hd, Nat.le_trans (Nat.add_le_add_left hl _) hb.2⟩
      | ret => exact .inr (left (Nat.le_refl _) hb hr ha)
      | raise e =>
        have hu : (P.unwind t e (f :: fs)).stack.length ≤ fs.length := by
          rw [Program.unwind, hb.1]
          exact Program.unwind_length
        exact .inr (left hu hb.2 hr ha)
    | signal he => exact hc.elim
    | @world _ _ t _ _ hw =>
      obtain ⟨hk, hl⟩ := h.world hk hw
      rw [Program.charge_world, Nat.zero_add]
      rcases ih hk hr ha with ⟨g, hg, hk', hb⟩ | ⟨hd, hb⟩
      · exact .inl ⟨g, hg, hk', Nat.le_trans hb hl⟩
      · exact .inr ⟨hd, Nat.le_trans hb hl⟩

end Budget

end Interrupts
