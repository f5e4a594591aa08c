import SpiffeExample.Transition

namespace Threads
set_option autoImplicit true
open Transition

/-- A program of which every thread runs a copy, over a state that all threads share. `exec` is
one step of the thread of that number, `world` what happens outside of them. -/
structure Program (G L A W : Type) where
  entry : A → L
  exec : Nat → G → L → Option (G × L)
  world : G → W → Option G

structure Config (G L : Type) where
  shared : G
  threads : List L
  deriving DecidableEq

inductive Event (A W : Type) where
  | spawn (a : A)
  | run (i : Nat)
  | world (w : W)
  deriving DecidableEq

def Event.isRun : Event A W → Bool
  | .run _ => true
  | _ => false

def Event.isSpawn : Event A W → Bool
  | .spawn _ => true
  | _ => false

namespace Program

variable {G L A W : Type}

def step (P : Program G L A W) (c : Config G L) : Event A W → Option (Config G L)
  | .spawn a => some { c with threads := c.threads ++ [P.entry a] }
  | .run i =>
    match c.threads[i]? with
    | none => none
    | some l => (P.exec i c.shared l).map (fun r => ⟨r.1, c.threads.set i r.2⟩)
  | .world w => (P.world c.shared w).map (fun g => { c with shared := g })

def system (P : Program G L A W) (init : G → Prop) : System (Config G L) (Event A W) where
  init c := init c.shared ∧ c.threads = []
  step := P.step

/-- One step, by what takes it. -/
inductive Step (P : Program G L A W) : Config G L → Event A W → Config G L → Prop where
  | spawn : P.Step ⟨g, ls⟩ (.spawn a) ⟨g, ls ++ [P.entry a]⟩
  | run (hi : ls[i]? = some l) (he : P.exec i g l = some (h, m)) :
      P.Step ⟨g, ls⟩ (.run i) ⟨h, ls.set i m⟩
  | world (hw : P.world g w = some h) : P.Step ⟨g, ls⟩ (.world w) ⟨h, ls⟩

theorem step_iff {P : Program G L A W} : P.step c e = some d ↔ P.Step c e d := by
  obtain ⟨g, ls⟩ := c
  apply Iff.intro
  · intro h
    cases e with
    | spawn a =>
      cases h
      exact .spawn
    | run i =>
      rw [step] at h
      cases hi : ls[i]? with
      | none =>
        rw [hi] at h
        cases h
      | some l =>
        rw [hi] at h
        obtain ⟨⟨g', m⟩, he, rfl⟩ := Option.map_eq_some_iff.1 h
        exact .run hi he
    | world w =>
      obtain ⟨g', hw, rfl⟩ := Option.map_eq_some_iff.1 h
      exact .world hw
  · intro h
    cases h with
    | spawn => rfl
    | run hi he =>
      rw [step, hi]
      exact Option.map_eq_some_iff.2 ⟨_, he, rfl⟩
    | world hw => exact Option.map_eq_some_iff.2 ⟨_, hw, rfl⟩

theorem getElem?_snoc {ls : List L} (h : (ls ++ [m])[i]? = some l) :
    ls[i]? = some l ∨ i = ls.length ∧ l = m := by
  rcases Nat.lt_or_ge i ls.length with hi | hi
  · rw [List.getElem?_append_left hi] at h
    exact .inl h
  · rw [List.getElem?_append_right hi, List.getElem?_singleton] at h
    obtain ⟨hz, hm⟩ := Option.ite_none_right_eq_some.1 h
    exact .inr ⟨Nat.le_antisymm (Nat.sub_eq_zero_iff_le.1 hz) hi, (Option.some.inj hm).symm⟩

theorem getElem?_set {ls : List L} (h : (ls.set i m)[j]? = some l) :
    i = j ∧ l = m ∨ i ≠ j ∧ ls[j]? = some l := by
  by_cases hj : i = j
  · subst hj
    rw [List.getElem?_set_self'] at h
    obtain ⟨_, _, hm⟩ := Option.map_eq_some_iff.1 h
    exact .inl ⟨rfl, hm.symm⟩
  · rw [List.getElem?_set_ne hj] at h
    exact .inr ⟨hj, h⟩

/-- What holds of the shared state beside so many threads, and of each of them whatever the
others do: the proof obligations. -/
structure Kept (P : Program G L A W) (I : Nat → G → Prop) (J : Nat → G → L → Prop) : Prop where
  spawn : I n g → I (n + 1) g
  entry : I n g → J n g (P.entry a)
  exec : I n g → i < n → J i g l → P.exec i g l = some (h, m) → I n h ∧ J i h m
  apart : I n g → J i g l → P.exec i g l = some (h, m) → i ≠ j → J j g k → J j h k
  world : I n g → P.world g w = some h → I n h
  others : I n g → P.world g w = some h → J j g k → J j h k

structure Holds (I : Nat → G → Prop) (J : Nat → G → L → Prop) (c : Config G L) : Prop where
  shared : I c.threads.length c.shared
  threads : ∀ i l, c.threads[i]? = some l → J i c.shared l

theorem Kept.step {P : Program G L A W} (hK : P.Kept I J) (h : Holds I J c)
    (hs : P.step c e = some d) : Holds I J d := by
  obtain ⟨hI, hJ⟩ := h
  cases step_iff.1 hs with
  | @spawn g ls a =>
    constructor
    · change I (ls ++ [_]).length g
      rw [List.length_append]
      exact hK.spawn hI
    · intro i l hi
      rcases getElem?_snoc hi with hi | ⟨rfl, rfl⟩
      · exact hJ i l hi
      · exact hK.entry hI
  | @run ls i l g h m hi he =>
    have hl := hJ _ _ hi
    obtain ⟨hI', hm⟩ := hK.exec hI (List.getElem?_eq_some_iff.1 hi).1 hl he
    constructor
    · change I (ls.set i m).length h
      rw [List.length_set]
      exact hI'
    · intro j k hj
      rcases getElem?_set hj with ⟨rfl, rfl⟩ | ⟨hne, hj⟩
      · exact hm
      · exact hK.apart hI hl he hne (hJ j k hj)
  | world hw => exact ⟨hK.world hI hw, fun j k hj => hK.others hI hw (hJ j k hj)⟩

theorem Kept.invariant {P : Program G L A W} (hK : P.Kept I J) (hi : ∀ {g}, init g → I 0 g) :
    (P.system init).Invariant (Holds I J) where
  init := by
    rintro ⟨g, ls⟩ ⟨hg, hl⟩
    subst hl
    exact ⟨hi hg, fun i l h => nomatch h⟩
  step := hK.step

/-- Where a thread stands vouches for what has happened in the run. -/
theorem vouched {P : Program G L A W} {J : List (Event A W) → Nat → L → Prop}
    (hm : ∀ {es e i l}, J es i l → J (es ++ [e]) i l)
    (hs : ∀ {es d a}, (P.system init).Path C c es d → C d (.spawn a) →
      J (es ++ [.spawn a]) d.threads.length (P.entry a))
    (he : ∀ {es d i l g m}, (P.system init).Path C c es d → d.threads[i]? = some l →
      J es i l → P.exec i d.shared l = some (g, m) → J (es ++ [.run i]) i m)
    (hc : ∀ i l, c.threads[i]? = some l → J [] i l) (hp : (P.system init).Path C c es d)
    (hi : d.threads[i]? = some l) : J es i l := by
  have hh : (P.system init).Path C c es d ∧ ∀ i l, d.threads[i]? = some l → J es i l := by
    apply System.Path.history _ _ hp
    · intro es d e d' h hC hst
      obtain ⟨hp, hJ⟩ := h
      refine ⟨hp.snoc hst hC, ?_⟩
      cases step_iff.1 hst with
      | spawn =>
        intro i l hi
        rcases getElem?_snoc hi with hi | ⟨rfl, rfl⟩
        · exact hm (hJ i l hi)
        · exact hs hp hC
      | run hi hx =>
        intro j k hj
        rcases getElem?_set hj with ⟨rfl, rfl⟩ | ⟨_, hj⟩
        · exact he hp hi (hJ _ _ hi) hx
        · exact hm (hJ j k hj)
      | world => exact fun i l hi => hm (hJ i l hi)
    · exact ⟨System.Path.nil, hc⟩
  exact hh.2 i l hi

/-- What all threads together may still take, beside what is left in the shared state. -/
def total (cost : L → Nat) (ls : List L) : Nat :=
  ls.foldr (fun l n => cost l + n) 0

def left (fund : G → Nat) (cost : L → Nat) (c : Config G L) : Nat :=
  fund c.shared + total cost c.threads

theorem total_cons {cost : L → Nat} : total cost (l :: ls) = cost l + total cost ls := rfl

theorem total_snoc {cost : L → Nat} {ls : List L} :
    total cost (ls ++ [l]) = total cost ls + cost l := by
  induction ls with
  | nil => exact Nat.add_comm _ _
  | cons k ks ih => rw [List.cons_append, total_cons, total_cons, ih, Nat.add_assoc]

theorem total_set {cost : L → Nat} {ls : List L} (h : ls[i]? = some l) :
    total cost (ls.set i m) + cost l = total cost ls + cost m := by
  induction ls generalizing i with
  | nil => cases h
  | cons k ks ih =>
    cases i with
    | zero =>
      cases h
      rw [List.set_cons_zero, total_cons, total_cons]
      omega
    | succ i =>
      have hk := ih h
      rw [List.set_cons_succ, total_cons, total_cons]
      omega

/-- Every step of a thread lowers what is left. -/
structure Pays (P : Program G L A W) (fund : G → Nat) (cost : L → Nat) (price : Nat) : Prop where
  entry : cost (P.entry a) ≤ price
  exec : P.exec i g l = some (h, m) → fund h + cost m + 1 ≤ fund g + cost l
  world : P.world g w = some h → fund h ≤ fund g

theorem Pays.step {P : Program G L A W} (hP : P.Pays fund cost price)
    (hs : P.step c e = some d) :
    left fund cost d + (if Event.isRun e then 1 else 0) ≤
      left fund cost c + price * if Event.isSpawn e then 1 else 0 := by
  cases step_iff.1 hs with
  | @spawn g ls a =>
    have hp := @hP.entry a
    simp only [left, total_snoc, Event.isRun, Event.isSpawn, if_true, Bool.false_eq_true, if_false]
    omega
  | @run ls i l g h m hi he =>
    have hx := hP.exec he
    have hc := @total_set _ i l m cost ls hi
    simp only [left, Event.isRun, Event.isSpawn, if_true, Bool.false_eq_true, if_false]
    omega
  | world hw =>
    have hx := hP.world hw
    simp only [left, Event.isRun, Event.isSpawn, Bool.false_eq_true, if_false]
    omega

theorem Pays.run {P : Program G L A W} (hP : P.Pays fund cost price)
    (hr : (P.system init).run c es = some d) :
    left fund cost d + es.countP Event.isRun ≤
      left fund cost c + price * es.countP Event.isSpawn := by
  apply System.Path.history _ _ (System.Path.of_run hr)
  · intro es d e d' h _ hst
    have hs := hP.step hst
    rw [List.countP_append, List.countP_append, List.countP_singleton, List.countP_singleton,
      Nat.mul_add]
    omega
  · exact Nat.le_refl _

/-- Where some thread can go on as long as one is not done, they all get done by their own
steps. -/
theorem Pays.finish {P : Program G L A W} {done : L → Prop} {I : Config G L → Prop}
    {c : Config G L} (hP : P.Pays fund cost price)
    (hI : ∀ {c e d}, I c → P.step c e = some d → I d)
    (hl : ∀ {c : Config G L} {i : Nat} {l : L}, I c → c.threads[i]? = some l → ¬ done l →
      ∃ j d, P.step c (.run j) = some d)
    (hc : I c) : ∃ es d, (P.system init).run c es = some d ∧ (∀ e ∈ es, Event.isRun e = true) ∧
      d.threads.length = c.threads.length ∧ ∀ l ∈ d.threads, done l := by
  induction hn : left fund cost c using Nat.strongRecOn generalizing c with
  | ind n ih =>
    by_cases hd : ∀ l ∈ c.threads, done l
    · exact ⟨[], c, rfl, fun _ h => absurd h List.not_mem_nil, rfl, hd⟩
    · obtain ⟨l, hm, hx⟩ : ∃ l, l ∈ c.threads ∧ ¬ done l := by
        rw [not_forall] at hd
        obtain ⟨l, hl⟩ := hd
        exact ⟨l, Classical.not_imp.1 hl⟩
      obtain ⟨i, hi⟩ := List.mem_iff_getElem?.1 hm
      obtain ⟨j, d, hs⟩ := hl hc hi hx
      have hlt := hP.step hs
      simp only [Event.isRun, Event.isSpawn, if_true, Bool.false_eq_true, if_false] at hlt
      obtain ⟨es, u, hr, he, hk, hu⟩ := ih _ (by omega) (hI hc hs) rfl
      refine ⟨.run j :: es, u, System.run_cons.2 ⟨d, hs, hr⟩, ?_, ?_, hu⟩
      · intro e hm
        rcases List.mem_cons.1 hm with rfl | hm
        · rfl
        · exact he e hm
      · rw [hk]
        cases step_iff.1 hs
        exact List.length_set

end Program
end Threads
