import SpiffeExample.RestarterLaws

namespace HotRestarter
set_option autoImplicit true

open Interrupts Transition

variable {s t : State}

/-- The pids a call has still to look at. -/
def Frame.named : Frame → List Nat
  | .append _ pid | .appending _ _ pid => [pid]
  | .chosen _ _ _ pid | .trying _ _ _ pid => [pid]
  | .check _ pids | .remove _ _ _ pids | .removing _ _ _ _ pids => pids
  | _ => []

/-- The pid of a fork that is in no list yet. -/
def Frame.inHand : Frame → List Nat
  | .append _ pid | .appending _ _ pid => [pid]
  | _ => []

/-- Any number of calls are suspended, at any places. -/
structure Owns (s : State) (fs : List Frame) : Prop where
  nodup : ∀ list, (s.lists list).Nodup
  forked : ∀ list, ∀ pid ∈ s.lists list, pid < s.children.length
  killed : ∀ k ∈ s.kills, k.1 < s.children.length
  named : ∀ f ∈ fs, ∀ pid ∈ f.named, pid < s.children.length
  once : (fs.flatMap Frame.inHand).Nodup
  fresh : ∀ pid ∈ fs.flatMap Frame.inHand, ∀ list, pid ∉ s.lists list

theorem Frame.inHand_subset {f : Frame} : f.inHand ⊆ f.named := by
  cases f with
  | append c pid => exact List.Subset.refl _
  | appending c list pid => exact List.Subset.refl _
  | _ => exact List.nil_subset _

theorem Owns.drop (h : Owns s (f :: fs)) : Owns s fs where
  nodup := h.nodup
  forked := h.forked
  killed := h.killed
  named := (List.forall_mem_cons.1 h.named).2
  once := by
    have ho := h.once
    rw [List.flatMap_cons] at ho
    exact (List.nodup_append.1 ho).2.1
  fresh pid hp := by
    apply h.fresh pid
    rw [List.flatMap_cons]
    exact List.mem_append_right _ hp

/-- The innermost call goes on, with the list objects as they were. -/
theorem Owns.goto (h : Owns s (f :: fs)) (hl : t.lists = s.lists)
    (hc : t.children.length = s.children.length) (hk : ∀ k ∈ t.kills, k.1 < s.children.length)
    (hn : ∀ pid ∈ g.named, pid < s.children.length) (hh : g.inHand = f.inHand) :
    Owns t (g :: fs) where
  nodup := by
    rw [hl]
    exact h.nodup
  forked := by
    rw [hl, hc]
    exact h.forked
  killed := by
    rw [hc]
    exact hk
  named := by
    rw [hc]
    exact List.forall_mem_cons.2 ⟨hn, (List.forall_mem_cons.1 h.named).2⟩
  once := by
    rw [List.flatMap_cons, hh, ← List.flatMap_cons]
    exact h.once
  fresh := by
    rw [List.flatMap_cons, hh, ← List.flatMap_cons, hl]
    exact h.fresh

theorem Owns.same (h : Owns s (f :: fs)) (hn : g.named ⊆ f.named) (hh : g.inHand = f.inHand) :
    Owns s (g :: fs) :=
  h.goto rfl rfl h.killed (fun pid hp => h.named f List.mem_cons_self pid (hn hp)) hh

/-- A list object is changed, and the pid in hand is in it from then on. -/
theorem Owns.setList (h : Owns s (f :: fs)) (hd : pids.Nodup)
    (hp : ∀ pid ∈ pids, pid < s.children.length)
    (hf : ∀ pid ∈ fs.flatMap Frame.inHand, pid ∉ pids) : Owns (s.setList list pids) fs where
  nodup l := by
    rw [State.lists_setList]
    split
    · exact hd
    · exact h.nodup l
  forked l := by
    rw [State.lists_setList]
    split
    · exact hp
    · exact h.forked l
  killed := h.killed
  named := h.drop.named
  once := h.drop.once
  fresh pid hm l := by
    rw [State.lists_setList]
    split
    · exact hf pid hm
    · exact h.drop.fresh pid hm l

theorem Owns.call (h : Owns s fs) (hn : ∀ pid ∈ f.named, pid < s.children.length)
    (hh : f.inHand = []) : Owns s (f :: fs) where
  nodup := h.nodup
  forked := h.forked
  killed := h.killed
  named := List.forall_mem_cons.2 ⟨hn, h.named⟩
  once := by
    rw [List.flatMap_cons, hh]
    exact h.once
  fresh := by
    rw [List.flatMap_cons, hh]
    exact h.fresh

theorem Owns.fork (h : Owns s (.fork c :: fs)) :
    Owns s.fork (.append c s.children.length :: fs) where
  nodup := h.nodup
  forked l pid hp := by
    rw [State.fork, List.length_append]
    exact Nat.lt_succ_of_lt (h.forked l pid hp)
  killed k hk := by
    rw [State.fork, List.length_append]
    exact Nat.lt_succ_of_lt (h.killed k hk)
  named := by
    intro f hf pid hp
    rw [State.fork, List.length_append]
    rcases List.mem_cons.1 hf with rfl | hf
    · cases List.mem_singleton.1 hp
      exact Nat.lt_succ_self _
    · exact Nat.lt_succ_of_lt (h.drop.named f hf pid hp)
  once := by
    apply List.nodup_cons.2
    refine ⟨fun hm => ?_, h.drop.once⟩
    obtain ⟨f, hf, hp⟩ := List.mem_flatMap.1 hm
    exact Nat.lt_irrefl _ (h.drop.named f hf _ (Frame.inHand_subset hp))
  fresh := by
    intro pid hp l hm
    rcases List.mem_cons.1 hp with rfl | hp
    · exact Nat.lt_irrefl _ (h.forked l _ hm)
    · exact h.drop.fresh pid hp l hm

theorem Owns.append (h : Owns s (.appending c list pid :: fs)) :
    Owns (s.setList list (s.lists list ++ [pid])) fs := by
  have hf : pid ∉ s.lists list := h.fresh pid List.mem_cons_self list
  apply h.setList
  · apply List.nodup_append.2
    refine ⟨h.nodup list, List.nodup_singleton pid, fun p hp q hq he => ?_⟩
    cases List.mem_singleton.1 hq
    exact hf (he ▸ hp)
  · intro p hp
    rcases List.mem_append.1 hp with hp | hp
    · exact h.forked list p hp
    · exact h.named _ List.mem_cons_self p hp
  · intro p hp hm
    rcases List.mem_append.1 hm with hm | hm
    · exact h.drop.fresh p hp list hm
    · cases List.mem_singleton.1 hm
      exact (List.nodup_cons.1 h.once).1 hp

theorem Owns.rebind (h : Owns s fs) : Owns { s with pidList := list } fs :=
  ⟨h.nodup, h.forked, h.killed, h.named, h.once, h.fresh⟩

theorem Owns.erase (h : Owns s (f :: fs)) : Owns (s.setList list ((s.lists list).erase pid)) fs :=
  h.setList ((h.nodup list).erase pid)
    (fun p hp => h.forked list p (List.mem_of_mem_erase hp))
    (fun p hp hm => h.drop.fresh p hp list (List.mem_of_mem_erase hm))

theorem names_none : ∀ pid ∈ ([] : List Nat), pid < n :=
  fun _ hp => absurd hp List.not_mem_nil

def owns : Assertion State Frame Exn where
  frames := Owns
  rising s _ fs := Owns s fs
  ended s _ := Owns s []

theorem Loop.next_owns (h : Owns s (.iterate l list index :: fs)) :
    owns.Resumes (.iterate l list index) fs (s, l.next) := by
  cases l with
  | usr1 => exact h.drop
  | term => exact h.same (List.Subset.refl _) rfl
  | kill a => exact h.same (List.Subset.refl _) rfl

theorem Sweep.next_owns {w : Sweep} (h : Owns s (.check w [] :: fs)) :
    Owns s (w.next :: fs) := by
  match w with
  | .chld true => exact h.same (List.Subset.refl _) rfl
  | .chld false => exact h.same (List.Subset.refl _) rfl
  | .term _ => exact h.same (List.Subset.refl _) rfl

theorem After.next_plain {a : After} : a.next.named = [] ∧ a.next.inHand = [] := by
  cases a with
  | sigchld => exact ⟨rfl, rfl⟩
  | exit code => exact ⟨rfl, rfl⟩

theorem tested_owns (h : Owns s (.tested w list :: fs)) (he : exec (.tested w list) s b = some q) :
    owns.Resumes (.tested w list) fs q := by
  cases he
  split
  · cases w with
    | chld kill => exact h.same (List.Subset.refl _) rfl
    | term retries => exact h.same (List.Subset.refl _) rfl
  · cases w with
    | chld kill => exact h.drop
    | term retries => exact h.same (List.Subset.refl _) rfl

theorem check_owns (h : Owns s (.check w (pid :: pids) :: fs))
    (he : exec (.check w (pid :: pids)) s b = some q) :
    owns.Resumes (.check w (pid :: pids)) fs q := by
  have hp : pids ⊆ Frame.named (.check w (pid :: pids)) := List.subset_cons_self pid pids
  rw [exec, State.waitpid] at he
  split at he
  · cases he
    exact h.same hp rfl
  · next hw =>
    cases he
    split at hw <;> cases hw
    exact h.goto rfl State.length_setLife h.killed
      (fun p hm => h.named _ List.mem_cons_self p (hp hm)) rfl
  · cases he
    exact h

theorem owns_exec (h : Owns s (f :: fs)) (he : exec f s b = some q) : owns.Resumes f fs q := by
  cases f with
  | sleep | environ c | increment c | append c pid | loop l | chosen l list index pid =>
    cases he
    exact h.same (List.Subset.refl _) rfl
  | tried l list index | snapshot w | remove w pid status pids | test w | pause retries =>
    cases he
    exact h.same (List.Subset.refl _) rfl
  | putenv c epoch | store c epoch | uninstall l =>
    cases he
    exact h.goto rfl rfl h.killed names_none rfl
  | fork c =>
    rw [exec] at he
    split at he
    · cases he
      exact h.fork
    · cases he
      exact h
  | appending c list pid =>
    cases he
    cases c with
    | main => exact h.append.call names_none rfl
    | sighup => exact h.append
  | iterate l list index =>
    rw [exec] at he
    split at he
    · next pid hp =>
      cases he
      refine h.goto rfl rfl h.killed (List.forall_mem_singleton.2 ?_) rfl
      exact h.forked list pid (List.mem_of_getElem? hp)
    · cases he
      exact Loop.next_owns h
  | trying l list index pid =>
    have hk : ∀ k ∈ s.kills ++ [(pid, l.signal)], k.1 < s.children.length := by
      intro k hk
      rcases List.mem_append.1 hk with hk | hk
      · exact h.killed k hk
      · cases List.mem_singleton.1 hk
        exact h.named _ List.mem_cons_self pid (List.mem_singleton_self pid)
    simp only [exec] at he
    split at he
    · cases he
      exact h.goto rfl rfl hk names_none rfl
    · cases he
      exact h.goto rfl rfl hk names_none rfl
  | clear a =>
    cases he
    have hc : Owns (s.setList (s.pidList + 1) []) fs :=
      h.setList List.nodup_nil names_none (fun _ _ => List.not_mem_nil)
    apply hc.rebind.call
    · rw [After.next_plain.1]
      exact names_none
    · exact After.next_plain.2
  | copy w list =>
    cases he
    exact h.goto rfl rfl h.killed (h.forked list) rfl
  | check w pids =>
    cases pids with
    | nil =>
      cases he
      exact Sweep.next_owns h
    | cons pid pids => exact check_owns h he
  | removing w list pid status pids =>
    rw [exec] at he
    split at he
    · cases he
      have hn := h.named _ List.mem_cons_self
      exact h.erase.call hn rfl
    · cases he
      exact h
  | tested w list => exact tested_owns h he
  | round retries =>
    cases he
    split
    · exact h.same (List.Subset.refl _) rfl
    · exact h.same (List.Subset.refl _) rfl
  | exit code =>
    cases he
    exact h

theorem owns_caught (h : Owns s (f :: fs)) (hc : caught f e = some g) : Owns s (g :: fs) := by
  cases f with
  | trying l list index pid =>
    cases hc
    exact h.same (List.nil_subset _) rfl
  | tried l list index =>
    cases hc
    exact h.same (List.nil_subset _) rfl
  | _ => cases hc

theorem entered_plain (he : enter v g s = some (t, f)) :
    f.named = [] ∧ f.inHand = [] ∧ t.lists = s.lists ∧ t.children = s.children ∧
      t.kills = s.kills := by
  cases g with
  | sigterm =>
    cases v with
    | helper =>
      cases he
      exact ⟨rfl, rfl, rfl, rfl, rfl⟩
    | cadfael =>
      cases he
      exact ⟨rfl, rfl, rfl, rfl, rfl⟩
  | sighup | sigusr1 =>
    cases he
    exact ⟨rfl, rfl, rfl, rfl, rfl⟩
  | sigchld =>
    rw [enter, Option.ite_none_right_eq_some] at he
    cases he.2
    exact ⟨rfl, rfl, rfl, rfl, rfl⟩
  | sigkill => cases he

theorem Owns.transfer (h : Owns s fs) (hl : t.lists = s.lists)
    (hc : t.children.length = s.children.length) (hk : t.kills = s.kills) : Owns t fs where
  nodup := by
    rw [hl]
    exact h.nodup
  forked := by
    rw [hl, hc]
    exact h.forked
  killed := by
    rw [hk, hc]
    exact h.killed
  named := by
    rw [hc]
    exact h.named
  once := h.once
  fresh := by
    rw [hl]
    exact h.fresh

theorem Owns.world (h : Owns s fs) (hw : world x s = some t) : Owns t fs := by
  have hl := world_later hw
  cases x with
  | exits pid status =>
    rw [HotRestarter.world, Option.ite_none_right_eq_some] at hw
    cases hw.2
    exact h.transfer rfl hl.length rfl
  | stopped =>
    cases hw
    exact h.transfer rfl rfl rfl

theorem owns_kept : (program v).Kept owns (fun _ _ => True) where
  exec h _ he := owns_exec h he
  past h _ := h.drop
  caught := by
    intro f g fs s e h hc
    have hc : caught f e = some g := hc
    exact owns_caught h hc
  out h := h
  signal := by
    intro g f fs s t h _ he
    obtain ⟨hn, hh, hl, hc, hk⟩ := entered_plain he
    apply (h.transfer hl (congrArg List.length hc) hk).call
    · rw [hn]
      exact names_none
    · exact hh
  world h hw := h.world hw
  after h hw := h.world hw

/-- However the handlers interrupt one another, the list has no pid twice, and it has and the script
signals no pid that is not from one of its forks. -/
theorem pidList_any_nesting (h : (restarter v).run start ls = some c) :
    c.state.pids.Nodup ∧ (∀ pid ∈ c.state.pids, pid < c.state.children.length) ∧
      ∀ k ∈ c.state.kills, k.1 < c.state.children.length := by
  have hs : Owns start.state start.stack :=
    ⟨fun _ => List.nodup_nil, fun _ => nofun, nofun, by decide, by decide, nofun⟩
  have hh := owns_kept.path (c := start) hs (System.Path.of_run h)
  have hc : ∃ fs, Owns c.state fs := by
    rw [Assertion.Holds] at hh
    split at hh
    · exact ⟨_, hh⟩
    · exact ⟨_, hh.2⟩
  obtain ⟨fs, hc⟩ := hc
  exact ⟨hc.nodup _, hc.forked _, hc.killed⟩

/-- SIGHUP comes while the exit of the first child is being collected. -/
def nested : List (Event Bool Signal Outside) :=
  twoChildren ++ [.world (.exits 0 0), .signal .sigchld] ++ statements 3 ++ [.signal .sighup] ++
    statements 9

theorem pidList_nested :
    (reach start nested).state.pids.Nodup ∧
      (∀ pid ∈ (reach start nested).state.pids,
        pid < (reach start nested).state.children.length) ∧
      ∀ k ∈ (reach start nested).state.kills,
        k.1 < (reach start nested).state.children.length :=
  pidList_any_nesting (@reach_path _ nested (fun _ _ => True) (by decide) (by decide)).run

/-- A call of `fork_and_exec` that has not forked. -/
def Frame.forking : Frame → Bool
  | .environ _ | .putenv _ _ | .increment _ | .store _ _ | .fork _ => true
  | _ => false

def Ascending (s : State) (n : Nat) : Prop :=
  ∃ epochs : List Nat, s.children.map Child.epoch = epochs.map some ∧
    epochs.Pairwise (· < ·) ∧ ∀ e ∈ epochs, e < n

/-- How far the one call of `fork_and_exec` has got. -/
def Forking (s : State) : Frame → Prop
  | .putenv _ epoch => epoch = s.restartEpoch ∧ Ascending s s.restartEpoch
  | .increment _ => s.environ = some s.restartEpoch ∧ Ascending s s.restartEpoch
  | .store _ epoch =>
    epoch = s.restartEpoch ∧ s.environ = some epoch ∧ Ascending s s.restartEpoch
  | .fork _ => ∃ e, s.restartEpoch = e + 1 ∧ s.environ = some e ∧ Ascending s e
  | _ => Ascending s s.restartEpoch

def ForksOnce (s : State) : List Frame → Prop
  | [] => Ascending s s.restartEpoch
  | f :: fs =>
    f.forking = false ∧ ForksOnce s fs ∨
      f.forking = true ∧ Forking s f ∧ ∀ g ∈ fs, g.forking = false

theorem Ascending.mono (h : Ascending s m) (hn : m ≤ n) : Ascending s n := by
  obtain ⟨es, he, hp, hb⟩ := h
  exact ⟨es, he, hp, fun e hm => Nat.lt_of_lt_of_le (hb e hm) hn⟩

theorem Ascending.fork (h : Ascending s e) (he : s.environ = some e) :
    Ascending s.fork (e + 1) := by
  obtain ⟨es, hs, hp, hb⟩ := h
  refine ⟨es ++ [e], ?_, ?_, ?_⟩
  · rw [State.fork, List.map_append, hs, List.map_append, he]
    rfl
  · rw [List.pairwise_append]
    refine ⟨hp, List.pairwise_singleton _ _, fun a ha b hm => ?_⟩
    cases List.mem_singleton.1 hm
    exact hb a ha
  · intro a ha
    rcases List.mem_append.1 ha with ha | ha
    · exact Nat.lt_succ_of_lt (hb a ha)
    · cases List.mem_singleton.1 ha
      exact Nat.lt_succ_self _

theorem Forking.ascending (h : Forking s f) : Ascending s s.restartEpoch := by
  cases f with
  | putenv c epoch => exact h.2
  | increment c => exact h.2
  | store c epoch => exact h.2.2
  | fork c =>
    obtain ⟨e, he, _, h⟩ := h
    exact h.mono (he ▸ Nat.le_succ e)
  | _ => exact h

theorem ForksOnce.of_none (h : Ascending s s.restartEpoch) (hf : ∀ f ∈ fs, f.forking = false) :
    ForksOnce s fs := by
  induction fs with
  | nil => exact h
  | cons f fs ih =>
    obtain ⟨hf, hfs⟩ := List.forall_mem_cons.1 hf
    exact .inl ⟨hf, ih hfs⟩

theorem ForksOnce.ascending (h : ForksOnce s fs) : Ascending s s.restartEpoch := by
  induction fs with
  | nil => exact h
  | cons f fs ih =>
    rcases h with ⟨_, h⟩ | ⟨_, h, _⟩
    · exact ih h
    · exact h.ascending

theorem ForksOnce.drop (h : ForksOnce s (f :: fs)) : ForksOnce s fs := by
  rcases h with ⟨_, h⟩ | ⟨_, h, hf⟩
  · exact h
  · exact .of_none h.ascending hf

/-- What the epochs of the children come from. -/
structure SameEpochs (s t : State) : Prop where
  restartEpoch : t.restartEpoch = s.restartEpoch
  environ : t.environ = s.environ
  epochs : t.children.map Child.epoch = s.children.map Child.epoch

theorem SameEpochs.ascending (h : SameEpochs s t) (ha : Ascending s n) : Ascending t n := by
  obtain ⟨es, he, ha⟩ := ha
  exact ⟨es, h.epochs.trans he, ha⟩

theorem SameEpochs.forking (h : SameEpochs s t) (hf : Forking s f) : Forking t f := by
  cases f with
  | putenv c epoch =>
    rw [Forking, h.restartEpoch]
    exact ⟨hf.1, h.ascending hf.2⟩
  | increment c =>
    rw [Forking, h.restartEpoch, h.environ]
    exact ⟨hf.1, h.ascending hf.2⟩
  | store c epoch =>
    rw [Forking, h.restartEpoch, h.environ]
    exact ⟨hf.1, hf.2.1, h.ascending hf.2.2⟩
  | fork c =>
    obtain ⟨e, he, hn, ha⟩ := hf
    exact ⟨e, h.restartEpoch.trans he, h.environ.trans hn, h.ascending ha⟩
  | _ =>
    have ha := h.ascending hf
    rw [← h.restartEpoch] at ha
    exact ha

theorem SameEpochs.forksOnce (h : SameEpochs s t) (hf : ForksOnce s fs) : ForksOnce t fs := by
  induction fs with
  | nil =>
    rw [ForksOnce, h.restartEpoch]
    exact h.ascending hf
  | cons f fs ih =>
    rcases hf with ⟨hn, hf⟩ | ⟨hn, hf, hg⟩
    · exact .inl ⟨hn, ih hf⟩
    · exact .inr ⟨hn, h.forking hf, hg⟩

def Outcome.Forkless : Outcome Frame Exn → Prop
  | .goto g => g.forking = false
  | _ => True

theorem After.next_forkless {a : After} : a.next.forking = false := by
  cases a with
  | sigchld => rfl
  | exit code => rfl

theorem Sweep.next_forkless {w : Sweep} : w.next.forking = false := by
  match w with
  | .chld true => rfl
  | .chld false => rfl
  | .term _ => rfl

theorem Loop.next_forkless {l : Loop} : Outcome.Forkless l.next := by
  cases l with
  | usr1 => trivial
  | term => exact rfl
  | kill a => exact rfl

theorem Sweep.empty_forkless {w : Sweep} : w.empty.forking = false := by
  cases w with
  | chld kill => rfl
  | term retries => rfl

theorem Sweep.nonempty_forkless {w : Sweep} : Outcome.Forkless w.nonempty := by
  cases w with
  | chld kill => trivial
  | term retries => exact rfl

theorem forkless_exec (hf : f.forking = false) (he : exec f s b = some (t, o)) :
    SameEpochs s t ∧ Outcome.Forkless o := by
  have same : ∀ {s : State}, SameEpochs s s := ⟨rfl, rfl, rfl⟩
  cases f with
  | environ c | putenv c epoch | increment c | store c epoch | fork c => cases hf
  | sleep | append c pid | loop l | chosen l list index pid | tried l list index =>
    cases he
    exact ⟨same, rfl⟩
  | snapshot w | copy w list | remove w pid status pids | test w | pause retries =>
    cases he
    exact ⟨same, rfl⟩
  | appending c list pid =>
    cases he
    cases c with
    | main => exact ⟨⟨rfl, rfl, rfl⟩, rfl⟩
    | sighup => exact ⟨⟨rfl, rfl, rfl⟩, trivial⟩
  | uninstall l =>
    cases he
    exact ⟨⟨rfl, rfl, rfl⟩, rfl⟩
  | iterate l list index =>
    rw [exec] at he
    split at he
    · cases he
      exact ⟨same, rfl⟩
    · cases he
      exact ⟨same, Loop.next_forkless⟩
  | trying l list index pid =>
    simp only [exec] at he
    split at he
    · cases he
      exact ⟨⟨rfl, rfl, rfl⟩, rfl⟩
    · cases he
      exact ⟨⟨rfl, rfl, rfl⟩, rfl⟩
  | clear a =>
    cases he
    exact ⟨⟨rfl, rfl, rfl⟩, After.next_forkless⟩
  | check w pids =>
    cases pids with
    | nil =>
      cases he
      exact ⟨same, Sweep.next_forkless⟩
    | cons pid pids =>
      rw [exec, State.waitpid] at he
      split at he
      · cases he
        exact ⟨same, rfl⟩
      · next hw =>
        cases he
        split at hw <;> cases hw
        exact ⟨⟨rfl, rfl, State.epochs_setLife⟩, rfl⟩
      · cases he
        exact ⟨same, trivial⟩
  | removing w list pid status pids =>
    rw [exec] at he
    split at he
    · cases he
      exact ⟨⟨rfl, rfl, rfl⟩, rfl⟩
    · cases he
      exact ⟨same, trivial⟩
  | tested w list =>
    cases he
    refine ⟨same, ?_⟩
    split
    · exact Sweep.empty_forkless
    · exact Sweep.nonempty_forkless
  | round retries =>
    cases he
    refine ⟨same, ?_⟩
    split
    · exact rfl
    · exact rfl
  | exit code =>
    cases he
    exact ⟨same, trivial⟩

def forksOnce : Assertion State Frame Exn where
  frames := ForksOnce
  rising s _ fs := ForksOnce s fs
  ended s _ := ForksOnce s []

theorem forking_exec (hf : f.forking = true) (h : Forking s f) (hfs : ∀ g ∈ fs, g.forking = false)
    (he : exec f s b = some q) : forksOnce.Resumes f fs q := by
  cases f with
  | environ c =>
    cases he
    exact .inr ⟨rfl, ⟨rfl, h⟩, hfs⟩
  | putenv c epoch =>
    cases he
    obtain ⟨rfl, h⟩ := h
    exact .inr ⟨rfl, ⟨rfl, h⟩, hfs⟩
  | increment c =>
    cases he
    exact .inr ⟨rfl, ⟨rfl, h⟩, hfs⟩
  | store c epoch =>
    cases he
    obtain ⟨rfl, hn, h⟩ := h
    exact .inr ⟨rfl, ⟨_, rfl, hn, h⟩, hfs⟩
  | fork c =>
    have ha := h.ascending
    obtain ⟨e, hr, hn, h⟩ := h
    rw [exec] at he
    split at he
    · cases he
      have hk : Ascending s.fork s.fork.restartEpoch := hr ▸ h.fork hn
      exact .inl ⟨rfl, .of_none hk hfs⟩
    · cases he
      exact .inr ⟨rfl, ⟨e, hr, hn, h⟩, hfs⟩
  | _ => cases hf

/-- SIGHUP is not handled from the call of `fork_and_exec` to its fork. -/
def ForksApart (c : Config State Frame Exn) : Event Bool Signal Outside → Prop
  | .signal .sighup => ∀ f ∈ c.stack, f.forking = false
  | _ => True

instance ForksApart.decidable : ∀ c l, Decidable (ForksApart c l)
  | c, .signal .sighup => inferInstanceAs (Decidable (∀ f ∈ c.stack, f.forking = false))
  | _, .signal .sigterm | _, .signal .sigchld | _, .signal .sigusr1 => .isTrue trivial
  | _, .signal .sigkill | _, .exec _ | _, .world _ => .isTrue trivial

theorem forksOnce_caught (h : ForksOnce s (f :: fs)) (hc : caught f e = some g) :
    ForksOnce s (g :: fs) := by
  cases f with
  | trying l list index pid =>
    cases hc
    exact .inl ⟨rfl, h.drop⟩
  | tried l list index =>
    cases hc
    exact .inl ⟨rfl, h.drop⟩
  | _ => cases hc

theorem forksOnce_entered (h : ForksOnce s fs) (hp : ForksApart ⟨s, fs, none⟩ (.signal g))
    (he : enter v g s = some (t, f)) : ForksOnce t (f :: fs) := by
  cases g with
  | sigterm =>
    cases v with
    | helper =>
      cases he
      exact .inl ⟨rfl, h⟩
    | cadfael =>
      cases he
      exact .inl ⟨rfl, h⟩
  | sighup =>
    cases he
    exact .inr ⟨rfl, h.ascending, hp⟩
  | sigusr1 =>
    cases he
    exact .inl ⟨rfl, h⟩
  | sigchld =>
    rw [enter, Option.ite_none_right_eq_some] at he
    cases he.2
    have hs : SameEpochs s { s with pending := false } := ⟨rfl, rfl, rfl⟩
    exact .inl ⟨rfl, hs.forksOnce h⟩
  | sigkill => cases he

theorem world_epochs (hw : world x s = some t) : SameEpochs s t where
  restartEpoch := (world_later hw).restartEpoch
  environ := (world_later hw).environ
  epochs := (world_later hw).epochs

theorem forksOnce_kept : (program v).Kept forksOnce ForksApart where
  exec := by
    rintro f fs s b ⟨t, o⟩ h _ he
    rcases h with ⟨hf, h⟩ | ⟨hf, h, hfs⟩
    · obtain ⟨hs, ho⟩ := forkless_exec hf he
      have ht := hs.forksOnce h
      cases o with
      | goto g => exact .inl ⟨ho, ht⟩
      | ret => exact ht
      | raise e => exact .inl ⟨hf, ht⟩
    · exact forking_exec hf h hfs he
  past h _ := h.drop
  caught := by
    intro f g fs s e h hc
    have hc : caught f e = some g := hc
    exact forksOnce_caught h hc
  out h := h
  signal h hp he := forksOnce_entered h hp he
  world h hw := (world_epochs hw).forksOnce h
  after h hw := (world_epochs hw).forksOnce h

/-- However else the handlers interrupt one another, no two children have the same
`RESTART_EPOCH`, and a child has a greater one than those forked before it. -/
theorem restartEpoch_ascending (h : (restarter v).Path ForksApart start ls c) :
    ∃ epochs : List Nat, c.state.children.map Child.epoch = epochs.map some ∧
      epochs.Pairwise (· < ·) ∧ ∀ e ∈ epochs, e < c.state.restartEpoch := by
  have hs : ForksOnce start.state start.stack :=
    .inr ⟨rfl, ⟨[], rfl, List.Pairwise.nil, nofun⟩, nofun⟩
  have hh := forksOnce_kept.path (c := start) hs h
  have hc : ∃ fs, ForksOnce c.state fs := by
    rw [Assertion.Holds] at hh
    split at hh
    · exact ⟨_, hh⟩
    · exact ⟨_, hh.2⟩
  obtain ⟨fs, hc⟩ := hc
  exact hc.ascending

theorem restartEpoch_nested :
    ∃ epochs : List Nat,
      (reach start nested).state.children.map Child.epoch = epochs.map some ∧
      epochs.Pairwise (· < ·) ∧ ∀ e ∈ epochs, e < (reach start nested).state.restartEpoch :=
  restartEpoch_ascending (reach_path (by decide) (by decide))

end HotRestarter
