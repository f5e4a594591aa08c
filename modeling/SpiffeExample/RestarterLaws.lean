import SpiffeExample.RestarterRuns

namespace HotRestarter
set_option autoImplicit true

open Interrupts Transition

/-- A handler other than the one of SIGUSR1 is entered only while `main` sleeps, with no handler
running but those of SIGUSR1, none of them in its `try` block. -/
def Orderly (c : Config State Frame Exn) : Event Bool Signal Outside → Prop
  | .signal .sigusr1 => True
  | .signal _ => ∀ f ∈ c.stack, f.resting true = true ∧ f.inTry = false
  | _ => True

instance Orderly.decidable : ∀ c l, Decidable (Orderly c l)
  | _, .signal .sigusr1 => .isTrue trivial
  | c, .signal .sigterm | c, .signal .sighup | c, .signal .sigchld | c, .signal .sigkill =>
    inferInstanceAs (Decidable (∀ f ∈ c.stack, f.resting true = true ∧ f.inTry = false))
  | _, .exec _ => .isTrue trivial
  | _, .world _ => .isTrue trivial

/-- Handlers are entered only while `main` sleeps. -/
def OneAtATime (c : Config State Frame Exn) : Event Bool Signal Outside → Prop
  | .signal _ => c.stack = [.sleep]
  | _ => True

instance OneAtATime.decidable : ∀ c l, Decidable (OneAtATime c l)
  | c, .signal _ => inferInstanceAs (Decidable (c.stack = [.sleep]))
  | _, .exec _ => .isTrue trivial
  | _, .world _ => .isTrue trivial

/-- The setting that a run shows. -/
def Setting.of (v : Version) (ls : List (Event Bool Signal Outside)) : Setting where
  version := v
  terms := .signal .sigterm ∈ ls
  failures := .exec false ∈ ls

theorem Setting.of_ok (h : l ∈ ls) : (Setting.of v ls).ok l := by
  match l, h with
  | .signal .sigterm, h => exact decide_eq_true h
  | .exec false, h => exact decide_eq_true h
  | .exec true, _ => trivial
  | .world _, _ => trivial
  | .signal .sighup, _ => trivial
  | .signal .sigchld, _ => trivial
  | .signal .sigusr1, _ => trivial
  | .signal .sigkill, _ => trivial

theorem uncaught_of (h : f.inTry = false) : (program v).Uncaught f := by
  intro e
  cases f with
  | trying l list index pid => cases h
  | tried l list index => cases h
  | _ => rfl

theorem Orderly.apart {r : Setting} (h : Orderly c l) (hl : r.ok l) :
    (program v).Apart (r.runs true) r.ok c l := by
  refine ⟨hl, ?_⟩
  rintro g t f rfl he hf
  have hr : ∀ w ∈ c.stack, w.resting true = true ∧ w.inTry = false := by
    cases g with
    | sigusr1 =>
      cases he
      exact absurd rfl hf
    | sigterm | sighup | sigchld | sigkill => exact h
  exact fun w hm => ⟨(hr w hm).1, uncaught_of (hr w hm).2⟩

theorem OneAtATime.apart {r : Setting} (h : OneAtATime c l) (hl : r.ok l) :
    (program v).Apart (r.runs false) r.ok c l := by
  refine ⟨hl, ?_⟩
  rintro g t f rfl _ _ w hm
  have hs : c.stack = [.sleep] := h
  rw [hs, List.mem_singleton] at hm
  subst hm
  exact ⟨rfl, uncaught_of rfl⟩

theorem start_watching : Watching start.state 0 where
  tracked := rfl
  calm := ⟨rfl, fun _ _ h => absurd h List.not_mem_nil⟩
  numbered := rfl
  next := rfl
  normal := nofun

theorem Setting.start (r : Setting) :
    (program r.version).Single (r.runs nested) start.state start.stack := by
  refine .inr ⟨?_, start_watching, fun _ h => absurd h List.not_mem_nil⟩
  cases nested with
  | false => exact Bool.false_ne_true
  | true => exact Bool.false_ne_true

theorem Orderly.holds (h : (restarter v).Path Orderly start ls c) :
    ((program v).single ((Setting.of v ls).runs true)).Holds c := by
  apply ((Setting.of v ls).sound true).path (Setting.of v ls).start
  exact ⟨h.run, h.along.of_mem (fun hm hl => hl.apart (Setting.of_ok hm))⟩

/-- The setting that leaves nothing out. -/
def Setting.any (v : Version) : Setting where
  version := v
  terms := true
  failures := true

theorem Setting.any_ok : (Setting.any v).ok l := by
  match l with
  | .signal .sigterm | .exec false => exact rfl
  | .exec true | .world _ | .signal .sighup | .signal .sigchld => trivial
  | .signal .sigusr1 | .signal .sigkill => trivial

theorem OneAtATime.holds (h : (restarter v).Path OneAtATime start ls c) :
    ((program v).single ((Setting.any v).runs false)).Holds c := by
  apply ((Setting.any v).sound false).path (Setting.any v).start
  exact ⟨h.run, h.along.of_mem (fun _ hl => hl.apart Setting.any_ok)⟩

theorem OneAtATime.atRest (h : (restarter v).Path OneAtATime start ls c)
    (hc : c.stack = [.sleep]) : AtRest c.state := by
  have hh := OneAtATime.holds h
  rw [Assertion.Holds] at hh
  split at hh
  · rw [hc] at hh
    apply Program.Single.plain hh
    intro f hf
    cases List.mem_singleton.1 hf
    rfl
  · cases hc.symm.trans hh.1

/-- `main` sleeps, and at most handlers of SIGUSR1 run. -/
structure Resting (c : Config State Frame Exn) : Prop where
  stack : ∀ f ∈ c.stack, f.resting true = true
  ended : c.ended = none

theorem Resting.atRest (h : (restarter v).Path Orderly start ls c) (hc : Resting c) :
    AtRest c.state := by
  have hh := Orderly.holds h
  rw [Assertion.Holds, hc.ended] at hh
  exact Program.Single.plain hh hc.stack

/-- At rest the list is what is left to watch: the children whose exit has not been collected, in
the order of their forks, and never none. -/
theorem pidList_at_rest (h : (restarter v).Path Orderly start ls c) (hc : Resting c) :
    c.state.pids = c.state.unreaped ∧ c.state.pids ≠ [] :=
  ⟨(hc.atRest h).watching.tracked, (hc.atRest h).nonempty⟩

def statements (n : Nat) : List (Event Bool Signal Outside) :=
  List.replicate n (.exec true)

/-- `main` forks the first child, and SIGHUP the second. -/
def twoChildren : List (Event Bool Signal Outside) :=
  statements 7 ++ [.signal .sighup] ++ statements 7

/-- Where a run of the demo's script ends. -/
def reach (c : Config State Frame Exn) (ls : List (Event Bool Signal Outside)) :
    Config State Frame Exn :=
  ((restarter .helper).run c ls).getD c

theorem reach_path (hr : ((restarter .helper).run c ls).isSome = true)
    (hl : (restarter .helper).Along C c ls) : (restarter .helper).Path C c ls (reach c ls) :=
  ⟨(Option.some_get hr).symm.trans (congrArg some (Option.get_eq_getD ..)), hl⟩

theorem twoChildren_orderly :
    (restarter .helper).Path Orderly start twoChildren (reach start twoChildren) :=
  reach_path (by decide) (by decide)

theorem twoChildren_alone :
    (restarter .helper).Path OneAtATime start twoChildren (reach start twoChildren) :=
  ⟨twoChildren_orderly.run, by decide⟩

theorem twoChildren_resting : Resting (reach start twoChildren) :=
  ⟨by decide, by decide⟩

theorem twoChildren_asleep : (reach start twoChildren).stack = [.sleep] := by decide

theorem pidList_after_sighup :
    (reach start twoChildren).state.pids = (reach start twoChildren).state.unreaped ∧
      (reach start twoChildren).state.pids ≠ [] :=
  pidList_at_rest twoChildren_orderly twoChildren_resting

theorem restartEpoch_at_rest (h : (restarter v).Path Orderly start ls c) (hc : Resting c) :
    c.state.children.map Child.epoch = (List.range c.state.children.length).map some ∧
      c.state.restartEpoch = c.state.children.length :=
  ⟨(hc.atRest h).watching.numbered, (hc.atRest h).watching.next⟩

theorem restartEpoch_after_sighup :
    (reach start twoChildren).state.children.map Child.epoch =
        (List.range (reach start twoChildren).state.children.length).map some ∧
      (reach start twoChildren).state.restartEpoch =
        (reach start twoChildren).state.children.length :=
  restartEpoch_at_rest twoChildren_orderly twoChildren_resting

/-- An exit that has not been collected has its SIGCHLD waiting for the handler. -/
theorem exit_noticed (h : (restarter v).Path Orderly start ls c) (hc : Resting c)
    (hz : c.state.life pid = some (.zombie status)) :
    c.state.handled = true ∧ c.state.pending = true := by
  obtain ⟨hh, hr⟩ := (hc.atRest h).watching.calm
  refine ⟨hh, ?_⟩
  by_contra hp
  have hm : pid ∈ c.state.unreaped :=
    State.mem_unreaped.2 (State.killable_iff.2 (.inr ⟨status, hz⟩))
  have hl := hr (Bool.not_eq_true _ ▸ hp) pid hm
  cases hz.symm.trans hl

def childExits : List (Event Bool Signal Outside) :=
  twoChildren ++ [.world (.exits 0 9)]

theorem exit_noticed_after_sighup :
    (reach start childExits).state.handled = true ∧ (reach start childExits).state.pending = true :=
  @exit_noticed _ _ _ 0 9 (reach_path (by decide) (by decide)) ⟨by decide, by decide⟩ (by decide)

/-- Where handlers are entered only while `main` sleeps, no signal is sent to a process that the
script has not forked, or whose pid has been given back to the system. -/
theorem signals_own_children (h : (restarter v).Path OneAtATime start ls c)
    (hc : c.stack = .trying l list index pid :: fs) (he : c.ended = none) :
    pid ∈ c.state.unreaped := by
  have hh := OneAtATime.holds h
  rw [Assertion.Holds, he, hc] at hh
  have ht : (Setting.any v).At c.state (.trying l list index pid) := hh.top Bool.false_ne_true
  obtain ⟨_, hl, i, _, hp, _⟩ := ht
  have hu : c.state.pids = c.state.unreaped := by
    cases l with
    | usr1 => exact hl.watching.tracked
    | term => exact hl.1
    | kill a => exact hl.1
  rw [← hu]
  exact List.mem_of_getElem? hp

def forwarding : List (Event Bool Signal Outside) :=
  twoChildren ++ [.signal .sigusr1] ++ statements 3

theorem signals_own_children_of_sigusr1 : 0 ∈ (reach start forwarding).state.unreaped :=
  have hs : (reach start forwarding).stack = [.trying .usr1 0 1 0, .sleep] := by decide
  signals_own_children (reach_path (by decide) (by decide)) hs (by decide)

theorem Orderly.raised (h : (restarter v).Path Orderly start ls c) (he : c.ended = some e) :
    (Setting.of v ls).Raised c.state e := by
  have hh := Orderly.holds h
  rw [Assertion.Holds, he] at hh
  exact hh.2

theorem collected_of_not_unreaped {s : State} (hp : pid < s.children.length)
    (h : pid ∉ s.unreaped) : ∃ status, s.life pid = some (.reaped status) := by
  have hl : s.life pid = some (s.children[pid]).life := by
    rw [State.life, List.getElem?_eq_getElem hp]
    rfl
  rw [hl]
  cases hc : (s.children[pid]).life with
  | running => exact absurd (State.mem_unreaped.2 (State.killable_iff.2 (.inl (hc ▸ hl)))) h
  | zombie status =>
    exact absurd (State.mem_unreaped.2 (State.killable_iff.2 (.inr ⟨status, hc ▸ hl⟩))) h
  | reaped status => exact ⟨status, rfl⟩

theorem Killed.accounted {s : State} (h : Killed s) (hp : pid < s.children.length) :
    (∃ status, s.life pid = some (.reaped status)) ∨ (pid, .sigkill) ∈ s.kills := by
  by_cases hm : pid ∈ s.unreaped
  · exact .inr (h pid hm)
  · exact .inl (collected_of_not_unreaped hp hm)

theorem Killed.of_none {s : State} (h : s.unreaped = []) : Killed s := by
  rw [Killed, h]
  intro pid hp
  cases hp

/-- Whatever ends the script, short of a fork that fails, is `sys.exit`, and it leaves no child
behind that it has not killed. -/
theorem no_child_left (h : (restarter v).Path Orderly start ls c) (hf : .exec false ∉ ls)
    (he : c.ended = some e) :
    (∃ code, e = .systemExit code) ∧ ∀ pid < c.state.children.length,
      (∃ status, c.state.life pid = some (.reaped status)) ∨ (pid, .sigkill) ∈ c.state.kills := by
  have hr := Orderly.raised h he
  cases e with
  | systemExit code =>
    have hk : Killed c.state := by
      cases hr with
      | done hu hn => exact .of_none hu
      | failed hk hf => exact hk
      | terminated hv hu => exact .of_none hu
      | forced hv hk => exact hk
      | killed hv hk => exact hk
    exact ⟨⟨code, rfl⟩, fun pid hp => hk.accounted hp⟩
  | osError => exact absurd (of_decide_eq_true hr) hf
  | valueError => exact hr.elim

/-- The first child fails, and its exit is collected. -/
def childFails : List (Event Bool Signal Outside) :=
  twoChildren ++ [.world (.exits 0 256), .signal .sigchld] ++ statements 18

theorem childFails_orderly :
    (restarter .helper).Path Orderly start childFails (reach start childFails) :=
  reach_path (by decide) (by decide)

theorem childFails_ended : (reach start childFails).ended = some (.systemExit 1) := by decide

theorem no_child_left_of_failure :
    (∃ code, Exn.systemExit 1 = .systemExit code) ∧
      ∀ pid < (reach start childFails).state.children.length,
        (∃ status, (reach start childFails).state.life pid = some (.reaped status)) ∨
          (pid, .sigkill) ∈ (reach start childFails).state.kills :=
  no_child_left childFails_orderly (by decide) childFails_ended

/-- Without SIGTERM the code of `sys.exit` tells whether a child has failed. -/
theorem exitCode_law (h : (restarter v).Path Orderly start ls c) (ht : .signal .sigterm ∉ ls)
    (he : c.ended = some (.systemExit code)) :
    code = 0 ∧ (∀ pid < c.state.children.length, ∃ status,
        c.state.life pid = some (.reaped status) ∧ abnormal status = false) ∨
      code = 1 ∧ ∃ pid status,
        c.state.life pid = some (.reaped status) ∧ abnormal status = true := by
  have hn : ∀ w, ¬ (Setting.of v ls).Terminates w := fun w hw => ht (of_decide_eq_true hw.1)
  cases Orderly.raised h he with
  | done hu hn =>
    refine .inl ⟨rfl, fun pid hp => ?_⟩
    obtain ⟨status, hl⟩ := collected_of_not_unreaped hp (hu ▸ List.not_mem_nil)
    exact ⟨status, hl, hn pid status hl⟩
  | failed hk hf => exact .inr ⟨rfl, hf⟩
  | terminated hv hu => exact absurd hv (hn _)
  | forced hv hk => exact absurd hv (hn _)
  | killed hv hk => exact absurd hv (hn _)

theorem exitCode_of_failure :
    1 = 0 ∧ (∀ pid < (reach start childFails).state.children.length, ∃ status,
        (reach start childFails).state.life pid = some (.reaped status) ∧ abnormal status = false) ∨
      1 = 1 ∧ ∃ pid status,
        (reach start childFails).state.life pid = some (.reaped status) ∧ abnormal status = true :=
  exitCode_law childFails_orderly (by decide) childFails_ended

end HotRestarter
