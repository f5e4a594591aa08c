import SpiffeExample.Interrupts
import Mathlib.Data.List.Nodup
import Mathlib.Logic.Function.Basic

namespace HotRestarter
set_option autoImplicit true

open Interrupts Transition

/-- The two copies of the script: the demo's, and the older one of the cadfael host. -/
inductive Version where
  | helper | cadfael
  deriving DecidableEq

inductive Signal where
  | sigterm | sighup | sigchld | sigusr1 | sigkill
  deriving DecidableEq

inductive Exn where
  | systemExit (code : Nat)
  | osError
  | valueError
  deriving DecidableEq

/-- A child until `waitpid` has collected the status of its exit. -/
inductive Life where
  | running
  | zombie (status : Nat)
  | reaped (status : Nat)
  deriving DecidableEq

def wifexited (status : Nat) : Bool :=
  status % 128 = 0

def wexitstatus (status : Nat) : Nat :=
  status / 256 % 256

/-- Whether the handler of SIGCHLD takes the exit for an abnormal one. -/
def abnormal (status : Nat) : Bool :=
  if wifexited status then wexitstatus status ≠ 0 else true

/-- A child has the environment of the moment it was forked at. Its pid is its position. -/
structure Child where
  epoch : Option Nat
  life : Life
  deriving DecidableEq

/-- The script's globals, and the process table behind its calls. `pid_list` names one of the list
objects, since `force_kill_all_children` binds it to a new list while a loop may hold the old. -/
structure State where
  restartEpoch : Nat
  environ : Option Nat
  lists : Nat → List Nat
  pidList : Nat
  handled : Bool
  pending : Bool
  children : List Child
  kills : List (Nat × Signal)

def State.pids (s : State) : List Nat :=
  s.lists s.pidList

inductive Caller where
  | main | sighup
  deriving DecidableEq

inductive After where
  | sigchld
  | exit (code : Nat)
  deriving DecidableEq

/-- The loops `for pid in pid_list: ... try: os.kill(pid, ...)`, with what follows them. -/
inductive Loop where
  | usr1
  | term
  | kill (after : After)
  deriving DecidableEq

def Loop.signal : Loop → Signal
  | .usr1 => .sigusr1
  | .term => .sigterm
  | .kill _ => .sigkill

/-- The loops `for pid in list(pid_list)` around `waitpid`: the one of the handler of SIGCHLD with
`kill_all_and_exit`, the one of `term_all_children` with `retries`. -/
inductive Sweep where
  | chld (kill : Bool)
  | term (retries : Nat)
  deriving DecidableEq

/-- What runs next in a call: its local variables and its place in the script. A handler is entered
between two of these, so reading a global and using its value are two places. Of `fork_and_exec`
there are `environ` to `appending`; `loop` to `tried` belong to the loops that signal the children,
`snapshot` to `removing` to those that collect their exits, with `test` and `tested` for whether the
list is empty, and `round` and `pause` to the retries of `term_all_children`. -/
inductive Frame where
  | sleep
  | environ (c : Caller)
  | putenv (c : Caller) (epoch : Nat)
  | increment (c : Caller)
  | store (c : Caller) (epoch : Nat)
  | fork (c : Caller)
  | append (c : Caller) (pid : Nat)
  | appending (c : Caller) (list pid : Nat)
  | uninstall (l : Loop)
  | loop (l : Loop)
  | iterate (l : Loop) (list index : Nat)
  | chosen (l : Loop) (list index pid : Nat)
  | trying (l : Loop) (list index pid : Nat)
  | tried (l : Loop) (list index : Nat)
  | clear (a : After)
  | snapshot (w : Sweep)
  | copy (w : Sweep) (list : Nat)
  | check (w : Sweep) (pids : List Nat)
  | remove (w : Sweep) (pid status : Nat) (pids : List Nat)
  | removing (w : Sweep) (list pid status : Nat) (pids : List Nat)
  | test (w : Sweep)
  | tested (w : Sweep) (list : Nat)
  | round (retries : Nat)
  | pause (retries : Nat)
  | exit (code : Nat)
  deriving DecidableEq

def termWaitSeconds : Nat := 30

def Caller.next : Caller → Outcome Frame Exn
  | .main => .goto .sleep
  | .sighup => .ret

def Loop.next : Loop → Outcome Frame Exn
  | .usr1 => .ret
  | .term => .goto (.round 0)
  | .kill a => .goto (.clear a)

def After.next : After → Frame
  | .sigchld => .test (.chld true)
  | .exit code => .exit code

def Sweep.collect (w : Sweep) (status : Nat) : Sweep :=
  match w with
  | .chld kill => .chld (kill || abnormal status)
  | .term retries => .term retries

def Sweep.next : Sweep → Frame
  | .chld true => .uninstall (.kill .sigchld)
  | .chld false => .test (.chld false)
  | .term retries => .test (.term retries)

def Sweep.empty : Sweep → Frame
  | .chld kill => .exit (if kill then 1 else 0)
  | .term _ => .exit 0

def Sweep.nonempty : Sweep → Outcome Frame Exn
  | .chld _ => .ret
  | .term retries => .goto (.pause (retries + 1))

def State.life (s : State) (pid : Nat) : Option Life :=
  s.children[pid]?.map Child.life

def State.setLife (s : State) (pid : Nat) (l : Life) : State :=
  { s with children := s.children.modify pid (fun c => { c with life := l }) }

def State.setList (s : State) (list : Nat) (pids : List Nat) : State :=
  { s with lists := Function.update s.lists list pids }

/-- `os.kill` fails on a pid whose exit has been collected. -/
def State.killable (s : State) (pid : Nat) : Bool :=
  match s.life pid with
  | some .running | some (.zombie _) => true
  | _ => false

/-- The children whose exit has not been collected, in the order of their forks. -/
def State.unreaped (s : State) : List Nat :=
  (List.range s.children.length).filter s.killable

/-- `ret_pid == 0` is `none`. A pid that is no child is an error. -/
def State.waitpid (s : State) (pid : Nat) : Except Exn (Option (State × Nat)) :=
  match s.life pid with
  | some .running => .ok none
  | some (.zombie status) => .ok (some (s.setLife pid (.reaped status), status))
  | _ => .error .osError

def State.fork (s : State) : State :=
  { s with children := s.children ++ [⟨s.environ, .running⟩] }

theorem State.lists_setList {s : State} {pids : List Nat} :
    (s.setList list pids).lists l = if l = list then pids else s.lists l :=
  Function.update_apply ..

theorem State.length_setLife {s : State} :
    (s.setLife p l).children.length = s.children.length :=
  List.length_modify ..

theorem State.life_setLife {s : State} : (s.setLife p l).life q =
    if p = q then (s.life q).map (fun _ => l) else s.life q := by
  simp only [State.life, State.setLife, List.getElem?_modify]
  split
  · cases s.children[q]? with
    | none => rfl
    | some c => rfl
  · cases s.children[q]? with
    | none => rfl
    | some c => rfl

theorem State.epochs_setLife {s : State} :
    (s.setLife p l).children.map Child.epoch = s.children.map Child.epoch := by
  apply List.ext_getElem?
  intro i
  simp only [State.setLife, List.getElem?_map, List.getElem?_modify]
  split
  · cases s.children[i]? with
    | none => rfl
    | some c => rfl
  · rw [id_map']

theorem State.killable_iff {s : State} : s.killable p = true ↔
    s.life p = some .running ∨ ∃ status, s.life p = some (.zombie status) := by
  rw [State.killable]
  split
  · next h => simp only [h, true_or]
  · next status h => simp only [h, Option.some.injEq, Life.zombie.injEq, exists_eq', or_true]
  · next hr hz =>
    apply iff_of_false Bool.false_ne_true
    rintro (h | ⟨status, h⟩)
    · exact hr h
    · exact hz status h

theorem State.killable_lt {s : State} (h : s.killable p = true) : p < s.children.length := by
  by_contra hp
  have hl : s.life p = none := by
    rw [State.life, List.getElem?_eq_none (Nat.not_lt.1 hp)]
    rfl
  simp only [State.killable, hl, Bool.false_eq_true] at h

theorem State.mem_unreaped {s : State} : p ∈ s.unreaped ↔ s.killable p = true := by
  rw [State.unreaped, List.mem_filter, List.mem_range]
  exact ⟨And.right, fun h => ⟨State.killable_lt h, h⟩⟩

theorem State.nodup_unreaped {s : State} : s.unreaped.Nodup :=
  List.nodup_range.filter _

theorem State.unreaped_fork {s : State} :
    s.fork.unreaped = s.unreaped ++ [s.children.length] := by
  have hl : ∀ p ∈ List.range s.children.length, s.fork.killable p = s.killable p := by
    intro p hp
    simp only [State.killable, State.life, State.fork,
      List.getElem?_append_left (List.mem_range.1 hp)]
  have hn : s.fork.killable s.children.length = true := by
    simp only [State.killable, State.life, State.fork, List.getElem?_concat_length, Option.map_some]
  have he : s.fork.children.length = s.children.length + 1 := by
    simp only [State.fork, List.length_append, List.length_singleton]
  rw [State.unreaped, he, List.range_succ, List.filter_append, List.filter_congr hl,
    List.filter_singleton, hn]
  rfl

theorem State.unreaped_reap {s : State} :
    (s.setLife p (.reaped status)).unreaped = s.unreaped.erase p := by
  have hk : ∀ q, (s.setLife p (.reaped status)).killable q = (q != p && s.killable q) := by
    intro q
    rw [State.killable, State.life_setLife]
    by_cases hq : p = q
    · subst hq
      cases hl : s.life p with
      | none => simp [State.killable, hl]
      | some l => simp
    · rw [if_neg hq, State.killable, bne_iff_ne.2 (Ne.symm hq), Bool.true_and]
  rw [State.nodup_unreaped.erase_eq_filter, State.unreaped, State.unreaped, State.length_setLife,
    List.filter_filter]
  exact List.filter_congr (fun q _ => hk q)

/-- One statement, or one part of it. `forks` is whether the system can fork. -/
def exec (f : Frame) (s : State) (forks : Bool) : Option (State × Outcome Frame Exn) :=
  match f with
  | .sleep => some (s, .goto .sleep)
  | .environ c => some (s, .goto (.putenv c s.restartEpoch))
  | .putenv c epoch => some ({ s with environ := some epoch }, .goto (.increment c))
  | .increment c => some (s, .goto (.store c s.restartEpoch))
  | .store c epoch => some ({ s with restartEpoch := epoch + 1 }, .goto (.fork c))
  | .fork c =>
    if forks then some (s.fork, .goto (.append c s.children.length))
    else some (s, .raise .osError)
  | .append c pid => some (s, .goto (.appending c s.pidList pid))
  | .appending c list pid => some (s.setList list (s.lists list ++ [pid]), c.next)
  | .uninstall l => some ({ s with handled := false, pending := false }, .goto (.loop l))
  | .loop l => some (s, .goto (.iterate l s.pidList 0))
  | .iterate l list index =>
    match (s.lists list)[index]? with
    | some pid => some (s, .goto (.chosen l list (index + 1) pid))
    | none => some (s, l.next)
  | .chosen l list index pid => some (s, .goto (.trying l list index pid))
  | .trying l list index pid =>
    let t := { s with kills := s.kills ++ [(pid, l.signal)] }
    if s.killable pid then some (t, .goto (.tried l list index))
    else some (t, .goto (.iterate l list index))
  | .tried l list index => some (s, .goto (.iterate l list index))
  | .clear a =>
    some ({ s.setList (s.pidList + 1) [] with pidList := s.pidList + 1 }, .goto a.next)
  | .snapshot w => some (s, .goto (.copy w s.pidList))
  | .copy w list => some (s, .goto (.check w (s.lists list)))
  | .check w [] => some (s, .goto w.next)
  | .check w (pid :: pids) =>
    match s.waitpid pid with
    | .ok none => some (s, .goto (.check w pids))
    | .ok (some (t, status)) => some (t, .goto (.remove w pid status pids))
    | .error e => some (s, .raise e)
  | .remove w pid status pids => some (s, .goto (.removing w s.pidList pid status pids))
  | .removing w list pid status pids =>
    if pid ∈ s.lists list then
      some (s.setList list ((s.lists list).erase pid), .goto (.check (w.collect status) pids))
    else some (s, .raise .valueError)
  | .test w => some (s, .goto (.tested w s.pidList))
  | .tested w list => some (s, if s.lists list = [] then .goto w.empty else w.nonempty)
  | .round retries =>
    some (s, .goto (if retries < termWaitSeconds then .snapshot (.term retries)
      else .loop (.kill (.exit 1))))
  | .pause retries => some (s, .goto (.round retries))
  | .exit code => some (s, .raise (.systemExit code))

/-- A bare `except:` goes on with the next pid, whatever was raised. -/
def caught (f : Frame) (_ : Exn) : Option Frame :=
  match f with
  | .trying l list index _ => some (.iterate l list index)
  | .tried l list index => some (.iterate l list index)
  | _ => none

def enter (v : Version) (g : Signal) (s : State) : Option (State × Frame) :=
  match g with
  | .sigterm =>
    match v with
    | .helper => some (s, .uninstall .term)
    | .cadfael => some (s, .uninstall (.kill (.exit 0)))
  | .sighup => some (s, .environ .sighup)
  | .sigusr1 => some (s, .loop .usr1)
  | .sigchld =>
    if s.pending then some ({ s with pending := false }, .snapshot (.chld false)) else none
  | .sigkill => none

/-- A child exits, or SIGCHLD arrives without an exit. -/
inductive Outside where
  | exits (pid status : Nat)
  | stopped
  deriving DecidableEq

/-- A SIGCHLD that arrives is kept until its handler is entered, where there is one. -/
def State.arrive (s : State) : State :=
  { s with pending := s.pending || s.handled }

def world (x : Outside) (s : State) : Option State :=
  match x with
  | .exits pid status =>
    if s.life pid = some .running then some (s.setLife pid (.zombie status)).arrive else none
  | .stopped => some s.arrive

def program (v : Version) : Program State Frame Exn Bool Signal Outside where
  exec := exec
  caught := caught
  enter := enter v
  world := world

/-- `main`, once the handlers are installed and before its call of `fork_and_exec`. -/
def start : Config State Frame Exn where
  state :=
    { restartEpoch := 0
      environ := none
      lists := fun _ => []
      pidList := 0
      handled := true
      pending := false
      children := []
      kills := [] }
  stack := [.environ .main]
  ended := none

def restarter (v : Version) : System (Config State Frame Exn) (Event Bool Signal Outside) :=
  (program v).system (· = start)

end HotRestarter
