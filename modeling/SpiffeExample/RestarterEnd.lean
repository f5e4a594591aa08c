import SpiffeExample.RestarterLaws
import Mathlib.Tactic.Ring

namespace HotRestarter
set_option autoImplicit true

open Interrupts Transition

variable {r : Setting} {s t : State}

/-- How many statements the rest of `term_all_children` can take, from the test of its loop with
`n` children left. -/
def roundFuel (n retries : Nat) : Nat :=
  (termWaitSeconds - retries) * (3 * n + 7) + 4 * n + 7

theorem roundFuel_succ (h : retries < termWaitSeconds) :
    roundFuel n retries = roundFuel n (retries + 1) + 3 * n + 7 := by
  obtain ⟨k, hk⟩ := Nat.exists_eq_add_of_lt h
  have hs : termWaitSeconds - retries = k + 1 := by omega
  have hs' : termWaitSeconds - (retries + 1) = k := by omega
  rw [roundFuel, roundFuel, hs, hs']
  ring

theorem le_roundFuel : 4 * n + 7 ≤ roundFuel n retries := by
  rw [roundFuel]
  omega

theorem roundFuel_mono (h : m ≤ n) : roundFuel m retries ≤ roundFuel n retries := by
  rw [roundFuel, roundFuel]
  have hm := Nat.mul_le_mul_left (termWaitSeconds - retries) (Nat.add_le_add_right
    (Nat.mul_le_mul_left 3 h) 7)
  omega

def Loop.fuel (n : Nat) : Loop → Nat
  | .usr1 => 0
  | .term => roundFuel n 0
  | .kill _ => 4

def Sweep.fuel (n : Nat) : Sweep → Nat
  | .chld _ => 4 * n + 7
  | .term retries => roundFuel n (retries + 1) + 3

/-- How many statements a call can still take at a place, with `n` children in the list. -/
def Frame.fuel (n : Nat) : Frame → Nat
  | .sleep => 0
  | .environ _ => 7
  | .putenv _ _ => 6
  | .increment _ => 5
  | .store _ _ => 4
  | .fork _ => 3
  | .append _ _ => 2
  | .appending _ _ _ => 1
  | .uninstall l => 4 * n + 3 + l.fuel n
  | .loop l => 4 * n + 2 + l.fuel n
  | .iterate l _ index => 4 * (n - index) + 1 + l.fuel n
  | .chosen l _ index _ => 4 * (n - index) + 4 + l.fuel n
  | .trying l _ index _ => 4 * (n - index) + 3 + l.fuel n
  | .tried l _ index => 4 * (n - index) + 2 + l.fuel n
  | .clear _ => 4
  | .snapshot w => 3 * n + 3 + w.fuel n
  | .copy w _ => 3 * n + 2 + w.fuel n
  | .check w pids => 3 * pids.length + 1 + w.fuel n
  | .remove w _ _ pids => 3 * pids.length + 3 + w.fuel n
  | .removing w _ _ _ pids => 3 * pids.length + 2 + w.fuel n
  | .test (.chld _) => 3
  | .test (.term retries) => roundFuel n (retries + 1) + 3
  | .tested (.chld _) _ => 2
  | .tested (.term retries) _ => roundFuel n (retries + 1) + 2
  | .round retries => roundFuel n retries
  | .pause retries => roundFuel n retries + 1
  | .exit _ => 1

def Loop.pauses : Loop → Nat
  | .term => termWaitSeconds
  | _ => 0

def Sweep.pauses : Sweep → Nat
  | .chld _ => 0
  | .term retries => termWaitSeconds - retries

def Frame.pausing : Frame → Nat
  | .pause _ => 1
  | _ => 0

/-- How often a call can still sleep for a second. -/
def Frame.pauses : Frame → Nat
  | .uninstall l | .loop l | .iterate l _ _ | .chosen l _ _ _ => l.pauses
  | .trying l _ _ _ | .tried l _ _ => l.pauses
  | .snapshot w | .copy w _ | .check w _ | .remove w _ _ _ | .removing w _ _ _ _ => w.pauses
  | .test w | .tested w _ => w.pauses
  | .round retries => termWaitSeconds - retries
  | .pause retries => termWaitSeconds + 1 - retries
  | _ => 0

def Sweep.inTime : Sweep → Bool
  | .chld _ => true
  | .term retries => retries < termWaitSeconds

/-- The places of the handlers, as opposed to those of `main`. -/
def Frame.inHandler : Frame → Bool
  | .sleep => false
  | .environ c | .putenv c _ | .increment c | .store c _ | .fork c => c = .sighup
  | .append c _ | .appending c _ _ => c = .sighup
  | .snapshot w | .copy w _ | .check w _ | .remove w _ _ _ | .removing w _ _ _ _ => w.inTime
  | .test w | .tested w _ => w.inTime
  | .pause retries => 0 < retries && retries ≤ termWaitSeconds
  | _ => true

def Costs (n : Nat) (f : Frame) (t : State) : Outcome Frame Exn → Prop
  | .goto g =>
    g.inHandler = true ∧ 1 + g.fuel t.pids.length ≤ f.fuel n ∧ f.pausing + g.pauses ≤ f.pauses
  | _ => 1 ≤ f.fuel n ∧ f.pausing ≤ f.pauses

theorem Sweep.fuel_mono {w : Sweep} (h : m ≤ n) : w.fuel m ≤ w.fuel n := by
  cases w with
  | chld kill =>
    rw [Sweep.fuel, Sweep.fuel]
    omega
  | term retries => exact Nat.add_le_add_right (roundFuel_mono h) 3

theorem iterate_costs (h : r.At s (.iterate l list index))
    (he : exec (.iterate l list index) s b = some (t, o)) :
    Costs s.pids.length (.iterate l list index) t o := by
  obtain ⟨rfl, _, _⟩ := h
  rw [exec, ← State.pids] at he
  cases hp : s.pids[index]? with
  | some pid =>
    simp only [hp] at he
    cases he
    have hi := (List.getElem?_eq_some_iff.1 hp).1
    refine ⟨rfl, ?_, Nat.le_of_eq (Nat.zero_add _)⟩
    rw [Frame.fuel, Frame.fuel]
    omega
  | none =>
    simp only [hp] at he
    cases he
    cases l with
    | usr1 => exact ⟨Nat.le_add_left .., Nat.zero_le _⟩
    | term =>
      refine ⟨rfl, ?_, Nat.le_of_eq (Nat.zero_add _)⟩
      rw [Frame.fuel, Frame.fuel, Loop.fuel]
      omega
    | kill a =>
      refine ⟨rfl, ?_, Nat.zero_le _⟩
      rw [Frame.fuel, Frame.fuel, Loop.fuel]
      omega

theorem trying_costs (he : exec (.trying l list index pid) s b = some (t, o)) :
    Costs s.pids.length (.trying l list index pid) t o := by
  simp only [exec] at he
  split at he
  · cases he
    refine ⟨rfl, ?_, Nat.le_of_eq (Nat.zero_add _)⟩
    change 1 + (4 * (s.pids.length - index) + 2 + l.fuel s.pids.length) ≤ _
    rw [Frame.fuel]
    omega
  · cases he
    refine ⟨rfl, ?_, Nat.le_of_eq (Nat.zero_add _)⟩
    change 1 + (4 * (s.pids.length - index) + 1 + l.fuel s.pids.length) ≤ _
    rw [Frame.fuel]
    omega

theorem Sweep.next_costs {w : Sweep} (hw : w.inTime = true) :
    w.next.inHandler = true ∧ 1 + w.next.fuel n ≤ 1 + w.fuel n ∧ w.next.pauses ≤ w.pauses := by
  match w with
  | .chld true =>
    refine ⟨rfl, ?_, Nat.zero_le _⟩
    rw [Sweep.next, Frame.fuel, Loop.fuel, Sweep.fuel]
  | .chld false =>
    refine ⟨rfl, ?_, Nat.zero_le _⟩
    rw [Sweep.next, Frame.fuel, Sweep.fuel]
    omega
  | .term _ => exact ⟨hw, Nat.le_refl _, Nat.le_refl _⟩

theorem check_costs (hw : w.inTime = true)
    (he : exec (.check w (pid :: pids)) s b = some (t, o)) :
    Costs s.pids.length (.check w (pid :: pids)) t o := by
  rw [exec, State.waitpid] at he
  split at he
  · next hp =>
    split at hp <;> cases hp
    cases he
    refine ⟨hw, ?_, Nat.le_of_eq (Nat.zero_add _)⟩
    rw [Frame.fuel, Frame.fuel, List.length_cons]
    omega
  · next hp =>
    split at hp <;> cases hp
    cases he
    refine ⟨hw, ?_, Nat.le_of_eq (Nat.zero_add _)⟩
    change 1 + (3 * pids.length + 3 + w.fuel s.pids.length) ≤ _
    rw [Frame.fuel, List.length_cons]
    omega
  · cases he
    refine ⟨?_, Nat.zero_le _⟩
    rw [Frame.fuel]
    omega

theorem removing_costs (hl : list = s.pidList) (hw : w.inTime = true)
    (he : exec (.removing w list pid status pids) s b = some (t, o)) :
    Costs s.pids.length (.removing w list pid status pids) t o := by
  subst hl
  rw [exec] at he
  split at he
  · cases he
    have hm : w.fuel (s.pids.erase pid).length ≤ w.fuel s.pids.length :=
      Sweep.fuel_mono (List.erase_sublist.length_le)
    cases w with
    | chld kill =>
      refine ⟨rfl, ?_, Nat.zero_le _⟩
      rw [Frame.fuel, Frame.fuel, pids_setList]
      exact (Nat.add_le_add_left (Nat.add_le_add_left hm _) 1).trans (by omega)
    | term retries =>
      refine ⟨hw, ?_, Nat.le_of_eq (Nat.zero_add _)⟩
      rw [Frame.fuel, Frame.fuel, pids_setList]
      exact (Nat.add_le_add_left (Nat.add_le_add_left hm _) 1).trans (by omega)
  · cases he
    refine ⟨?_, Nat.zero_le _⟩
    rw [Frame.fuel]
    omega

theorem tested_costs (hw : w.inTime = true) (he : exec (.tested w list) s b = some (t, o)) :
    Costs s.pids.length (.tested w list) t o := by
  rw [exec] at he
  cases w with
  | chld kill =>
    split at he
    · cases he
      exact ⟨rfl, Nat.le_refl _, Nat.zero_le _⟩
    · cases he
      exact ⟨Nat.le_succ 1, Nat.zero_le _⟩
  | term retries =>
    have hr : retries < termWaitSeconds := of_decide_eq_true hw
    split at he
    · cases he
      exact ⟨rfl, by rw [Frame.fuel, Sweep.empty, Frame.fuel]; omega, Nat.zero_le _⟩
    · cases he
      refine ⟨?_, Nat.le_of_eq (Nat.add_comm _ _), ?_⟩
      · exact Bool.and_eq_true_iff.2 ⟨rfl, decide_eq_true hr⟩
      · change 0 + (termWaitSeconds + 1 - (retries + 1)) ≤ termWaitSeconds - retries
        omega

theorem round_costs (he : exec (.round retries) s b = some (t, o)) :
    Costs s.pids.length (.round retries) t o := by
  rw [exec] at he
  split at he
  · next hr =>
    cases he
    refine ⟨decide_eq_true hr, ?_, Nat.le_of_eq (Nat.zero_add _)⟩
    rw [Frame.fuel, Frame.fuel, Sweep.fuel, roundFuel_succ hr]
    omega
  · cases he
    refine ⟨rfl, ?_, Nat.zero_le _⟩
    have hf : 4 * s.pids.length + 7 ≤ roundFuel s.pids.length retries := le_roundFuel
    rw [Frame.fuel, Frame.fuel, Loop.fuel]
    omega

theorem Caller.next_costs (hc : decide (c = Caller.sighup) = true) (hf : 1 ≤ f.fuel n) :
    f.pausing = 0 → Costs n f t c.next := by
  intro hp
  cases c with
  | main => cases hc
  | sighup => exact ⟨hf, hp ▸ Nat.zero_le _⟩

theorem exec_costs (h : r.At s f) (hf : f.inHandler = true) (he : exec f s b = some (t, o)) :
    Costs s.pids.length f t o := by
  cases f with
  | sleep => cases hf
  | environ c | putenv c epoch | increment c | store c epoch | append c pid =>
    cases he
    exact ⟨hf, Nat.le_refl _, Nat.zero_le _⟩
  | fork c =>
    rw [exec] at he
    split at he
    · cases he
      exact ⟨hf, Nat.le_refl _, Nat.zero_le _⟩
    · cases he
      exact ⟨Nat.le_add_left 1 2, Nat.zero_le _⟩
  | appending c list pid =>
    cases he
    exact Caller.next_costs hf (Nat.le_refl 1) rfl
  | uninstall l | loop l =>
    cases he
    refine ⟨rfl, ?_, Nat.le_of_eq (Nat.zero_add _)⟩
    change 1 + (4 * s.pids.length + _ + l.fuel s.pids.length) ≤ _
    rw [Frame.fuel]
    omega
  | iterate l list index => exact iterate_costs h he
  | chosen l list index pid | tried l list index =>
    cases he
    refine ⟨rfl, ?_, Nat.le_of_eq (Nat.zero_add _)⟩
    rw [Frame.fuel, Frame.fuel]
    omega
  | trying l list index pid => exact trying_costs he
  | clear a =>
    cases he
    cases a with
    | sigchld => exact ⟨rfl, Nat.le_refl _, Nat.zero_le _⟩
    | exit code => exact ⟨rfl, Nat.le_add_left 2 2, Nat.zero_le _⟩
  | snapshot w =>
    cases he
    refine ⟨hf, ?_, Nat.le_of_eq (Nat.zero_add _)⟩
    rw [Frame.fuel, Frame.fuel]
    omega
  | copy w list =>
    cases he
    obtain ⟨rfl, _⟩ := h
    refine ⟨hf, ?_, Nat.le_of_eq (Nat.zero_add _)⟩
    change 1 + (3 * s.pids.length + 1 + w.fuel s.pids.length) ≤ _
    rw [Frame.fuel]
    omega
  | check w pids =>
    cases pids with
    | nil =>
      cases he
      obtain ⟨hi, hl, hp⟩ := @Sweep.next_costs s.pids.length w hf
      refine ⟨hi, ?_, (Nat.le_of_eq (Nat.zero_add _)).trans hp⟩
      rw [Frame.fuel, List.length_nil, Nat.mul_zero, Nat.zero_add]
      exact hl
    | cons pid pids => exact check_costs hf he
  | remove w pid status pids =>
    cases he
    refine ⟨hf, ?_, Nat.le_of_eq (Nat.zero_add _)⟩
    rw [Frame.fuel, Frame.fuel]
    omega
  | removing w list pid status pids => exact removing_costs h.1 hf he
  | test w =>
    cases he
    cases w with
    | chld kill => exact ⟨rfl, Nat.le_refl _, Nat.zero_le _⟩
    | term retries =>
      refine ⟨hf, ?_, Nat.le_of_eq (Nat.zero_add _)⟩
      rw [Frame.fuel, Frame.fuel]
      omega
  | tested w list => exact tested_costs hf he
  | round retries => exact round_costs he
  | pause retries =>
    cases he
    obtain ⟨_, hr⟩ := Bool.and_eq_true_iff.1 hf
    have hr : retries ≤ termWaitSeconds := of_decide_eq_true hr
    refine ⟨rfl, Nat.le_of_eq (Nat.add_comm _ _), ?_⟩
    rw [Frame.pausing, Frame.pauses, Frame.pauses]
    omega
  | exit code =>
    cases he
    exact ⟨Nat.le_refl 1, Nat.zero_le _⟩

def Setting.Inside (r : Setting) (s : State) (f : Frame) : Prop :=
  r.At s f ∧ f.inHandler = true

theorem Setting.bounded (r : Setting) (hr : r.failures = true) :
    (program v).Bounded r.Inside (fun _ => 1) (fun s f => f.fuel s.pids.length) where
  exec := by
    rintro f s b ⟨t, o⟩ ⟨h, hf⟩ he
    have hl := r.leads h (fun _ => hr) he
    have hc := exec_costs h hf he
    cases o with
    | goto g => exact ⟨⟨hl, hc.1⟩, hc.2.1⟩
    | ret => exact hc.1
    | raise e => exact ⟨exec_raise he, hc.1⟩
  world := by
    rintro x s t f ⟨h, hf⟩ hw
    have hl := world_later hw
    exact ⟨⟨hl.at h, hf⟩, by rw [hl.pids]⟩

theorem Setting.pauses_bounded (r : Setting) (hr : r.failures = true) :
    (program v).Bounded r.Inside Frame.pausing (fun _ f => f.pauses) where
  exec := by
    rintro f s b ⟨t, o⟩ ⟨h, hf⟩ he
    have hl := r.leads h (fun _ => hr) he
    have hc := exec_costs h hf he
    cases o with
    | goto g => exact ⟨⟨hl, hc.1⟩, hc.2.2⟩
    | ret => exact hc.2
    | raise e => exact ⟨exec_raise he, hc.2⟩
  world := by
    rintro x s t f ⟨h, hf⟩ hw
    exact ⟨⟨(world_later hw).at h, hf⟩, Nat.le_refl _⟩

def Signal.fuel (v : Version) (n : Nat) : Signal → Nat
  | .sigterm =>
    match v with
    | .helper => 98 * n + 220
    | .cadfael => 4 * n + 7
  | .sighup => 7
  | .sigusr1 => 4 * n + 2
  | .sigchld => 7 * n + 10
  | .sigkill => 0

theorem enter_inside (he : enter v g s = some (t, f)) :
    f.inHandler = true ∧ f.fuel t.pids.length = g.fuel v s.pids.length := by
  cases g with
  | sigterm =>
    cases v with
    | helper =>
      cases he
      refine ⟨rfl, ?_⟩
      rw [Frame.fuel, Loop.fuel, roundFuel, Signal.fuel, termWaitSeconds]
      omega
    | cadfael =>
      cases he
      refine ⟨rfl, ?_⟩
      rw [Frame.fuel, Loop.fuel, Signal.fuel]
  | sighup =>
    cases he
    exact ⟨rfl, rfl⟩
  | sigusr1 =>
    cases he
    exact ⟨rfl, rfl⟩
  | sigchld =>
    rw [enter, Option.ite_none_right_eq_some] at he
    cases he.2
    refine ⟨rfl, ?_⟩
    change 3 * s.pids.length + 3 + (4 * s.pids.length + 7) = 7 * s.pids.length + 10
    omega
  | sigkill => cases he

theorem exec_isSome (f : Frame) (s : State) (b : Bool) : (exec f s b).isSome = true := by
  cases f with
  | fork c =>
    rw [exec]
    split <;> rfl
  | iterate l list index =>
    rw [exec]
    split <;> rfl
  | trying l list index pid =>
    simp only [exec]
    split <;> rfl
  | check w pids =>
    cases pids with
    | nil => rfl
    | cons pid pids =>
      rw [exec]
      split <;> rfl
  | removing w list pid status pids =>
    rw [exec]
    split <;> rfl
  | _ => rfl

theorem restarter_goes_on (h : c.stack = f :: fs) :
    ∃ d, (restarter v).step c (.exec true) = some d := by
  obtain ⟨s, _, o⟩ := c
  cases h
  obtain ⟨r, hr⟩ := Option.isSome_iff_exists.1 (exec_isSome f s true)
  exact ⟨_, Program.step_iff.2 (.exec hr)⟩

theorem entered_inside (h : (restarter v).Path OneAtATime start ls c) (hc : c.stack = [.sleep])
    (he : enter v g c.state = some (s, f)) : (Setting.any v).Inside s f :=
  ⟨(OneAtATime.atRest h hc).entered Setting.any_ok he, (enter_inside he).1⟩

/-- A handler that is entered at rest, and in which no other one is entered, takes a number of
statements that depends on the number of children alone, whatever these do. -/
theorem handler_finishes (h : (restarter v).Path OneAtATime start ls c) (hc : c.stack = [.sleep])
    (he : enter v g c.state = some (s, f))
    (hr : (restarter v).Path (Within 1) ⟨s, [f, .sleep], none⟩ ls' d) :
    ls'.countP Event.isExec ≤ g.fuel v c.state.pids.length ∧
      (1 < d.stack.length → ∃ e, (restarter v).step d (.exec true) = some e) := by
  have hi := entered_inside h hc he
  have hw : (restarter v).Path (Within [Frame.sleep].length) ⟨s, f :: [.sleep], none⟩ ls' d := hr
  rw [← Program.spent_one hr, ← (enter_inside he).2]
  rcases ((Setting.any v).bounded rfl).path hi hw with ⟨g', hg, _, hb⟩ | ⟨hd, hb⟩
  · exact ⟨(Nat.le_add_right ..).trans hb, fun _ => restarter_goes_on hg⟩
  · exact ⟨hb, fun hl => absurd hd (Nat.not_le.2 hl)⟩

/-- SIGUSR1 comes to two children. -/
def sigusr1Handler : Config State Frame Exn :=
  ⟨(reach start twoChildren).state, [.loop .usr1, .sleep], none⟩

theorem handler_finishes_sigusr1 :
    (statements 10).countP Event.isExec ≤
        Signal.sigusr1.fuel .helper (reach start twoChildren).state.pids.length ∧
      (1 < (reach sigusr1Handler (statements 10)).stack.length → ∃ e,
        (restarter .helper).step (reach sigusr1Handler (statements 10)) (.exec true) = some e) :=
  handler_finishes twoChildren_alone twoChildren_asleep rfl
    (reach_path (by decide) (by decide))

def Loop.terminating : Loop → Bool
  | .term | .kill (.exit _) => true
  | _ => false

def Sweep.terminating : Sweep → Bool
  | .chld _ => false
  | .term _ => true

/-- The places that the handler of SIGTERM gets to. -/
def Frame.terminating : Frame → Bool
  | .uninstall l | .loop l | .iterate l _ _ | .chosen l _ _ _ => l.terminating
  | .trying l _ _ _ | .tried l _ _ => l.terminating
  | .clear (.exit _) => true
  | .snapshot w | .copy w _ | .check w _ | .remove w _ _ _ | .removing w _ _ _ _ => w.terminating
  | .test w | .tested w _ => w.terminating
  | .round _ | .pause _ | .exit _ => true
  | _ => false

def Outcome.Terminating : Outcome Frame Exn → Prop
  | .goto g => g.terminating = true
  | .ret => False
  | .raise _ => True

theorem Sweep.terminating_empty {w : Sweep} : w.empty.terminating = true := by
  cases w with
  | chld kill => rfl
  | term retries => rfl

theorem Loop.terminating_next {l : Loop} (hl : l.terminating = true) :
    Outcome.Terminating l.next := by
  cases l with
  | usr1 => cases hl
  | term => exact rfl
  | kill a =>
    cases a with
    | sigchld => cases hl
    | exit code => exact rfl

theorem terminating_exec (hf : f.terminating = true) (he : exec f s b = some (t, o)) :
    Outcome.Terminating o := by
  cases f with
  | uninstall l | loop l | chosen l list index pid | tried l list index =>
    cases he
    exact hf
  | snapshot w | copy w list | remove w pid status pids | test w =>
    cases he
    exact hf
  | iterate l list index =>
    rw [exec] at he
    split at he
    · cases he
      exact hf
    · cases he
      exact Loop.terminating_next hf
  | trying l list index pid =>
    simp only [exec] at he
    split at he
    · cases he
      exact hf
    · cases he
      exact hf
  | clear a =>
    cases he
    cases a with
    | sigchld => cases hf
    | exit code => exact rfl
  | check w pids =>
    cases pids with
    | nil =>
      cases he
      cases w with
      | chld kill => cases hf
      | term retries => exact rfl
    | cons pid pids =>
      rw [exec] at he
      split at he
      · cases he
        exact hf
      · cases he
        exact hf
      · cases he
        trivial
  | removing w list pid status pids =>
    rw [exec] at he
    split at he
    · cases he
      cases w with
      | chld kill => cases hf
      | term retries => exact rfl
    · cases he
      trivial
  | tested w list =>
    rw [exec] at he
    split at he
    · cases he
      exact Sweep.terminating_empty
    · cases he
      cases w with
      | chld kill => cases hf
      | term retries => exact rfl
  | round retries =>
    rw [exec] at he
    split at he
    · cases he
      rfl
    · cases he
      rfl
  | pause retries =>
    cases he
    rfl
  | exit code =>
    cases he
    trivial
  | _ => cases hf

theorem terminating_choice (hf : f.terminating = true) : exec f s b = exec f s true := by
  cases f with
  | fork c => cases hf
  | check w pids =>
    cases pids with
    | nil => rfl
    | cons pid pids => rfl
  | _ => rfl

/-- The setting of what follows a SIGTERM, which forks nothing. -/
def Setting.sigterm (v : Version) : Setting where
  version := v
  terms := true
  failures := false

def terminates (v : Version) : Assertion State Frame Exn where
  frames s fs := ∃ f, fs = [f, .sleep] ∧ (Setting.sigterm v).At s f ∧ f.terminating = true
  rising s e fs :=
    (∀ f ∈ fs, caught f e = none) ∧ ∃ code, e = .systemExit code ∧ (Setting.sigterm v).Ends s code
  ended s e := ∃ code, e = .systemExit code ∧ (Setting.sigterm v).Ends s code

theorem terminates_kept : (program v).Kept (terminates v) Undisturbed where
  exec := by
    rintro f fs s b ⟨t, o⟩ ⟨g, hg, h, hf⟩ _ he
    cases hg
    have he : exec f s true = some (t, o) := (terminating_choice hf).symm.trans he
    have hl := (Setting.sigterm v).leads h (fun hb => (Bool.false_ne_true hb.symm).elim) he
    have ht := terminating_exec hf he
    cases o with
    | goto g => exact ⟨g, rfl, hl, ht⟩
    | ret => exact ht.elim
    | raise e =>
      refine ⟨List.forall_mem_cons.2 ⟨exec_raise he, List.forall_mem_singleton.2 rfl⟩, ?_⟩
      cases e with
      | systemExit code => exact ⟨code, rfl, hl⟩
      | osError => cases hl
      | valueError => exact hl.elim
  past hu _ := ⟨(List.forall_mem_cons.1 hu.1).2, hu.2⟩
  caught hu hc := absurd ((List.forall_mem_cons.1 hu.1).1.symm.trans hc) nofun
  out hu := hu.2
  signal _ hp _ := hp.elim
  world := by
    rintro x fs s t ⟨f, rfl, h, hf⟩ hw
    exact ⟨f, rfl, (world_later hw).at h, hf⟩
  after := by
    rintro x s t e ⟨code, rfl, h⟩ hw
    exact ⟨code, rfl, (world_later hw).ends h⟩

theorem Assertion.Holds.within (ha : (terminates v).Holds c) (hl : Undisturbed c l)
    (hs : (restarter v).step c l = some d) : Within 1 c l := by
  have hs : (program v).step c l = some d := hs
  cases Program.step_iff.1 hs with
  | @exec f s b r fs o he =>
    cases o with
    | none =>
      obtain ⟨g, hg, _⟩ := ha
      cases hg
      exact Nat.lt_succ_self 1
    | some e => cases ha.1
  | signal he => exact hl.elim
  | world hw => trivial

/-- SIGTERM at rest, with no signal after it, ends the script, within a bound and whatever the
children do: until `sys.exit` is reached the script goes on, and it sleeps for no more than
`TERM_WAIT_SECONDS`. -/
theorem sigterm_ends (h : (restarter v).Path OneAtATime start ls c) (hc : c.stack = [.sleep])
    (he : enter v .sigterm c.state = some (s, f))
    (hr : (restarter v).Path Undisturbed ⟨s, [f, .sleep], none⟩ ls' d) :
    ls'.countP Event.isExec ≤ Signal.sigterm.fuel v c.state.pids.length ∧
      (program v).spent Frame.pausing ⟨s, [f, .sleep], none⟩ ls' ≤ termWaitSeconds ∧
      ((∃ e, (restarter v).step d (.exec true) = some e) ∨
        ∃ code, d.ended = some (.systemExit code)) := by
  have hi := entered_inside h hc he
  have hf : f.terminating = true ∧ f.pauses ≤ termWaitSeconds := by
    cases v with
    | helper =>
      cases he
      exact ⟨rfl, Nat.le_refl _⟩
    | cadfael =>
      cases he
      exact ⟨rfl, Nat.zero_le _⟩
  have hk : (Setting.sigterm v).ok (.signal .sigterm) := rfl
  have ha : (terminates v).Holds ⟨s, [f, .sleep], none⟩ :=
    ⟨f, rfl, (OneAtATime.atRest h hc).entered hk he, hf.1⟩
  have hw : (restarter v).Path (Within [Frame.sleep].length) ⟨s, f :: [.sleep], none⟩ ls' d :=
    hr.mono (fun ha hl hs => terminates_kept.step ha hl hs)
      (fun ha hl hs => Assertion.Holds.within ha hl hs) ha
  rw [← Program.spent_one hw, ← (enter_inside he).2]
  refine ⟨?_, ?_, ?_⟩
  · rcases ((Setting.any v).bounded rfl).path hi hw with ⟨g, _, _, hb⟩ | ⟨_, hb⟩
    · exact (Nat.le_add_right ..).trans hb
    · exact hb
  · rcases ((Setting.any v).pauses_bounded rfl).path hi hw with ⟨g, _, _, hb⟩ | ⟨_, hb⟩
    · exact ((Nat.le_add_right ..).trans hb).trans hf.2
    · exact hb.trans hf.2
  · have hd := terminates_kept.path ha hr
    rw [Assertion.Holds] at hd
    split at hd
    · obtain ⟨g, hg, _⟩ := hd
      exact .inl (restarter_goes_on hg)
    · next e he =>
      obtain ⟨_, code, rfl, _⟩ := hd
      exact .inr ⟨code, he⟩

/-- SIGTERM comes to two children, one of which exits. -/
def sigtermHandler : Config State Frame Exn :=
  ⟨(reach start twoChildren).state, [.uninstall .term, .sleep], none⟩

def oneExits : List (Event Bool Signal Outside) :=
  statements 12 ++ [.world (.exits 0 15)] ++ statements 20

theorem sigterm_ends_two :
    oneExits.countP Event.isExec ≤
        Signal.sigterm.fuel .helper (reach start twoChildren).state.pids.length ∧
      (program .helper).spent Frame.pausing sigtermHandler oneExits ≤ termWaitSeconds ∧
      ((∃ e, (restarter .helper).step (reach sigtermHandler oneExits) (.exec true) = some e) ∨
        ∃ code, (reach sigtermHandler oneExits).ended = some (.systemExit code)) :=
  sigterm_ends twoChildren_alone twoChildren_asleep rfl
    (reach_path (by decide) (by decide))

/-- The loop of the handler of SIGUSR1 over the list `pids`, from the log `k`. -/
def ForwardedTo (k : List (Nat × Signal)) (pids : List Nat) (s : State) : Frame → Prop
  | .loop .usr1 => s.pids = pids ∧ s.kills = k
  | .iterate .usr1 list index | .tried .usr1 list index =>
    s.lists list = pids ∧ s.kills = k ++ (pids.take index).map (·, .sigusr1)
  | .chosen .usr1 list index pid | .trying .usr1 list index pid =>
    s.lists list = pids ∧ ∃ i, index = i + 1 ∧ pids[i]? = some pid ∧
      s.kills = k ++ (pids.take i).map (·, .sigusr1)
  | .sleep => s.kills = k ++ pids.map (·, .sigusr1)
  | _ => False

def forwards (k : List (Nat × Signal)) (pids : List Nat) : Assertion State Frame Exn where
  frames s fs :=
    (∃ f, f.forwarding = true ∧ fs = [f, .sleep] ∧ ForwardedTo k pids s f) ∨
      fs = [.sleep] ∧ ForwardedTo k pids s .sleep
  rising _ _ _ := False
  ended _ _ := False

theorem ForwardedTo.frames (h : ForwardedTo k pids s f) (hf : f.forwarding = true) :
    (forwards k pids).frames s [f, .sleep] :=
  .inl ⟨f, hf, rfl, h⟩

theorem forwards_exec (hf : f.forwarding = true) (h : ForwardedTo k pids s f)
    (he : exec f s b = some q) : (forwards k pids).Resumes f [.sleep] q := by
  match f, h with
  | .sleep, _ => cases hf
  | .loop .usr1, h =>
    cases he
    have hk : s.kills = k ++ (pids.take 0).map (·, .sigusr1) := by
      rw [List.take_zero, List.map_nil, List.append_nil]
      exact h.2
    have ht : ForwardedTo k pids s (.iterate .usr1 s.pidList 0) := ⟨h.1, hk⟩
    exact ht.frames rfl
  | .iterate .usr1 list index, h =>
    obtain ⟨rfl, hk⟩ := h
    rw [exec] at he
    split at he
    · next pid hp =>
      cases he
      have ht : ForwardedTo k (s.lists list) s (.chosen .usr1 list (index + 1) pid) :=
        ⟨rfl, index, rfl, hp, hk⟩
      exact ht.frames rfl
    · next hp =>
      cases he
      rw [List.take_of_length_le (List.getElem?_eq_none_iff.1 hp)] at hk
      exact .inr ⟨rfl, hk⟩
  | .chosen .usr1 list index pid, h =>
    cases he
    have ht : ForwardedTo k pids s (.trying .usr1 list index pid) := h
    exact ht.frames rfl
  | .trying .usr1 list _ pid, h =>
    obtain ⟨hl, i, rfl, hp, hk⟩ := h
    have hn : s.kills ++ [(pid, .sigusr1)] = k ++ (pids.take (i + 1)).map (·, .sigusr1) := by
      rw [List.take_add_one, hp, hk, List.append_assoc, List.map_append]
      rfl
    have ht : ForwardedTo k pids { s with kills := s.kills ++ [(pid, .sigusr1)] }
        (.tried .usr1 list (i + 1)) := ⟨hl, hn⟩
    simp only [exec] at he
    split at he
    · cases he
      exact ht.frames rfl
    · cases he
      have hi : ForwardedTo k pids { s with kills := s.kills ++ [(pid, .sigusr1)] }
          (.iterate .usr1 list (i + 1)) := ht
      exact hi.frames rfl
  | .tried .usr1 list index, h =>
    cases he
    have ht : ForwardedTo k pids s (.iterate .usr1 list index) := h
    exact ht.frames rfl

theorem world_same (h : world x s = some t) : t.lists = s.lists ∧ t.pidList = s.pidList ∧
    t.kills = s.kills := by
  cases x with
  | exits pid status =>
    rw [world, Option.ite_none_right_eq_some] at h
    cases h.2
    exact ⟨rfl, rfl, rfl⟩
  | stopped =>
    cases h
    exact ⟨rfl, rfl, rfl⟩

theorem forwards_world (hw : world x s = some t) (h : ForwardedTo k pids s f) :
    ForwardedTo k pids t f := by
  obtain ⟨hl, hp, hk⟩ := world_same hw
  match f, h with
  | .sleep, h => exact hk.trans h
  | .loop .usr1, h =>
    refine ⟨?_, hk.trans h.2⟩
    rw [State.pids, hl, hp]
    exact h.1
  | .iterate .usr1 _ _, h | .tried .usr1 _ _, h => exact ⟨hl ▸ h.1, hk.trans h.2⟩
  | .chosen .usr1 _ _ _, h | .trying .usr1 _ _ _, h =>
    obtain ⟨hs, i, hi, hg, h⟩ := h
    exact ⟨hl ▸ hs, i, hi, hg, hk.trans h⟩

theorem forwards_kept : (program v).Kept (forwards k pids) Undisturbed where
  exec := by
    intro f fs s b q h _ he
    rcases h with ⟨g, hg, hf, h⟩ | ⟨hf, h⟩
    · cases hf
      exact forwards_exec hg h he
    · cases hf
      cases he
      exact .inr ⟨rfl, h⟩
  past h _ := h
  caught h _ := h.elim
  out h := h
  signal _ hp _ := hp.elim
  world := by
    intro x fs s t h hw
    rcases h with ⟨f, hf, hs, h⟩ | ⟨hs, h⟩
    · exact .inl ⟨f, hf, hs, forwards_world hw h⟩
    · exact .inr ⟨hs, forwards_world hw h⟩
  after h _ := h

/-- SIGUSR1 at rest, with no signal after it, goes to every child that is left to watch, once each
and in the order of the forks. -/
theorem sigusr1_forwarded (h : (restarter v).Path OneAtATime start ls c) (hc : c.stack = [.sleep])
    (he : enter v .sigusr1 c.state = some (s, f))
    (hr : (restarter v).Path Undisturbed ⟨s, [f, .sleep], none⟩ ls' d) (hd : d.stack = [.sleep]) :
    d.state.kills = c.state.kills ++ c.state.unreaped.map (·, .sigusr1) := by
  cases he
  have hl : ForwardedTo c.state.kills c.state.pids c.state (.loop .usr1) := ⟨rfl, rfl⟩
  have ha : (forwards c.state.kills c.state.pids).Holds ⟨c.state, [.loop .usr1, .sleep], none⟩ :=
    hl.frames rfl
  have hh := forwards_kept.path ha hr
  rw [Assertion.Holds, hd] at hh
  rw [← (OneAtATime.atRest h hc).watching.tracked]
  split at hh
  · rcases hh with ⟨f, hf, hs, _⟩ | ⟨_, h⟩
    · cases hs
    · exact h
  · exact hh.2.elim

theorem sigusr1_forwarded_two :
    (reach sigusr1Handler (statements 10)).state.kills =
      (reach start twoChildren).state.kills ++
        (reach start twoChildren).state.unreaped.map (·, .sigusr1) :=
  sigusr1_forwarded twoChildren_alone twoChildren_asleep rfl
    (reach_path (by decide) (by decide)) (by decide)

end HotRestarter
