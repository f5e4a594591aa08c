import SpiffeExample.HotRestarter

namespace HotRestarter
set_option autoImplicit true

open Interrupts Transition

/-- The handler of SIGUSR1 changes nothing that the other calls read. -/
def Frame.forwarding : Frame → Bool
  | .loop .usr1 | .iterate .usr1 _ _ | .chosen .usr1 _ _ _ => true
  | .trying .usr1 _ _ _ | .tried .usr1 _ _ => true
  | _ => false

def Frame.inTry : Frame → Bool
  | .trying _ _ _ _ | .tried _ _ _ => true
  | _ => false

/-- A call that a handler of another signal may be entered over: `time.sleep` in `main`, and with
`nested` a handler of SIGUSR1 outside of its `try` block. -/
def Frame.resting (nested : Bool) (f : Frame) : Bool :=
  f = .sleep || nested && f.forwarding

def Numbered (s : State) : Prop :=
  s.children.map Child.epoch = (List.range s.children.length).map some

def Normal (s : State) : Prop :=
  ∀ pid status, s.life pid = some (.reaped status) → abnormal status = false

def Failed (s : State) : Prop :=
  ∃ pid status, s.life pid = some (.reaped status) ∧ abnormal status = true

def Sent (s : State) (g : Signal) (pids : List Nat) : Prop :=
  ∀ pid ∈ pids, (pid, g) ∈ s.kills

/-- Every child whose exit has not been collected has been killed. -/
def Killed (s : State) : Prop :=
  Sent s .sigkill s.unreaped

/-- Where no SIGCHLD waits for its handler, no exit waits to be collected. -/
def Calm (s : State) : Prop :=
  s.handled = true ∧ (s.pending = false → ∀ pid ∈ s.unreaped, s.life pid = some .running)

/-- The restarter between two changes of its list, `ahead` epochs after the last fork. -/
structure Watching (s : State) (ahead : Nat) : Prop where
  tracked : s.pids = s.unreaped
  calm : Calm s
  numbered : Numbered s
  next : s.restartEpoch = s.children.length + ahead
  normal : Normal s

structure AtRest (s : State) : Prop where
  watching : Watching s 0
  nonempty : s.pids ≠ []

/-- A child that is not in the list yet. -/
structure Forked (s : State) (pid : Nat) : Prop where
  tracked : s.unreaped = s.pids ++ [pid]
  calm : Calm s
  numbered : Numbered s
  next : s.restartEpoch = s.children.length
  normal : Normal s

/-- What differs between the runs: the script, whether SIGTERM may come, and whether a fork may
fail. -/
structure Setting where
  version : Version
  terms : Bool
  failures : Bool

def Setting.Terminates (r : Setting) (v : Version) : Prop :=
  r.terms = true ∧ r.version = v

def Setting.Cause (r : Setting) (s : State) : After → Prop
  | .sigchld => Failed s
  | .exit code => r.Terminates .helper ∧ code = 1 ∨ r.Terminates .cadfael ∧ code = 0

def Setting.Looping (r : Setting) (s : State) : Loop → Prop
  | .usr1 => AtRest s
  | .term => s.pids = s.unreaped ∧ r.Terminates .helper
  | .kill a => s.pids = s.unreaped ∧ r.Cause s a

/-- `kept` are the pids whose children the sweep has found running. -/
def Setting.Sweeping (r : Setting) (s : State) (kept : List Nat) : Sweep → Prop
  | .chld kill =>
    s.handled = true ∧ (s.pending = false → ∀ pid ∈ kept, s.life pid = some .running) ∧
      Numbered s ∧ s.restartEpoch = s.children.length ∧ (kill = true ↔ Failed s)
  | .term _ => r.Terminates .helper ∧ Sent s .sigterm s.unreaped

def Setting.Testing (r : Setting) (s : State) : Sweep → Prop
  | .chld true => s.pids = [] ∧ Killed s ∧ Failed s
  | .chld false => Watching s 0
  | .term retries => s.pids = s.unreaped ∧ r.Sweeping s [] (.term retries)

/-- The meaning of the script's exit code. -/
inductive Setting.Ends (r : Setting) (s : State) : Nat → Prop where
  | done : s.unreaped = [] → Normal s → r.Ends s 0
  | failed : Killed s → Failed s → r.Ends s 1
  | terminated : r.Terminates .helper → s.unreaped = [] → r.Ends s 0
  | forced : r.Terminates .helper → Killed s → r.Ends s 1
  | killed : r.Terminates .cadfael → Killed s → r.Ends s 0

/-- The invariant of each place in the script. -/
def Setting.At (r : Setting) (s : State) : Frame → Prop
  | .sleep => AtRest s
  | .environ _ => Watching s 0
  | .putenv _ epoch => Watching s 0 ∧ epoch = s.restartEpoch
  | .increment _ => Watching s 0 ∧ s.environ = some s.restartEpoch
  | .store _ epoch => Watching s 0 ∧ s.environ = some epoch ∧ epoch = s.restartEpoch
  | .fork _ => Watching s 1 ∧ s.environ = some s.children.length
  | .append _ pid => Forked s pid
  | .appending _ list pid => list = s.pidList ∧ Forked s pid
  | .uninstall l => l ≠ .usr1 ∧ r.Looping s l
  | .loop l => r.Looping s l
  | .iterate l list index | .tried l list index =>
    list = s.pidList ∧ r.Looping s l ∧ Sent s l.signal (s.pids.take index)
  | .chosen l list index pid | .trying l list index pid =>
    list = s.pidList ∧ r.Looping s l ∧
      ∃ i, index = i + 1 ∧ s.pids[i]? = some pid ∧ Sent s l.signal (s.pids.take i)
  | .clear a => Killed s ∧ r.Cause s a
  | .snapshot w => s.pids = s.unreaped ∧ r.Sweeping s [] w
  | .copy w list => list = s.pidList ∧ s.pids = s.unreaped ∧ r.Sweeping s [] w
  | .check w pids => s.pids = s.unreaped ∧ ∃ kept, s.pids = kept ++ pids ∧ r.Sweeping s kept w
  | .remove w pid status pids =>
    ∃ kept, s.pids = kept ++ pid :: pids ∧ pid ∉ kept ∧ s.unreaped = kept ++ pids ∧
      r.Sweeping s kept (w.collect status)
  | .removing w list pid status pids =>
    list = s.pidList ∧ ∃ kept, s.pids = kept ++ pid :: pids ∧ pid ∉ kept ∧
      s.unreaped = kept ++ pids ∧ r.Sweeping s kept (w.collect status)
  | .test w => r.Testing s w
  | .tested w list => list = s.pidList ∧ r.Testing s w
  | .round retries | .pause retries =>
    s.pids = s.unreaped ∧ r.Sweeping s [] (.term retries)
  | .exit code => r.Ends s code

/-- A fork that fails is the only error. -/
def Setting.Raised (r : Setting) (s : State) : Exn → Prop
  | .systemExit code => r.Ends s code
  | .osError => r.failures = true
  | .valueError => False

/-- What a child's exit and a signal to a child leave as it was. -/
structure Later (s t : State) : Prop where
  lists : t.lists = s.lists
  pidList : t.pidList = s.pidList
  restartEpoch : t.restartEpoch = s.restartEpoch
  environ : t.environ = s.environ
  handled : t.handled = s.handled
  epochs : t.children.map Child.epoch = s.children.map Child.epoch
  killable : t.killable = s.killable
  reaped : ∀ {pid status}, t.life pid = some (.reaped status) ↔ s.life pid = some (.reaped status)
  kills : s.kills ⊆ t.kills
  calm : s.handled = true → t.pending = false → s.pending = false ∧ t.life = s.life

theorem Later.refl : Later s s where
  lists := rfl
  pidList := rfl
  restartEpoch := rfl
  environ := rfl
  handled := rfl
  epochs := rfl
  killable := rfl
  reaped := .rfl
  kills := List.Subset.refl _
  calm _ h := ⟨h, rfl⟩

theorem Later.arrive : Later s s.arrive where
  lists := rfl
  pidList := rfl
  restartEpoch := rfl
  environ := rfl
  handled := rfl
  epochs := rfl
  killable := rfl
  reaped := .rfl
  kills := List.Subset.refl _
  calm _ h := ⟨(Bool.or_eq_false_iff.1 h).1, rfl⟩

theorem Later.kill : Later s { s with kills := s.kills ++ l } where
  lists := rfl
  pidList := rfl
  restartEpoch := rfl
  environ := rfl
  handled := rfl
  epochs := rfl
  killable := rfl
  reaped := .rfl
  kills := List.subset_append_left ..
  calm _ h := ⟨h, rfl⟩

theorem Later.exits (hr : s.life pid = some .running) :
    Later s (s.setLife pid (.zombie status)).arrive where
  lists := rfl
  pidList := rfl
  restartEpoch := rfl
  environ := rfl
  handled := rfl
  epochs := State.epochs_setLife
  killable := by
    funext p
    change (s.setLife pid (.zombie status)).killable p = s.killable p
    rw [State.killable, State.killable, State.life_setLife]
    by_cases hp : pid = p
    · rw [if_pos hp, ← hp, hr]
      rfl
    · rw [if_neg hp]
  reaped := by
    intro p st
    change (s.setLife pid (.zombie status)).life p = _ ↔ _
    rw [State.life_setLife]
    by_cases hp : pid = p
    · rw [if_pos hp, ← hp, hr]
      apply iff_of_false
      · intro h
        cases h
      · intro h
        cases h
    · rw [if_neg hp]
  kills := List.Subset.refl _
  calm hh hp := by
    have hf : (s.pending || s.handled) = false := hp
    rw [hh, Bool.or_true] at hf
    cases hf

section Later

variable {s t : State} {r : Setting}

theorem Later.pids (h : Later s t) : t.pids = s.pids := by
  rw [State.pids, State.pids, h.lists, h.pidList]

theorem Later.length (h : Later s t) : t.children.length = s.children.length := by
  have he := congrArg List.length h.epochs
  simpa only [List.length_map] using he

theorem Later.unreaped (h : Later s t) : t.unreaped = s.unreaped := by
  rw [State.unreaped, State.unreaped, h.length, h.killable]

theorem Later.numbered (h : Later s t) (hs : Numbered s) : Numbered t := by
  rw [Numbered, h.epochs, h.length]
  exact hs

theorem Later.normal (h : Later s t) (hs : Normal s) : Normal t :=
  fun pid status hl => hs pid status (h.reaped.1 hl)

theorem Later.failed_iff (h : Later s t) : Failed t ↔ Failed s := by
  simp only [Failed, h.reaped]

theorem Later.sent {pids : List Nat} (h : Later s t) (hs : Sent s g pids) : Sent t g pids :=
  fun pid hp => h.kills (hs pid hp)

theorem Later.killed (h : Later s t) (hs : Killed s) : Killed t := by
  rw [Killed, h.unreaped]
  exact h.sent hs

theorem Later.running {pids : List Nat} (h : Later s t) (hh : s.handled = true)
    (hs : s.pending = false → ∀ pid ∈ pids, s.life pid = some .running) :
    t.pending = false → ∀ pid ∈ pids, t.life pid = some .running := by
  intro hp
  obtain ⟨hp, hl⟩ := h.calm hh hp
  rw [hl]
  exact hs hp

theorem Later.calmly (h : Later s t) (hs : Calm s) : Calm t := by
  obtain ⟨hh, hr⟩ := hs
  rw [Calm, h.handled, h.unreaped]
  exact ⟨hh, h.running hh hr⟩

theorem Later.watching (h : Later s t) (hs : Watching s n) : Watching t n where
  tracked := by rw [h.pids, h.unreaped, hs.tracked]
  calm := h.calmly hs.calm
  numbered := h.numbered hs.numbered
  next := by rw [h.restartEpoch, h.length, hs.next]
  normal := h.normal hs.normal

theorem Later.atRest (h : Later s t) (hs : AtRest s) : AtRest t where
  watching := h.watching hs.watching
  nonempty := by
    rw [h.pids]
    exact hs.nonempty

theorem Later.forked (h : Later s t) (hs : Forked s pid) : Forked t pid where
  tracked := by rw [h.pids, h.unreaped, hs.tracked]
  calm := h.calmly hs.calm
  numbered := h.numbered hs.numbered
  next := by rw [h.restartEpoch, h.length, hs.next]
  normal := h.normal hs.normal

theorem Later.cause (h : Later s t) (hs : r.Cause s a) : r.Cause t a := by
  cases a with
  | sigchld => exact h.failed_iff.2 hs
  | exit code => exact hs

theorem Later.looping (h : Later s t) (hs : r.Looping s l) : r.Looping t l := by
  cases l with
  | usr1 => exact h.atRest hs
  | term => exact ⟨by rw [h.pids, h.unreaped, hs.1], hs.2⟩
  | kill a => exact ⟨by rw [h.pids, h.unreaped, hs.1], h.cause hs.2⟩

theorem Later.sweeping (h : Later s t) (hs : r.Sweeping s kept w) : r.Sweeping t kept w := by
  cases w with
  | chld kill =>
    obtain ⟨hh, hr, hn, he, hk⟩ := hs
    refine ⟨h.handled.trans hh, h.running hh hr, h.numbered hn, ?_, hk.trans h.failed_iff.symm⟩
    rw [h.restartEpoch, h.length, he]
  | term retries =>
    refine ⟨hs.1, ?_⟩
    rw [h.unreaped]
    exact h.sent hs.2

theorem Later.testing (h : Later s t) (hs : r.Testing s w) : r.Testing t w := by
  match w with
  | .chld true => exact ⟨h.pids.trans hs.1, h.killed hs.2.1, h.failed_iff.2 hs.2.2⟩
  | .chld false => exact h.watching hs
  | .term _ => exact ⟨by rw [h.pids, h.unreaped, hs.1], h.sweeping hs.2⟩

theorem Later.ends (h : Later s t) (hs : r.Ends s code) : r.Ends t code := by
  cases hs with
  | done hu hn => exact .done (h.unreaped.trans hu) (h.normal hn)
  | failed hk hf => exact .failed (h.killed hk) (h.failed_iff.2 hf)
  | terminated hv hu => exact .terminated hv (h.unreaped.trans hu)
  | forced hv hk => exact .forced hv (h.killed hk)
  | killed hv hk => exact .killed hv (h.killed hk)

theorem Later.raised (h : Later s t) (hs : r.Raised s e) : r.Raised t e := by
  cases e with
  | systemExit code => exact h.ends hs
  | osError => exact hs
  | valueError => exact hs

theorem Later.at (h : Later s t) (hs : r.At s f) : r.At t f := by
  cases f with
  | sleep => exact h.atRest hs
  | environ c => exact h.watching hs
  | putenv c epoch => exact ⟨h.watching hs.1, hs.2.trans h.restartEpoch.symm⟩
  | increment c =>
    refine ⟨h.watching hs.1, ?_⟩
    rw [h.environ, h.restartEpoch, hs.2]
  | store c epoch =>
    exact ⟨h.watching hs.1, h.environ.trans hs.2.1, hs.2.2.trans h.restartEpoch.symm⟩
  | fork c =>
    refine ⟨h.watching hs.1, ?_⟩
    rw [h.environ, h.length, hs.2]
  | append c pid => exact h.forked hs
  | appending c list pid => exact ⟨hs.1.trans h.pidList.symm, h.forked hs.2⟩
  | uninstall l => exact ⟨hs.1, h.looping hs.2⟩
  | loop l => exact h.looping hs
  | iterate l list index | tried l list index =>
    refine ⟨hs.1.trans h.pidList.symm, h.looping hs.2.1, ?_⟩
    rw [h.pids]
    exact h.sent hs.2.2
  | chosen l list index pid | trying l list index pid =>
    obtain ⟨hl, hp, i, hi, hg, hk⟩ := hs
    refine ⟨hl.trans h.pidList.symm, h.looping hp, i, hi, ?_⟩
    rw [h.pids]
    exact ⟨hg, h.sent hk⟩
  | clear a => exact ⟨h.killed hs.1, h.cause hs.2⟩
  | snapshot w => exact ⟨by rw [h.pids, h.unreaped, hs.1], h.sweeping hs.2⟩
  | copy w list =>
    exact ⟨hs.1.trans h.pidList.symm, by rw [h.pids, h.unreaped, hs.2.1], h.sweeping hs.2.2⟩
  | check w pids =>
    obtain ⟨hu, kept, hp, hw⟩ := hs
    exact ⟨by rw [h.pids, h.unreaped, hu], kept, h.pids.trans hp, h.sweeping hw⟩
  | remove w pid status pids =>
    obtain ⟨kept, hp, hn, hu, hw⟩ := hs
    exact ⟨kept, h.pids.trans hp, hn, h.unreaped.trans hu, h.sweeping hw⟩
  | removing w list pid status pids =>
    obtain ⟨hl, kept, hp, hn, hu, hw⟩ := hs
    exact ⟨hl.trans h.pidList.symm, kept, h.pids.trans hp, hn, h.unreaped.trans hu, h.sweeping hw⟩
  | test w => exact h.testing hs
  | tested w list => exact ⟨hs.1.trans h.pidList.symm, h.testing hs.2⟩
  | round retries | pause retries =>
    exact ⟨by rw [h.pids, h.unreaped, hs.1], h.sweeping hs.2⟩
  | exit code => exact h.ends hs

end Later

end HotRestarter
