import SpiffeExample.X509
import SpiffeExample.Transition

namespace SpiffeExample
set_option autoImplicit true

structure AclFile where
  content : String
  mtime : Nat
  present : Bool
  readable : Bool
  deriving DecidableEq

namespace AclFile

/-- `File.lastModified`, which is 0 for a file that does not exist. -/
def lastModified (file : AclFile) : Nat :=
  if file.present then file.mtime else 0

def canRead (file : AclFile) : Bool :=
  file.present && file.readable

/-- The lines from here on, where `line` holds the characters of the current one in reverse. -/
def linesFrom (line : List Char) : List Char → List String
  | [] => if line.isEmpty then [] else [String.ofList line.reverse]
  | '\r' :: '\n' :: rest => String.ofList line.reverse :: linesFrom [] rest
  | c :: rest =>
    if c = '\n' ∨ c = '\r' then String.ofList line.reverse :: linesFrom [] rest
    else linesFrom (c :: line) rest

def lines (file : AclFile) : List String :=
  linesFrom [] file.content.toList

example : lines ⟨"a\r\n\nb", 0, true, true⟩ = ["a", "", "b"] := by decide

theorem lastModified_le (file : AclFile) : file.lastModified ≤ file.mtime := by
  rw [lastModified]
  split
  · exact Nat.le_refl _
  · exact Nat.zero_le _

theorem lastModified_canRead (h : canRead file = true) : file.lastModified = file.mtime := by
  rw [canRead, Bool.and_eq_true] at h
  rw [lastModified, if_pos h.1]

end AclFile

/-- `Character.isWhitespace` -/
def isWhitespace (c : Char) : Bool :=
  let n := c.toNat
  (9 ≤ n && n ≤ 13) || (28 ≤ n && n ≤ 32) || n == 0x1680 ||
    (0x2000 ≤ n && n ≤ 0x200a && n != 0x2007) || n == 0x2028 || n == 0x2029 ||
    n == 0x205f || n == 0x3000

/-- `StringUtils.isBlank` -/
def isBlank : Option String → Bool
  | none => true
  | some s => s.toList.all isWhitespace

def Validate.isTrue (expression : Bool) (message : String) : Except Throwable Unit :=
  if expression then .ok () else .error (.illegalArgumentException message)

/-- What the program does next: load the list or read the modification time in the
constructors, wait for the timer, or one of the two later steps of `FileWatcher.run`. -/
inductive Pc where
  | aclManager
  | fileWatcher
  | scheduled
  | compare (timeStamp : Nat)
  | onChange
  | failed (e : Throwable)
  | cancelled (e : Throwable)
  deriving DecidableEq

structure ACLManager where
  aclFile : Option String
  file : AclFile
  allowedSpiffeIds : List String
  timeStamp : Nat
  pc : Pc
  deriving DecidableEq

namespace ACLManager
open Transition

def isAllowed (m : ACLManager) (spiffeId : String) : Bool :=
  m.allowedSpiffeIds.contains spiffeId

def loadList (file : AclFile) : Except Throwable (List String) :=
  if file.canRead then .ok file.lines else .error (.illegalStateException .ioException)

def initialList (m : ACLManager) : Except Throwable (List String) := do
  Validate.isTrue (!isBlank m.aclFile) "Trusted Services list file is not configured"
  loadList m.file

/-- One step of the constructors or of the timer thread, which an exception ends. -/
def next (m : ACLManager) : Option ACLManager :=
  match m.pc with
  | .aclManager =>
    match m.initialList with
    | .ok ids => some { m with allowedSpiffeIds := ids, pc := .fileWatcher }
    | .error e => some { m with pc := .failed e }
  | .fileWatcher => some { m with timeStamp := m.file.lastModified, pc := .scheduled }
  | .scheduled => some { m with pc := .compare m.file.lastModified }
  | .compare timeStamp =>
    if m.timeStamp ≠ timeStamp then some { m with timeStamp := timeStamp, pc := .onChange }
    else some { m with pc := .scheduled }
  | .onChange =>
    match loadList m.file with
    | .ok ids => some { m with allowedSpiffeIds := ids, pc := .scheduled }
    | .error e => some { m with pc := .cancelled e }
  | .failed _ | .cancelled _ => none

inductive Event where
  | program
  | edit (content : String) (mtime : Nat)
  | access (present readable : Bool)
  deriving DecidableEq

def step (m : ACLManager) : Event → Option ACLManager
  | .program => m.next
  | .edit content mtime => some { m with file := { m.file with content, mtime } }
  | .access present readable => some { m with file := { m.file with present, readable } }

def system : System ACLManager Event where
  init m := m.pc = .aclManager
  step := step

def Raises (m : ACLManager) : Event → Prop
  | .edit _ mtime => m.file.mtime < mtime
  | _ => True

instance (m : ACLManager) : ∀ e, Decidable (Raises m e)
  | .program | .access _ _ => .isTrue trivial
  | .edit _ mtime => inferInstanceAs (Decidable (m.file.mtime < mtime))

inductive Next (m : ACLManager) : ACLManager → Prop where
  | loaded (hp : m.pc = .aclManager) (hl : m.file.canRead = true) :
      Next m { m with allowedSpiffeIds := m.file.lines, pc := .fileWatcher }
  | rejected (hp : m.pc = .aclManager) (hl : m.initialList = .error e) :
      Next m { m with pc := .failed e }
  | stamped (hp : m.pc = .fileWatcher) :
      Next m { m with timeStamp := m.file.lastModified, pc := .scheduled }
  | polled (hp : m.pc = .scheduled) : Next m { m with pc := .compare m.file.lastModified }
  | changed (hp : m.pc = .compare now) (ht : m.timeStamp ≠ now) :
      Next m { m with timeStamp := now, pc := .onChange }
  | unchanged (hp : m.pc = .compare now) (ht : m.timeStamp = now) :
      Next m { m with pc := .scheduled }
  | reloaded (hp : m.pc = .onChange) (hl : m.file.canRead = true) :
      Next m { m with allowedSpiffeIds := m.file.lines, pc := .scheduled }
  | escaped (hp : m.pc = .onChange) (hl : m.file.canRead = false) :
      Next m { m with pc := .cancelled (.illegalStateException .ioException) }

theorem loadList_eq_ok {file : AclFile} :
    loadList file = .ok ids ↔ file.canRead = true ∧ ids = file.lines := by
  rw [loadList]
  cases h : file.canRead with
  | true => exact ⟨fun he => ⟨rfl, (Except.ok.inj he).symm⟩, fun he => congrArg Except.ok he.2.symm⟩
  | false => exact ⟨fun he => (nomatch he), fun he => absurd he.1 Bool.false_ne_true⟩

theorem loadList_eq_error {file : AclFile} :
    loadList file = .error e ↔ file.canRead = false ∧ e = .illegalStateException .ioException := by
  rw [loadList]
  cases h : file.canRead with
  | true => exact ⟨fun he => (nomatch he), fun he => absurd he.1.symm Bool.false_ne_true⟩
  | false =>
    exact ⟨fun he => ⟨rfl, (Except.error.inj he).symm⟩, fun he => congrArg Except.error he.2.symm⟩

theorem initialList_eq_ok (h : initialList m = .ok ids) :
    m.file.canRead = true ∧ ids = m.file.lines := by
  rw [initialList, Validate.isTrue] at h
  cases hb : isBlank m.aclFile with
  | true =>
    rw [hb] at h
    cases h
  | false =>
    rw [hb] at h
    exact loadList_eq_ok.1 h

theorem next_cases (h : next m = some t) : Next m t := by
  rw [next] at h
  cases hp : m.pc with
  | aclManager =>
    cases hl : m.initialList with
    | ok ids =>
      obtain ⟨hr, rfl⟩ := initialList_eq_ok hl
      simp only [hp, hl, Option.some.injEq] at h
      exact h ▸ .loaded hp hr
    | error e =>
      simp only [hp, hl, Option.some.injEq] at h
      exact h ▸ .rejected hp hl
  | fileWatcher =>
    simp only [hp, Option.some.injEq] at h
    exact h ▸ .stamped hp
  | scheduled =>
    simp only [hp, Option.some.injEq] at h
    exact h ▸ .polled hp
  | compare now =>
    by_cases ht : m.timeStamp = now
    · simp only [hp, if_neg (not_not_intro ht), Option.some.injEq] at h
      exact h ▸ .unchanged hp ht
    · simp only [hp, if_pos ht, Option.some.injEq] at h
      exact h ▸ .changed hp ht
  | onChange =>
    cases hl : loadList m.file with
    | ok ids =>
      obtain ⟨hr, rfl⟩ := loadList_eq_ok.1 hl
      simp only [hp, hl, Option.some.injEq] at h
      exact h ▸ .reloaded hp hr
    | error e =>
      obtain ⟨hr, rfl⟩ := loadList_eq_error.1 hl
      simp only [hp, hl, Option.some.injEq] at h
      exact h ▸ .escaped hp hr
  | failed e | cancelled e =>
    simp only [hp] at h
    cases h

theorem next_file (h : next m = some t) : t.file = m.file := by
  cases next_cases h <;> rfl

end ACLManager

end SpiffeExample
