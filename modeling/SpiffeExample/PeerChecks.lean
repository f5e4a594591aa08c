import SpiffeExample.AclManager
import SpiffeExample.TrustManager
import SpiffeExample.Threads

namespace SpiffeExample.PeerChecks
set_option autoImplicit true
open Transition

/-- What a check ends with other than a return. The errors are those of a class whose static
initialiser has thrown: the first is thrown where it ran, the second on every later use. -/
inductive Failure where
  | exception (e : Throwable)
  | exceptionInInitializerError (cause : Throwable)
  | noClassDefFoundError
  deriving DecidableEq

/-- The static initialiser of `ACLManager` runs in its constructor. -/
inductive ClassState where
  | uninitialized
  | initialized
  | erroneous (cause : Throwable)
  deriving DecidableEq

def classState (acl : ACLManager) : ClassState :=
  match acl.pc with
  | .aclManager | .fileWatcher => .uninitialized
  | .failed e => .erroneous e
  | .scheduled | .compare _ | .onChange | .cancelled _ => .initialized

/-- Where a thread is in `checkPeer`. -/
inductive Point where
  | validate
  | checkSpiffeId
  | getSpiffeID (workloadId : String)
  | getInstance (workloadId serverId : String)
  | isAllowed (workloadId serverId : String)
  | returned
  | thrown (failure : Failure)
  deriving DecidableEq

def Point.finished : Point → Bool
  | .returned | .thrown _ => true
  | _ => false

structure Check where
  chain : List X509Certificate
  point : Point
  deriving DecidableEq

/-- What the threads of one virtual machine share. `initiator` is the check in whose thread the
static initialiser of `ACLManager` runs. -/
structure Machine where
  identity : Identity
  acl : ACLManager
  initiator : Option Nat

/-- `checkSpiffeId` up to the call of the `ACLService`. -/
def workloadId (chain : List X509Certificate) : Except Throwable String := do
  let certificate ← SpiffeTrustManager.firstOf chain
  match ← CertificateUtils.getSpiffeId certificate with
  | some workloadId => .ok workloadId
  | none => .error (.certificateException "No Spiffe ID in the certificate")

/-- `ACLManager.getInstance`, whose first use of the class runs the static initialiser and whose
other uses wait for its end. -/
def getInstance (i : Nat) (m : Machine) : Option (Machine × Option (Except Failure Unit)) :=
  match classState m.acl with
  | .initialized => some (m, some (.ok ()))
  | .erroneous _ => some (m, some (.error .noClassDefFoundError))
  | .uninitialized =>
    match m.initiator with
    | none => some ({ m with initiator := some i }, none)
    | some j =>
      if i = j then
        m.acl.next.map fun acl =>
          match classState acl with
          | .uninitialized => ({ m with acl }, none)
          | .initialized => ({ m with acl }, some (.ok ()))
          | .erroneous cause => ({ m with acl }, some (.error (.exceptionInInitializerError cause)))
      else none

/-- Where a thread is after so much of `getInstance`. -/
def entered (workloadId serverId : String) : Option (Except Failure Unit) → Point
  | none => .getInstance workloadId serverId
  | some (.ok ()) => .isAllowed workloadId serverId
  | some (.error failure) => .thrown failure

/-- `ACLSpiffeService.isAllowed` on the instance, and what `checkSpiffeId` makes of its result. -/
def allowed (acl : ACLManager) (workloadId : String) : Point :=
  if !acl.isAllowed workloadId then
    .thrown (.exception (.certificateException (workloadId ++ " is not a trusted service")))
  else .returned

def exec (jca : Jca) (i : Nat) (m : Machine) (check : Check) : Option (Machine × Check) :=
  match check.point with
  | .validate =>
    match CertificateUtils.validate jca check.chain (some m.identity.manager.getTrustedCerts) with
    | .error e => some (m, { check with point := .thrown (.exception e) })
    | .ok () => some (m, { check with point := .checkSpiffeId })
  | .checkSpiffeId =>
    match workloadId check.chain with
    | .error e => some (m, { check with point := .thrown (.exception e) })
    | .ok workloadId => some (m, { check with point := .getSpiffeID workloadId })
  | .getSpiffeID workloadId =>
    some (m, { check with point := .getInstance workloadId m.identity.manager.getSpiffeID })
  | .getInstance workloadId serverId =>
    (getInstance i m).map fun r => (r.1, { check with point := entered workloadId serverId r.2 })
  | .isAllowed workloadId _ => some (m, { check with point := allowed m.acl workloadId })
  | .returned | .thrown _ => none

inductive World where
  | identity (event : Identity.Event)
  | edit (content : String) (mtime : Nat)
  | access (present readable : Bool)
  | poll

/-- A push, a change of the file or a step of the timer thread, which a constructor arms. -/
def world (jca : Jca) (m : Machine) : World → Option Machine
  | .identity event =>
    ((Identity.system jca).step m.identity event).map fun identity => { m with identity }
  | .edit content mtime =>
    (m.acl.step (.edit content mtime)).map fun acl => { m with acl }
  | .access present readable =>
    (m.acl.step (.access present readable)).map fun acl => { m with acl }
  | .poll =>
    if classState m.acl = .initialized then m.acl.next.map fun acl => { m with acl } else none

def program (jca : Jca) : Threads.Program Machine Check (List X509Certificate) World where
  entry chain := ⟨chain, .validate⟩
  exec := exec jca
  world := world jca

/-- A virtual machine in which no SVID has come and no check has been made. -/
def started (m : Machine) : Prop :=
  m.identity.manager.spiffeSVID = none ∧ m.acl.pc = .aclManager ∧ m.initiator = none

abbrev Config := Threads.Config Machine Check
abbrev Event := Threads.Event (List X509Certificate) World

def system (jca : Jca) : System Config Event :=
  (program jca).system started

/-- One step of a check, by what it does. -/
inductive Exec (jca : Jca) (i : Nat) (m : Machine) : Check → Machine → Check → Prop where
  | refused
      (hv : CertificateUtils.validate jca chain (some m.identity.manager.getTrustedCerts) =
        .error e) : Exec jca i m ⟨chain, .validate⟩ m ⟨chain, .thrown (.exception e)⟩
  | validated
      (hv : CertificateUtils.validate jca chain (some m.identity.manager.getTrustedCerts) =
        .ok ()) : Exec jca i m ⟨chain, .validate⟩ m ⟨chain, .checkSpiffeId⟩
  | unidentified (hw : workloadId chain = .error e) :
      Exec jca i m ⟨chain, .checkSpiffeId⟩ m ⟨chain, .thrown (.exception e)⟩
  | identified (hw : workloadId chain = .ok w) :
      Exec jca i m ⟨chain, .checkSpiffeId⟩ m ⟨chain, .getSpiffeID w⟩
  | named : Exec jca i m ⟨chain, .getSpiffeID w⟩ m
      ⟨chain, .getInstance w m.identity.manager.getSpiffeID⟩
  | found (hc : classState m.acl = .initialized) :
      Exec jca i m ⟨chain, .getInstance w o⟩ m ⟨chain, .isAllowed w o⟩
  | absent (hc : classState m.acl = .erroneous e) :
      Exec jca i m ⟨chain, .getInstance w o⟩ m ⟨chain, .thrown .noClassDefFoundError⟩
  | claimed (hc : classState m.acl = .uninitialized) (hi : m.initiator = none) :
      Exec jca i m ⟨chain, .getInstance w o⟩ { m with initiator := some i }
        ⟨chain, .getInstance w o⟩
  | loaded (hi : m.initiator = some i) (hp : m.acl.pc = .aclManager)
      (hr : m.acl.file.canRead = true) :
      Exec jca i m ⟨chain, .getInstance w o⟩
        { m with acl := { m.acl with allowedSpiffeIds := m.acl.file.lines, pc := .fileWatcher } }
        ⟨chain, .getInstance w o⟩
  | failed (hi : m.initiator = some i) (hp : m.acl.pc = .aclManager)
      (hl : m.acl.initialList = .error e) :
      Exec jca i m ⟨chain, .getInstance w o⟩ { m with acl := { m.acl with pc := .failed e } }
        ⟨chain, .thrown (.exceptionInInitializerError e)⟩
  | armed (hi : m.initiator = some i) (hp : m.acl.pc = .fileWatcher) :
      Exec jca i m ⟨chain, .getInstance w o⟩
        { m with acl := { m.acl with timeStamp := m.acl.file.lastModified, pc := .scheduled } }
        ⟨chain, .isAllowed w o⟩
  | allowed : Exec jca i m ⟨chain, .isAllowed w o⟩ m ⟨chain, allowed m.acl w⟩

theorem getInstance_cases (h : getInstance i m = some (n, r)) :
    Exec jca i m ⟨chain, .getInstance w o⟩ n ⟨chain, entered w o r⟩ := by
  obtain ⟨identity, acl, initiator⟩ := m
  rw [getInstance] at h
  cases hc : classState acl with
  | initialized =>
    rw [hc] at h
    cases h
    exact .found hc
  | erroneous e =>
    rw [hc] at h
    cases h
    exact .absent hc
  | uninitialized =>
    rw [hc] at h
    cases initiator with
    | none =>
      cases h
      exact .claimed hc rfl
    | some j =>
      obtain ⟨rfl, h⟩ := Option.ite_none_right_eq_some.1 h
      obtain ⟨next, hn, h⟩ := Option.map_eq_some_iff.1 h
      cases ACLManager.next_cases hn with
      | loaded hp hl =>
        cases h
        exact .loaded rfl hp hl
      | rejected hp hl =>
        cases h
        exact .failed rfl hp hl
      | stamped hp =>
        cases h
        exact .armed rfl hp
      | polled hp | changed hp | unchanged hp | reloaded hp | escaped hp =>
        rw [classState, hp] at hc
        cases hc

theorem exec_cases (h : exec jca i m c = some (n, d)) : Exec jca i m c n d := by
  obtain ⟨chain, point⟩ := c
  cases point with
  | validate =>
    rw [exec] at h
    cases hv : CertificateUtils.validate jca chain (some m.identity.manager.getTrustedCerts) with
    | error e =>
      simp only [hv] at h
      cases h
      exact .refused hv
    | ok u =>
      simp only [hv] at h
      cases h
      exact .validated hv
  | checkSpiffeId =>
    rw [exec] at h
    cases hw : workloadId chain with
    | error e =>
      simp only [hw] at h
      cases h
      exact .unidentified hw
    | ok w =>
      simp only [hw] at h
      cases h
      exact .identified hw
  | getSpiffeID w =>
    cases h
    exact .named
  | getInstance w o =>
    obtain ⟨⟨n', r⟩, hg, h⟩ := Option.map_eq_some_iff.1 h
    cases h
    exact getInstance_cases hg
  | isAllowed w o =>
    cases h
    exact .allowed
  | returned | thrown => cases h

/-- One event outside of the checks, by what it changes. -/
inductive Moved (jca : Jca) (m : Machine) : Machine → Prop where
  | identity (hs : (Identity.system jca).step m.identity e = some identity) :
      Moved jca m { m with identity }
  | file : Moved jca m { m with acl := { m.acl with file } }
  | polled (hc : classState m.acl = .initialized) (hn : ACLManager.Next m.acl acl) :
      Moved jca m { m with acl }

theorem world_cases (h : world jca m w = some n) : Moved jca m n := by
  cases w with
  | identity e =>
    obtain ⟨identity, hs, rfl⟩ := Option.map_eq_some_iff.1 h
    exact .identity hs
  | edit | access =>
    cases h
    exact .file
  | poll =>
    obtain ⟨hc, h⟩ := Option.ite_none_right_eq_some.1 h
    obtain ⟨acl, hn, rfl⟩ := Option.map_eq_some_iff.1 h
    exact .polled hc (ACLManager.next_cases hn)

/-- The timer's steps come after the constructor's. -/
theorem classState_next (hc : classState m = .initialized) (hn : ACLManager.Next m n) :
    classState n = .initialized := by
  cases hn with
  | loaded hp | rejected hp | stamped hp =>
    rw [classState, hp] at hc
    cases hc
  | polled | changed | unchanged | reloaded | escaped => rfl

theorem classState_erroneous : classState m = .erroneous e ↔ m.pc = .failed e := by
  rw [classState]
  cases m.pc with
  | failed e' =>
    exact ⟨fun h => congrArg Pc.failed (ClassState.erroneous.inj h),
      fun h => congrArg ClassState.erroneous (Pc.failed.inj h)⟩
  | aclManager | fileWatcher | scheduled | compare | onChange | cancelled =>
    apply Iff.intro
    · intro h
      cases h
    · intro h
      cases h

/-- Steps that all see one state of the manager and of the list make the verdict of `checkPeer`. -/
theorem checkPeer_eq (tm : SpiffeTrustManager) (chain : List X509Certificate) :
    tm.checkPeer jca chain = (do
      CertificateUtils.validate jca chain (some tm.spiffeSVIDManager.getTrustedCerts)
      let w ← workloadId chain
      if !tm.aclService w tm.spiffeSVIDManager.getSpiffeID then
        .error (.certificateException (w ++ " is not a trusted service"))
      else .ok ()) := by
  rw [SpiffeTrustManager.checkPeer]
  apply congrArg
  funext u
  rw [SpiffeTrustManager.checkSpiffeId, workloadId]
  cases SpiffeTrustManager.firstOf chain with
  | error e => rfl
  | ok certificate =>
    change (CertificateUtils.getSpiffeId certificate >>= _) =
      ((CertificateUtils.getSpiffeId certificate >>= _) >>= _)
    cases CertificateUtils.getSpiffeId certificate with
    | error e => rfl
    | ok spiffeId => cases spiffeId <;> rfl

end SpiffeExample.PeerChecks
