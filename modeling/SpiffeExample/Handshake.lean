import SpiffeExample.KeyManager
import SpiffeExample.TrustManager

namespace SpiffeExample
set_option autoImplicit true
open Transition

/-- The calls of one handshake that read the manager, each of them through one getter. -/
inductive Call where
  | chooseAlias
  | getCertificateChain
  | getPrivateKey
  | validate
  | checkSpiffeId
  deriving DecidableEq

structure Session where
  keyTypes : List String
  chain : List X509Certificate
  aclService : ACLService

/-- The results of the calls so far. `entered` is the call whose getter has seen that there is
an SVID, and `source` the SVID of the first of the four values. -/
structure Handshake where
  entered : Option Call
  keyAlias : Option (Except Throwable (Option String))
  certificateChain : Option (List (Option X509Certificate))
  privateKey : Option (Option PrivateKey)
  trustedCerts : Option (Finset X509Certificate)
  validated : Bool
  spiffeID : Option String
  checked : Option (Except Throwable Unit)
  source : Option SpiffeSVID

namespace Handshake

def new : Handshake := ⟨none, none, none, none, none, false, none, none, none⟩

def aliasName (h : Handshake) : Option String :=
  match h.keyAlias with
  | some (.ok keyAlias) => keyAlias
  | _ => none

/-- The key and its certificate are asked for under the chosen alias, and the own identity once
the chain of the peer is validated; otherwise the calls come in any order. -/
def enabled (h : Handshake) : Call → Bool
  | .chooseAlias => h.keyAlias.isNone
  | .getCertificateChain => h.aliasName.isSome && h.certificateChain.isNone
  | .getPrivateKey => h.aliasName.isSome && h.privateKey.isNone
  | .validate => !h.validated && h.checked.isNone
  | .checkSpiffeId => h.validated && h.checked.isNone

/-- The first half of `checkPeer`; the own identity is only read for a peer that has one. -/
def validate (jca : Jca) (session : Session) (m : SpiffeSVIDManager) (h : Handshake) :
    Handshake :=
  match CertificateUtils.validate jca session.chain (some m.getTrustedCerts) with
  | .error e => { h with checked := some (.error e) }
  | .ok () =>
    match (SpiffeTrustManager.firstOf session.chain).bind CertificateUtils.getSpiffeId with
    | .ok (some _) => { h with validated := true }
    | .ok none | .error _ =>
      { h with checked := some (SpiffeTrustManager.checkSpiffeId ⟨m, session.aclService⟩
          session.chain) }

/-- A call returns, its getter having read the field as it is in `m`. -/
def deliver (jca : Jca) (session : Session) (m : SpiffeSVIDManager) (h : Handshake) :
    Call → Handshake
  | .chooseAlias => { h with keyAlias := some (SpiffeKeyManager.getAlias ⟨m⟩ session.keyTypes) }
  | .getCertificateChain =>
    { h with
      certificateChain := some (SpiffeKeyManager.getCertificateChain ⟨m⟩ h.aliasName)
      source := h.source.or m.spiffeSVID }
  | .getPrivateKey =>
    { h with
      privateKey := some (SpiffeKeyManager.getPrivateKey ⟨m⟩ h.aliasName)
      source := h.source.or m.spiffeSVID }
  | .validate =>
    validate jca session m { h with
      trustedCerts := m.spiffeSVID.map SpiffeSVID.bundle
      source := h.source.or m.spiffeSVID }
  | .checkSpiffeId =>
    { h with
      spiffeID := some m.getSpiffeID
      checked := some (SpiffeTrustManager.checkSpiffeId ⟨m, session.aclService⟩ session.chain)
      source := h.source.or m.spiffeSVID }

def returned (jca : Jca) (session : Session) (m : SpiffeSVIDManager) (h : Handshake)
    (call : Call) : Handshake :=
  { h.deliver jca session m call with entered := none }

/-- With both reads in one state of the manager the check is that of the trust manager. -/
theorem deliver_checkPeer (jca : Jca) (session : Session) (m : SpiffeSVIDManager) (h : Handshake)
    (hv : h.validated = false) :
    ((h.deliver jca session m .validate).validated = false ∧
      (h.deliver jca session m .validate).checked =
        some (SpiffeTrustManager.checkPeer jca ⟨m, session.aclService⟩ session.chain)) ∨
    ((h.deliver jca session m .validate).validated = true ∧
      ((h.deliver jca session m .validate).deliver jca session m .checkSpiffeId).checked =
        some (SpiffeTrustManager.checkPeer jca ⟨m, session.aclService⟩ session.chain)) := by
  rw [SpiffeTrustManager.checkPeer]
  simp only [deliver, validate]
  cases CertificateUtils.validate jca session.chain (some m.getTrustedCerts) with
  | error e => exact .inl ⟨hv, rfl⟩
  | ok u =>
    cases (SpiffeTrustManager.firstOf session.chain).bind CertificateUtils.getSpiffeId with
    | error e => exact .inl ⟨hv, rfl⟩
    | ok spiffeId =>
      cases spiffeId with
      | none => exact .inl ⟨hv, rfl⟩
      | some spiffeId => exact .inr ⟨rfl, rfl⟩

end Handshake

/-- One handshake of a workload whose identity rotates; `pushed` has all that was published. -/
structure Rotation where
  identity : Identity
  pushed : List SpiffeSVID
  handshake : Handshake

namespace Rotation

inductive Event where
  | identity (event : Identity.Event)
  | enter (call : Call)
  | leave

def arrived (jca : Jca) (clock : Date) : Identity.Event → List SpiffeSVID
  | .push certs => (published jca clock certs).toList
  | .advance _ => []

/-- A getter reads the field twice, for the comparison with null and for the value. -/
def step (jca : Jca) (session : Session) (s : Rotation) : Event → Option Rotation
  | .identity event =>
    ((Identity.system jca).step s.identity event).map fun identity =>
      { s with identity, pushed := arrived jca s.identity.clock event ++ s.pushed }
  | .enter call =>
    if s.handshake.entered = none ∧ s.handshake.enabled call = true then
      match s.identity.manager.spiffeSVID with
      | none => some { s with
          handshake := s.handshake.returned jca session s.identity.manager call }
      | some _ => some { s with handshake := { s.handshake with entered := some call } }
    else none
  | .leave =>
    match s.handshake.entered with
    | none => none
    | some call => some { s with
        handshake := s.handshake.returned jca session s.identity.manager call }

def system (jca : Jca) (session : Session) : System Rotation Event where
  init s := s.identity.manager.spiffeSVID = none ∧ s.pushed = [] ∧ s.handshake = .new
  step := step jca session

end Rotation
end SpiffeExample
