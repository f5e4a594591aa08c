import SpiffeExample.SvidManager

namespace SpiffeExample
set_option autoImplicit true

/-- `isAllowed(clientId, serverId)`. -/
abbrev ACLService := String → String → Bool

structure SpiffeTrustManager where
  spiffeSVIDManager : SpiffeSVIDManager
  aclService : ACLService

namespace SpiffeTrustManager

def firstOf (chain : List X509Certificate) : Except Throwable X509Certificate :=
  match chain with
  | [] => .error .arrayIndexOutOfBoundsException
  | certificate :: _ => .ok certificate

def checkSpiffeId (tm : SpiffeTrustManager) (chain : List X509Certificate) :
    Except Throwable Unit := do
  let certificate ← firstOf chain
  match ← CertificateUtils.getSpiffeId certificate with
  | some workloadId =>
    if !tm.aclService workloadId tm.spiffeSVIDManager.getSpiffeID then
      .error (.certificateException (workloadId ++ " is not a trusted service"))
    else .ok ()
  | none => .error (.certificateException "No Spiffe ID in the certificate")

def checkPeer (jca : Jca) (tm : SpiffeTrustManager) (chain : List X509Certificate) :
    Except Throwable Unit := do
  CertificateUtils.validate jca chain (some tm.spiffeSVIDManager.getTrustedCerts)
  tm.checkSpiffeId chain

def checkClientTrusted (jca : Jca) (tm : SpiffeTrustManager) (chain : List X509Certificate)
    (_authType : String) : Except Throwable Unit := tm.checkPeer jca chain

def checkServerTrusted (jca : Jca) (tm : SpiffeTrustManager) (chain : List X509Certificate)
    (_authType : String) : Except Throwable Unit := tm.checkPeer jca chain

/-- The array's order is the one in which the set is iterated; only its elements are modelled. -/
def getAcceptedIssuers (tm : SpiffeTrustManager) : Multiset X509Certificate :=
  tm.spiffeSVIDManager.getTrustedCerts.val

def checkClientTrustedSocket (jca : Jca) (tm : SpiffeTrustManager)
    (chain : List X509Certificate) (authType : String) (_socket : Socket) :
    Except Throwable Unit := tm.checkClientTrusted jca chain authType

def checkServerTrustedSocket (jca : Jca) (tm : SpiffeTrustManager)
    (chain : List X509Certificate) (authType : String) (_socket : Socket) :
    Except Throwable Unit := tm.checkServerTrusted jca chain authType

def checkClientTrustedEngine (jca : Jca) (tm : SpiffeTrustManager)
    (chain : List X509Certificate) (authType : String) (_sslEngine : SSLEngine) :
    Except Throwable Unit := tm.checkClientTrusted jca chain authType

def checkServerTrustedEngine (jca : Jca) (tm : SpiffeTrustManager)
    (chain : List X509Certificate) (authType : String) (_sslEngine : SSLEngine) :
    Except Throwable Unit := tm.checkServerTrusted jca chain authType

inductive Role where
  | client
  | server

inductive Transport (Socket SSLEngine : Type) where
  | unknown
  | socket (socket : Socket)
  | engine (sslEngine : SSLEngine)

/-- The six overloads `checkClientTrusted` and `checkServerTrusted`. -/
def checkTrusted (jca : Jca) (tm : SpiffeTrustManager) (chain : List X509Certificate)
    (authType : String) : Role → Transport Socket SSLEngine → Except Throwable Unit
  | .client, .unknown => tm.checkClientTrusted jca chain authType
  | .server, .unknown => tm.checkServerTrusted jca chain authType
  | .client, .socket socket => tm.checkClientTrustedSocket jca chain authType socket
  | .server, .socket socket => tm.checkServerTrustedSocket jca chain authType socket
  | .client, .engine sslEngine => tm.checkClientTrustedEngine jca chain authType sslEngine
  | .server, .engine sslEngine => tm.checkServerTrustedEngine jca chain authType sslEngine

theorem checkTrusted_eq_checkPeer (jca : Jca) (tm : SpiffeTrustManager)
    (chain : List X509Certificate) (authType : String) (role : Role)
    (transport : Transport Socket SSLEngine) :
    tm.checkTrusted jca chain authType role transport = tm.checkPeer jca chain := by
  cases role <;> cases transport <;> rfl

theorem checkSpiffeId_eq_ok {tm : SpiffeTrustManager} :
    tm.checkSpiffeId (certificate :: rest) = .ok () ↔
      ∃ spiffeId, CertificateUtils.getSpiffeId certificate = .ok (some spiffeId) ∧
        tm.aclService spiffeId tm.spiffeSVIDManager.getSpiffeID = true := by
  rw [checkSpiffeId, firstOf]
  simp only [bind, Except.bind]
  cases CertificateUtils.getSpiffeId certificate with
  | error e => exact ⟨fun h => (nomatch h), fun ⟨_, h, _⟩ => (nomatch h)⟩
  | ok spiffeId =>
    cases spiffeId with
    | none => exact ⟨fun h => (nomatch h), fun ⟨_, h, _⟩ => (nomatch h)⟩
    | some spiffeId =>
      cases ha : tm.aclService spiffeId tm.spiffeSVIDManager.getSpiffeID with
      | true =>
        simp only [ha, Bool.not_true, Bool.false_eq_true, if_false]
        exact ⟨fun _ => ⟨spiffeId, rfl, ha⟩, fun _ => trivial⟩
      | false =>
        simp only [ha, Bool.not_false, if_true]
        apply Iff.intro
        · intro h
          cases h
        · intro h
          obtain ⟨other, he, ho⟩ := h
          cases he
          cases ha.symm.trans ho

theorem checkPeer_eq_ok {tm : SpiffeTrustManager} :
    tm.checkPeer jca (certificate :: rest) = .ok () ↔
      CertificateUtils.validate jca (certificate :: rest)
          (some tm.spiffeSVIDManager.getTrustedCerts) = .ok () ∧
        ∃ spiffeId, CertificateUtils.getSpiffeId certificate = .ok (some spiffeId) ∧
          tm.aclService spiffeId tm.spiffeSVIDManager.getSpiffeID = true := by
  rw [← @checkSpiffeId_eq_ok certificate rest tm]
  rw [checkPeer]
  cases CertificateUtils.validate jca (certificate :: rest)
      (some tm.spiffeSVIDManager.getTrustedCerts) with
  | error e => exact ⟨fun h => (nomatch h), fun ⟨h, _⟩ => (nomatch h)⟩
  | ok u => exact ⟨fun h => ⟨rfl, h⟩, fun h => h.2⟩

end SpiffeTrustManager
end SpiffeExample
