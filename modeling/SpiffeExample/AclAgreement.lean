import SpiffeExample.KeyManager
import SpiffeExample.TrustManager

namespace SpiffeExample
set_option autoImplicit true

/-- A workload with a current SVID: its manager and its certificate name the same identity. -/
structure Workload (spiffeId : String) where
  jca : Jca
  spiffeSVID : SpiffeSVID
  spiffeID_eq : spiffeSVID.spiffeID = spiffeId
  svid_eq : CertificateUtils.getSpiffeId spiffeSVID.svid = .ok (some spiffeId)

namespace Workload

def manager (w : Workload a) : SpiffeSVIDManager := ⟨some w.spiffeSVID⟩

def keyManager (w : Workload a) : SpiffeKeyManager := ⟨w.manager⟩

def trustManager (w : Workload a) (acl : ACLService) : SpiffeTrustManager := ⟨w.manager, acl⟩

def chain (w : Workload a) : List X509Certificate :=
  (w.keyManager.getCertificateChain (some ALIAS)).reduceOption

def Validates (w : Workload a) (chain : List X509Certificate) : Prop :=
  CertificateUtils.validate w.jca chain (some w.manager.getTrustedCerts) = .ok ()

theorem chain_eq (w : Workload a) : w.chain = [w.spiffeSVID.svid] := rfl

theorem getSpiffeID_eq (w : Workload a) : w.manager.getSpiffeID = a := w.spiffeID_eq

/-- The peer's identity is the ACL's first argument, the workload's own the second. -/
theorem checkTrusted_iff (w : Workload a) (peer : Workload b) (h : w.Validates peer.chain)
    (acl : ACLService) (authType : String) (role : SpiffeTrustManager.Role)
    (transport : SpiffeTrustManager.Transport Socket SSLEngine) :
    (w.trustManager acl).checkTrusted w.jca peer.chain authType role transport = .ok () ↔
      acl b a = true := by
  have hv : CertificateUtils.validate w.jca [peer.spiffeSVID.svid]
      (some (w.trustManager acl).spiffeSVIDManager.getTrustedCerts) = .ok () := h
  have ha : (w.trustManager acl).spiffeSVIDManager.getSpiffeID = a := w.getSpiffeID_eq
  rw [SpiffeTrustManager.checkTrusted_eq_checkPeer, chain_eq, SpiffeTrustManager.checkPeer_eq_ok,
    ha, peer.svid_eq]
  apply Iff.intro
  · intro hx
    obtain ⟨_, spiffeId, he, hr⟩ := hx
    cases he
    exact hr
  · intro hr
    exact ⟨hv, b, rfl, hr⟩

end Workload

def BothAccept (client : Workload a) (server : Workload b) (R : ACLService)
    (authType authType' : String) (transport : SpiffeTrustManager.Transport Socket SSLEngine)
    (transport' : SpiffeTrustManager.Transport Socket' SSLEngine') : Prop :=
  (server.trustManager R).checkTrusted server.jca client.chain authType .client transport =
      .ok () ∧
    (client.trustManager R).checkTrusted client.jca server.chain authType' .server transport' =
      .ok ()

/-- The two ends agree with the policy exactly where it is symmetric in this pair, and with every
policy only when the two identities are equal. -/
theorem bothAccept_iff (client : Workload a) (server : Workload b)
    (hc : client.Validates server.chain) (hs : server.Validates client.chain)
    (authType authType' : String) (transport : SpiffeTrustManager.Transport Socket SSLEngine)
    (transport' : SpiffeTrustManager.Transport Socket' SSLEngine') :
    (∀ R : ACLService,
      (BothAccept client server R authType authType' transport transport' ↔ R a b = true) ↔
        (R a b = true → R b a = true)) ∧
    ((∀ R : ACLService,
      BothAccept client server R authType authType' transport transport' ↔ R a b = true) ↔
        a = b) := by
  have hb (R : ACLService) : BothAccept client server R authType authType' transport transport' ↔
      R a b = true ∧ R b a = true := by
    rw [BothAccept, server.checkTrusted_iff client hs, client.checkTrusted_iff server hc]
  have hi (R : ACLService) :
      (BothAccept client server R authType authType' transport transport' ↔ R a b = true) ↔
        (R a b = true → R b a = true) := by
    rw [hb R]
    exact and_iff_left_iff_imp
  apply And.intro hi
  apply Iff.intro
  · intro h
    have hr := (hi (fun x y => x == a && y == b)).1 (h _)
    simp only [BEq.rfl, Bool.and_self, Bool.and_eq_true, beq_iff_eq, true_imp_iff] at hr
    exact hr.2
  · intro h R
    subst h
    exact (hi R).2 id

def Workload.frontEnd : Workload "spiffe://example.org/front-end" where
  jca := .sample
  spiffeSVID := ⟨"spiffe://example.org/front-end", ⟨[1], 1000, .names
    [⟨.uniformResourceIdentifier, .string "spiffe://example.org/front-end"⟩]⟩, ⟨"EC", [1]⟩,
    {⟨[9], 1000, .absent⟩}⟩
  spiffeID_eq := rfl
  svid_eq := rfl

def Workload.backEnd : Workload "spiffe://example.org/back-end" where
  jca := .sample
  spiffeSVID := ⟨"spiffe://example.org/back-end", ⟨[2], 1000, .names
    [⟨.uniformResourceIdentifier, .string "spiffe://example.org/back-end"⟩]⟩, ⟨"EC", [2]⟩,
    {⟨[9], 1000, .absent⟩}⟩
  spiffeID_eq := rfl
  svid_eq := rfl

def frontToBack : ACLService :=
  fun clientId serverId => clientId == "spiffe://example.org/front-end" &&
    serverId == "spiffe://example.org/back-end"

theorem Workload.frontEnd_validates : Workload.frontEnd.Validates Workload.backEnd.chain :=
  CertificateUtils.validate_eq_ok.2 ⟨Finset.singleton_nonempty _, rfl⟩

theorem Workload.backEnd_validates : Workload.backEnd.Validates Workload.frontEnd.chain :=
  CertificateUtils.validate_eq_ok.2 ⟨Finset.singleton_nonempty _, rfl⟩

theorem frontToBack_refused :
    ¬ (BothAccept Workload.frontEnd Workload.backEnd frontToBack "ECDHE_ECDSA" "ECDHE_ECDSA"
        (.unknown : SpiffeTrustManager.Transport Unit Unit)
        (.unknown : SpiffeTrustManager.Transport Unit Unit) ↔
      frontToBack "spiffe://example.org/front-end" "spiffe://example.org/back-end" = true) := by
  intro h
  have ha : frontToBack "spiffe://example.org/front-end" "spiffe://example.org/back-end" = true :=
    rfl
  have hb := (h.2 ha).2
  rw [Workload.checkTrusted_iff _ _ Workload.frontEnd_validates] at hb
  exact absurd hb (by decide)

theorem frontToBack_agreement :
    ¬ ∀ R : ACLService, BothAccept Workload.frontEnd Workload.backEnd R "ECDHE_ECDSA" "ECDHE_ECDSA"
        (.unknown : SpiffeTrustManager.Transport Unit Unit)
        (.unknown : SpiffeTrustManager.Transport Unit Unit) ↔
      R "spiffe://example.org/front-end" "spiffe://example.org/back-end" = true := by
  rw [(bothAccept_iff _ _ Workload.frontEnd_validates Workload.backEnd_validates _ _ _ _).2]
  decide

end SpiffeExample
