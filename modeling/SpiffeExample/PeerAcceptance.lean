import SpiffeExample.TrustManager

namespace SpiffeExample.SpiffeTrustManager
set_option autoImplicit true

theorem checkPeer_empty (tm : SpiffeTrustManager) (h : tm.spiffeSVIDManager.spiffeSVID = none)
    (jca : Jca) (chain : List X509Certificate) :
    tm.checkPeer jca chain = .error (.certificateException "No trusted Certs") := by
  have ht : tm.spiffeSVIDManager.getTrustedCerts = ∅ := by
    simp only [SpiffeSVIDManager.getTrustedCerts, h]
  simp only [checkPeer, CertificateUtils.validate, ht, CertificateUtils.toPkixParameters_empty]
  rfl

theorem checkPeer_held (tm : SpiffeTrustManager)
    (h : tm.spiffeSVIDManager.spiffeSVID = some spiffeSVID) :
    tm.checkPeer jca (leaf :: rest) = .ok () ↔ spiffeSVID.bundle.Nonempty ∧
      jca.certPathValidator (leaf :: rest) (CertificateUtils.anchoredAt spiffeSVID.bundle) =
        .ok () ∧
      ∃ spiffeId, CertificateUtils.getSpiffeId leaf = .ok (some spiffeId) ∧
        tm.aclService spiffeId spiffeSVID.spiffeID = true := by
  have ht : tm.spiffeSVIDManager.getTrustedCerts = spiffeSVID.bundle := by
    simp only [SpiffeSVIDManager.getTrustedCerts, h]
  have hi : tm.spiffeSVIDManager.getSpiffeID = spiffeSVID.spiffeID := by
    simp only [SpiffeSVIDManager.getSpiffeID, h]
  rw [checkPeer_eq_ok, CertificateUtils.validate_eq_ok, ht, hi, and_assoc]

theorem acceptedIssuers_anchors (tm : SpiffeTrustManager)
    (h : CertificateUtils.toPkixParameters (some tm.spiffeSVIDManager.getTrustedCerts) =
      .ok pkixParameters) :
    pkixParameters.trustAnchors.val = tm.getAcceptedIssuers.map (fun c => ⟨c, none⟩) := by
  rw [CertificateUtils.toPkixParameters_anchors h, CertificateUtils.anchoredAt_val]
  rfl

/-- After any run each overload accepts exactly the chains that the validator accepts from the
last published bundle and whose identity the ACL admits for the last published SPIFFE ID. -/
theorem checkTrusted_iff_lastPush {acl : ACLService} (hi : (Identity.system jca).init s)
    (hr : (Identity.system jca).run s events = some t) (leaf : X509Certificate)
    (rest : List X509Certificate) (authType : String) (role : Role)
    (transport : Transport Socket SSLEngine) :
    ((SpiffeTrustManager.mk t.manager acl).checkTrusted jca (leaf :: rest) authType role
        transport = .ok () ↔
      ∃ now spiffeSVID, lastPush jca s.clock events = some (now, spiffeSVID) ∧
        spiffeSVID.bundle.Nonempty ∧
        jca.certPathValidator (leaf :: rest) (CertificateUtils.anchoredAt spiffeSVID.bundle) =
          .ok () ∧
        ∃ spiffeId, CertificateUtils.getSpiffeId leaf = .ok (some spiffeId) ∧
          acl spiffeId spiffeSVID.spiffeID = true) ∧
    (lastPush jca s.clock events = none →
      (SpiffeTrustManager.mk t.manager acl).checkTrusted jca (leaf :: rest) authType role
        transport = .error (.certificateException "No trusted Certs")) ∧
    ∀ pkixParameters,
      CertificateUtils.toPkixParameters (some t.manager.getTrustedCerts) = .ok pkixParameters →
      pkixParameters.trustAnchors.val =
        (SpiffeTrustManager.mk t.manager acl).getAcceptedIssuers.map (fun c => ⟨c, none⟩) := by
  have hm := Identity.run_lastPush hi hr
  rw [checkTrusted_eq_checkPeer]
  refine ⟨?_, ?_, ?_⟩
  · cases hl : lastPush jca s.clock events with
    | none =>
      rw [hl] at hm
      rw [checkPeer_empty ⟨t.manager, acl⟩ hm]
      apply Iff.intro
      · intro h
        cases h
      · intro h
        obtain ⟨now, spiffeSVID, he, _⟩ := h
        cases he
    | some p =>
      rw [hl] at hm
      rw [checkPeer_held ⟨t.manager, acl⟩ hm]
      apply Iff.intro
      · intro h
        exact ⟨p.1, p.2, rfl, h⟩
      · intro h
        obtain ⟨now, spiffeSVID, he, h⟩ := h
        cases he
        exact h
  · intro hl
    rw [hl] at hm
    exact checkPeer_empty ⟨t.manager, acl⟩ hm jca (leaf :: rest)
  · intro pkixParameters hp
    exact acceptedIssuers_anchors ⟨t.manager, acl⟩ hp

theorem checkTrusted_after_push :
    (SpiffeTrustManager.mk Identity.sample.manager fun _ _ => true).checkTrusted .sample
      [⟨[7], 1000, .names [⟨.uniformResourceIdentifier, .string "spiffe://example.org/front-end"⟩]⟩]
      "ECDHE_ECDSA" .client (.unknown : Transport Unit Unit) = .ok () := by
  have hi : (Identity.system .sample).init ⟨0, ⟨none⟩⟩ := rfl
  have hr : (Identity.system .sample).run ⟨0, ⟨none⟩⟩ [.push [.sample]] = some .sample := rfl
  exact (checkTrusted_iff_lastPush hi hr _ [] _ _ _).1.2
    ⟨0, _, rfl, ⟨⟨[3], 1000, .absent⟩, by decide⟩, rfl, _, rfl, rfl⟩

end SpiffeExample.SpiffeTrustManager
