import SpiffeExample.Pipeline
import SpiffeExample.X509

namespace SpiffeExample.CertificateUtils
set_option autoImplicit true

def generateCertificates (jca : Jca) (input : Bytes) :
    Except Throwable (Finset X509Certificate) :=
  (jca.generateCertificates input).map List.toFinset

def generateCertificate (jca : Jca) (input : Bytes) : Except Throwable X509Certificate :=
  jca.generateCertificate input

def generatePrivateKey (jca : Jca) (input : Bytes) : Except Throwable PrivateKey :=
  jca.generatePrivate input

/-- The first name with the scheme, whatever its kind; the search stops there. -/
def getSpiffeId (certificate : X509Certificate) : Except Throwable (Option String) := do
  let names ← certificate.getSubjectAlternativeNames
  let sans ← dereference names
  Pipeline.findFirst GeneralName.stringValue (startsWith · "spiffe://") sans

def toPkixParameters (trustedCerts : Option (Finset X509Certificate)) :
    Except Throwable PKIXParameters :=
  match trustedCerts with
  | none => .error (.certificateException "No trusted Certs")
  | some certs =>
    if certs.card = 0 then .error (.certificateException "No trusted Certs")
    else
      match PKIXParameters.new (certs.image (fun c => ⟨c, none⟩)) with
      | .ok pkixParameters => .ok { pkixParameters with revocationEnabled := false }
      | .error .invalidAlgorithmParameterException =>
        .error (.illegalStateException .invalidAlgorithmParameterException)
      | .error e => .error e

def validate (jca : Jca) (chain : List X509Certificate)
    (trustedCerts : Option (Finset X509Certificate)) : Except Throwable Unit :=
  match toPkixParameters trustedCerts with
  | .error e => .error e
  | .ok pkixParameters =>
    match jca.certPathValidator chain pkixParameters with
    | .ok () => .ok ()
    | .error .certPathValidatorException =>
      .error (.certificateExceptionOf .certPathValidatorException)
    | .error .invalidAlgorithmParameterException =>
      .error (.certificateExceptionOf .invalidAlgorithmParameterException)
    | .error e => .error e

def anchoredAt (certs : Finset X509Certificate) : PKIXParameters :=
  ⟨certs.image (fun c => ⟨c, none⟩), false⟩

theorem anchoredAt_val (certs : Finset X509Certificate) :
    (anchoredAt certs).trustAnchors.val = certs.val.map (fun c => ⟨c, none⟩) :=
  Finset.image_val_of_injOn (fun _ _ _ _ h => congrArg TrustAnchor.trustedCert h)

theorem toPkixParameters_empty :
    toPkixParameters (some ∅) = .error (.certificateException "No trusted Certs") := rfl

theorem toPkixParameters_nonempty {certs : Finset X509Certificate} (h : certs.Nonempty) :
    toPkixParameters (some certs) = .ok (anchoredAt certs) := by
  have hc : certs.card ≠ 0 := Finset.card_ne_zero.2 h
  have hi : (certs.image (fun c => (⟨c, none⟩ : TrustAnchor))).card ≠ 0 :=
    Finset.card_ne_zero.2 (h.image _)
  simp only [toPkixParameters, if_neg hc, PKIXParameters.new, if_neg hi, anchoredAt]

theorem toPkixParameters_anchors {certs : Finset X509Certificate}
    (h : toPkixParameters (some certs) = .ok pkixParameters) :
    pkixParameters = anchoredAt certs := by
  rcases certs.eq_empty_or_nonempty with he | hn
  · subst he
    cases h
  · rw [toPkixParameters_nonempty hn] at h
    cases h
    rfl

/-- Validation succeeds exactly when there are anchors and the validator accepts them. -/
theorem validate_eq_ok {certs : Finset X509Certificate} :
    validate jca chain (some certs) = .ok () ↔
      certs.Nonempty ∧ jca.certPathValidator chain (anchoredAt certs) = .ok () := by
  rcases certs.eq_empty_or_nonempty with he | hn
  · subst he
    simp only [validate, toPkixParameters_empty, Finset.not_nonempty_empty, reduceCtorEq,
      false_and]
  · simp only [validate, toPkixParameters_nonempty hn, hn, true_and]
    cases jca.certPathValidator chain (anchoredAt certs) with
    | ok u => exact ⟨fun _ => rfl, fun _ => rfl⟩
    | error e => cases e <;> simp only [reduceCtorEq]

theorem getSpiffeId_eq_some {certificate : X509Certificate} :
    getSpiffeId certificate = .ok (some spiffeId) ↔ ∃ sans, certificate.san = .names sans ∧
      Pipeline.findFirst GeneralName.stringValue (startsWith · "spiffe://") sans =
        .ok (some spiffeId) := by
  rw [getSpiffeId, X509Certificate.getSubjectAlternativeNames]
  cases certificate.san with
  | malformed =>
    apply Iff.intro
    · intro h
      cases h
    · intro h
      obtain ⟨sans, he, _⟩ := h
      cases he
  | absent =>
    apply Iff.intro
    · intro h
      cases h
    · intro h
      obtain ⟨sans, he, _⟩ := h
      cases he
  | names sans =>
    apply Iff.intro
    · intro hs
      exact ⟨sans, rfl, hs⟩
    · intro h
      obtain ⟨_, he, hs⟩ := h
      cases he
      exact hs

end SpiffeExample.CertificateUtils
