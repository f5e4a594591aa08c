import SpiffeExample.FilterAuthorization
import SpiffeExample.TrustManager

namespace SpiffeExample
set_option autoImplicit true

def NamedByUri (sans : List GeneralName) (spiffeId : String) : Prop :=
  ∃ san ∈ sans, san.type = .uniformResourceIdentifier ∧ san.value = .string spiffeId

/-- Whatever identity the trust manager or the filter lets in on is named by a URI entry. -/
structure UriIdentified (Socket SSLEngine : Type) (sans : List GeneralName) : Prop where
  trustManager : ∀ (jca : Jca) (tm : SpiffeTrustManager) (leaf : X509Certificate)
    (rest : List X509Certificate) (authType : String) (role : SpiffeTrustManager.Role)
    (transport : SpiffeTrustManager.Transport Socket SSLEngine) (spiffeId : String),
    leaf.san = .names sans →
    tm.checkTrusted jca (leaf :: rest) authType role transport = .ok () →
    CertificateUtils.getSpiffeId leaf = .ok (some spiffeId) → NamedByUri sans spiffeId
  filter : ∀ (f : SpiffeFilter) (servlet : Servlet) (leaf : X509Certificate)
    (rest : List X509Certificate) (spiffeId : String), leaf.san = .names sans →
    f.Passes servlet (some (leaf :: rest)) →
    SpiffeFilter.getSpiffeId leaf = .ok (some spiffeId) → NamedByUri sans spiffeId

/-- The first string with the scheme, when only strings without it come before, is the value of
some URI entry. -/
def LeadingNameIsUri (sans : List GeneralName) : Prop :=
  ∀ pre san post spiffeId, sans = pre ++ san :: post →
    (∀ other ∈ pre, ∃ s, other.value = .string s ∧ startsWith s "spiffe://" = false) →
    san.value = .string spiffeId → startsWith spiffeId "spiffe://" = true →
    NamedByUri sans spiffeId

theorem findFirst_leading {sans : List GeneralName} :
    Pipeline.findFirst GeneralName.stringValue (startsWith · "spiffe://") sans =
        .ok (some spiffeId) ↔
      ∃ pre san post, sans = pre ++ san :: post ∧
        (∀ other ∈ pre, ∃ s, other.value = .string s ∧ startsWith s "spiffe://" = false) ∧
        san.value = .string spiffeId ∧ startsWith spiffeId "spiffe://" = true := by
  simp only [Pipeline.findFirst_eq_some, Pipeline.Dropped, GeneralName.stringValue_eq_ok]

theorem LeadingNameIsUri.named (h : LeadingNameIsUri sans)
    (hf : Pipeline.findFirst GeneralName.stringValue (startsWith · "spiffe://") sans =
      .ok (some spiffeId)) : NamedByUri sans spiffeId := by
  obtain ⟨pre, san, post, he, hd, hv, hs⟩ := findFirst_leading.1 hf
  exact h pre san post spiffeId he hd hv hs

theorem SpiffeFilter.getSpiffeId_findFirst {leaf : X509Certificate} (hn : leaf.san = .names sans)
    (h : SpiffeFilter.getSpiffeId leaf = .ok (some spiffeId)) :
    Pipeline.findFirst GeneralName.stringValue (startsWith · "spiffe://") sans =
      .ok (some spiffeId) := by
  obtain ⟨sans', hn', hs⟩ := SpiffeFilter.getSpiffeId_some h
  cases hn.symm.trans hn'
  exact Pipeline.collect_findFirst hs

def SpiffeTrustManager.permissive (certificate : X509Certificate) : SpiffeTrustManager :=
  ⟨⟨some ⟨"", certificate, ⟨"EC", []⟩, {certificate}⟩⟩, fun _ _ => true⟩

theorem SpiffeTrustManager.permissive_accepts {leaf : X509Certificate}
    (h : CertificateUtils.getSpiffeId leaf = .ok (some spiffeId)) :
    (SpiffeTrustManager.permissive leaf).checkTrusted .sample [leaf] "" .client
      (.unknown : Transport Socket SSLEngine) = .ok () := by
  rw [checkTrusted_eq_checkPeer, checkPeer_eq_ok, CertificateUtils.validate_eq_ok]
  exact ⟨⟨Finset.singleton_nonempty leaf, rfl⟩, spiffeId, h, rfl⟩

/-- Neither decision looks at the kind of an entry; it is right when the leading name happens to
be a URI. -/
theorem uriIdentified_iff (Socket SSLEngine : Type) (sans : List GeneralName) :
    UriIdentified Socket SSLEngine sans ↔ LeadingNameIsUri sans := by
  apply Iff.intro
  · intro h pre san post spiffeId he hd hv hs
    have hf := findFirst_leading.2 ⟨pre, san, post, he, hd, hv, hs⟩
    have hi : CertificateUtils.getSpiffeId ⟨[], 0, .names sans⟩ = .ok (some spiffeId) :=
      CertificateUtils.getSpiffeId_eq_some.2 ⟨sans, rfl, hf⟩
    exact h.trustManager _ _ _ _ _ _ _ _ rfl (SpiffeTrustManager.permissive_accepts hi) hi
  · intro h
    apply UriIdentified.mk
    · intro jca tm leaf rest authType role transport spiffeId hn _ hi
      obtain ⟨sans', hn', hf⟩ := CertificateUtils.getSpiffeId_eq_some.1 hi
      cases hn.symm.trans hn'
      exact h.named hf
    · intro f servlet leaf rest spiffeId hn _ hi
      exact h.named (SpiffeFilter.getSpiffeId_findFirst hn hi)

theorem dnsName_identified :
    ¬ UriIdentified Unit Unit [⟨.dNSName, .string "spiffe://example.org/front-end"⟩] := by
  intro h
  have hi : CertificateUtils.getSpiffeId
      ⟨[], 0, .names [⟨.dNSName, .string "spiffe://example.org/front-end"⟩]⟩ =
      .ok (some "spiffe://example.org/front-end") := rfl
  obtain ⟨san, hm, ht, _⟩ := h.trustManager _ _ _ _ _ _ _ _ rfl
    (SpiffeTrustManager.permissive_accepts hi) hi
  cases List.mem_singleton.1 hm
  cases ht

end SpiffeExample
