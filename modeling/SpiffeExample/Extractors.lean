import SpiffeExample.UriIdentity

namespace SpiffeExample
set_option autoImplicit true

/-- Both find the same identity, or neither finds one, or both refuse the certificate. -/
def SameVerdict : Except Throwable (Option String) → Except Throwable (Option String) → Prop
  | .ok spiffeId, .ok spiffeId' => spiffeId = spiffeId'
  | .error _, .error _ => True
  | .ok _, .error _ | .error _, .ok _ => False

def GeneralName.Plain (san : GeneralName) : Prop :=
  ∃ s, san.value = .string s ∧ startsWith s "spiffe://" = false

/-- Once a name with the scheme is found, only strings without it come after. -/
def SoleName (sans : List GeneralName) : Prop :=
  ∀ pre san post spiffeId, sans = pre ++ san :: post → (∀ other ∈ pre, other.Plain) →
    san.value = .string spiffeId → startsWith spiffeId "spiffe://" = true →
    ∀ other ∈ post, other.Plain

theorem GeneralName.plain_iff {san : GeneralName} :
    san.Plain ↔ Pipeline.Dropped GeneralName.stringValue (startsWith · "spiffe://") san := by
  simp only [GeneralName.Plain, Pipeline.Dropped, GeneralName.stringValue_eq_ok]

theorem CertificateUtils.getSpiffeId_names {leaf : X509Certificate} (h : leaf.san = .names sans) :
    getSpiffeId leaf =
      Pipeline.findFirst GeneralName.stringValue (startsWith · "spiffe://") sans := by
  simp only [getSpiffeId, X509Certificate.getSubjectAlternativeNames, h]
  rfl

theorem SpiffeFilter.spiffeIds_leading (hd : ∀ other ∈ pre, other.Plain)
    (hv : san.value = .string spiffeId) (hs : startsWith spiffeId "spiffe://" = true) :
    spiffeIds (pre ++ san :: post) = (spiffeIds post).map (spiffeId :: ·) := by
  rw [spiffeIds, Pipeline.collect_append (fun other ho => GeneralName.plain_iff.1 (hd other ho)),
    Pipeline.collect_cons_ok (GeneralName.stringValue_eq_ok.2 hv)]
  simp only [hs, if_true, spiffeIds]

theorem SpiffeFilter.spiffeIds_eq_nil :
    spiffeIds sans = .ok [] ↔ ∀ other ∈ sans, other.Plain := by
  simp only [spiffeIds, Pipeline.collect_eq_nil, GeneralName.plain_iff]

/-- The filter finds the leading name exactly when nothing after it is another or no string. -/
theorem SpiffeFilter.getSpiffeId_leading {leaf : X509Certificate}
    (hn : leaf.san = .names (pre ++ san :: post)) (hd : ∀ other ∈ pre, other.Plain)
    (hv : san.value = .string spiffeId) (hs : startsWith spiffeId "spiffe://" = true) :
    SameVerdict (.ok (some spiffeId)) (SpiffeFilter.getSpiffeId leaf) ↔
      ∀ other ∈ post, other.Plain := by
  rw [getSpiffeId_names hn, spiffeIds_leading hd hv hs, ← spiffeIds_eq_nil]
  cases spiffeIds post with
  | error e => exact ⟨fun h => h.elim, fun h => (nomatch h)⟩
  | ok others =>
    cases others with
    | nil => exact ⟨fun _ => rfl, fun _ => rfl⟩
    | cons other others => exact ⟨fun h => h.elim, fun h => (nomatch h)⟩

theorem sameVerdict_names {leaf : X509Certificate} (hn : leaf.san = .names sans) :
    SameVerdict (CertificateUtils.getSpiffeId leaf) (SpiffeFilter.getSpiffeId leaf) ↔
      SoleName sans := by
  rw [CertificateUtils.getSpiffeId_names hn]
  apply Iff.intro
  · intro h pre san post spiffeId he hd hv hs
    have hf := findFirst_leading.2 ⟨pre, san, post, he, hd, hv, hs⟩
    rw [hf] at h
    exact (SpiffeFilter.getSpiffeId_leading (he ▸ hn) hd hv hs).1 h
  · intro h
    cases hf : Pipeline.findFirst GeneralName.stringValue (startsWith · "spiffe://") sans with
    | error e =>
      rw [SpiffeFilter.getSpiffeId_names hn]
      cases hc : SpiffeFilter.spiffeIds sans with
      | error e => trivial
      | ok spiffeIds => cases hf.symm.trans (Pipeline.collect_findFirst hc)
    | ok found =>
      cases found with
      | none =>
        have hp : ∀ other ∈ sans, other.Plain :=
          fun other ho => GeneralName.plain_iff.2 (Pipeline.findFirst_eq_none hf other ho)
        rw [SpiffeFilter.getSpiffeId_names hn, SpiffeFilter.spiffeIds_eq_nil.2 hp]
        rfl
      | some spiffeId =>
        obtain ⟨pre, san, post, he, hd, hv, hs⟩ := findFirst_leading.1 hf
        have hp := h pre san post spiffeId he hd hv hs
        exact (SpiffeFilter.getSpiffeId_leading (he ▸ hn) hd hv hs).2 hp

/-- The two copies of the extraction agree exactly on the certificates with a sole name: where
one stops at the first name, the other goes on and may refuse. -/
theorem sameVerdict_iff (leaf : X509Certificate) :
    SameVerdict (CertificateUtils.getSpiffeId leaf) (SpiffeFilter.getSpiffeId leaf) ↔
      ∀ sans, leaf.san = .names sans → SoleName sans := by
  cases hn : leaf.san with
  | malformed =>
    simp only [CertificateUtils.getSpiffeId, SpiffeFilter.getSpiffeId,
      X509Certificate.getSubjectAlternativeNames, hn]
    apply Iff.intro
    · intro _ sans h
      cases h
    · intro _
      trivial
  | absent =>
    simp only [CertificateUtils.getSpiffeId, SpiffeFilter.getSpiffeId,
      X509Certificate.getSubjectAlternativeNames, hn]
    apply Iff.intro
    · intro _ sans h
      cases h
    · intro _
      trivial
  | names sans =>
    rw [sameVerdict_names hn]
    apply Iff.intro
    · intro h sans' he
      cases he
      exact h
    · intro h
      exact h sans rfl

/-- Of several names the first one is taken by the provider, and the filter refuses them all. -/
theorem severalNames_disagree :
    ¬ SameVerdict
      (CertificateUtils.getSpiffeId ⟨[], 0, .names
        [⟨.uniformResourceIdentifier, .string "spiffe://example.org/a"⟩,
          ⟨.uniformResourceIdentifier, .string "spiffe://example.org/b"⟩]⟩)
      (SpiffeFilter.getSpiffeId ⟨[], 0, .names
        [⟨.uniformResourceIdentifier, .string "spiffe://example.org/a"⟩,
          ⟨.uniformResourceIdentifier, .string "spiffe://example.org/b"⟩]⟩) :=
  fun h => h

end SpiffeExample
