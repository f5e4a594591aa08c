import SpiffeExample.Extractors

namespace SpiffeExample
set_option autoImplicit true

/-- The validator returns, or throws one of the two exceptions that `validate` catches. -/
def Jca.Validates (jca : Jca) : Prop :=
  ∀ chain pkixParameters e, jca.certPathValidator chain pkixParameters = .error e →
    e = .certPathValidatorException ∨ e = .invalidAlgorithmParameterException

/-- The string of an entry of any kind, where it has the scheme. -/
def GeneralName.spiffeName (san : GeneralName) : Option String :=
  match san.value with
  | .string s => if startsWith s "spiffe://" then some s else none
  | .bytes _ => none

def GeneralName.spiffeUri (san : GeneralName) : Option String :=
  if san.type = .uniformResourceIdentifier then san.spiffeName else none

def Undeclared (result : Except Throwable α) : Prop :=
  result = .error .nullPointerException ∨ result = .error .classCastException

/-- Certificates on which checking fails with a declared error only, and which are identified by
their URI where they have exactly one. -/
structure DeclaredOnly (Socket SSLEngine : Type) (leaf : X509Certificate) : Prop where
  provider : ¬ Undeclared (CertificateUtils.getSpiffeId leaf)
  filter : ¬ Undeclared (SpiffeFilter.getSpiffeId leaf)
  trustManager : ∀ (jca : Jca) (tm : SpiffeTrustManager) (rest : List X509Certificate)
    (authType : String) (role : SpiffeTrustManager.Role)
    (transport : SpiffeTrustManager.Transport Socket SSLEngine) (e : Throwable), jca.Validates →
    tm.checkTrusted jca (leaf :: rest) authType role transport = .error e →
    e.isCertificateException = true
  identified : ∀ sans spiffeId, leaf.san = .names sans →
    sans.filterMap GeneralName.spiffeUri = [spiffeId] →
    CertificateUtils.getSpiffeId leaf = .ok (some spiffeId) ∧
      SpiffeFilter.getSpiffeId leaf = .ok (some spiffeId)

/-- Every entry is a string, and where exactly one of them is a URI with the scheme no entry of
another kind has it. -/
def Regular (sans : List GeneralName) : Prop :=
  (∀ san ∈ sans, ∃ s, san.value = .string s) ∧
  ∀ spiffeId, sans.filterMap GeneralName.spiffeUri = [spiffeId] →
    ∀ san ∈ sans, san.spiffeName ≠ none → san.type = .uniformResourceIdentifier

theorem GeneralName.spiffeName_string {san : GeneralName} (h : san.value = .string s) :
    san.spiffeName = if startsWith s "spiffe://" then some s else none := by
  rw [spiffeName, h]

theorem GeneralName.spiffeUri_eq_some {san : GeneralName} (h : san.spiffeUri = some s) :
    san.spiffeName = some s := by
  rw [spiffeUri] at h
  split at h
  · exact h
  · cases h

theorem SpiffeFilter.spiffeIds_strings (h : ∀ san ∈ sans, ∃ s, san.value = .string s) :
    spiffeIds sans = .ok (sans.filterMap GeneralName.spiffeName) := by
  induction sans with
  | nil => rfl
  | cons san sans ih =>
    obtain ⟨⟨s, hs⟩, h⟩ := List.forall_mem_cons.1 h
    have ih := ih h
    rw [spiffeIds] at ih
    rw [spiffeIds, Pipeline.collect_cons_ok (GeneralName.stringValue_eq_ok.2 hs), ih,
      List.filterMap_cons, GeneralName.spiffeName_string hs]
    cases startsWith s "spiffe://" <;> rfl

theorem SpiffeFilter.strings_of_spiffeIds (h : spiffeIds sans = .ok ids) (hm : san ∈ sans) :
    ∃ s, san.value = .string s := by
  obtain ⟨s, hs, _⟩ := Pipeline.collect_ok h hm
  exact ⟨s, GeneralName.stringValue_eq_ok.1 hs⟩

theorem spiffeName_of_regular (h : Regular sans)
    (hu : sans.filterMap GeneralName.spiffeUri = [spiffeId]) :
    sans.filterMap GeneralName.spiffeName = [spiffeId] := by
  rw [← hu]
  apply List.filterMap_congr
  intro san hm
  rw [GeneralName.spiffeUri]
  split
  · rfl
  · rename_i ht
    by_contra hn
    exact ht (h.2 spiffeId hu san hm hn)

/-- Two names of the list cannot both be the only one of a kind. -/
theorem type_of_unique {sans : List GeneralName}
    (hu : sans.filterMap GeneralName.spiffeUri = [spiffeId])
    (hn : sans.filterMap GeneralName.spiffeName = [spiffeId]) (hm : san ∈ sans)
    (hs : san.spiffeName ≠ none) : san.type = .uniformResourceIdentifier := by
  by_contra ht
  obtain ⟨pre, post, rfl⟩ := List.append_of_mem hm
  obtain ⟨s, hs⟩ := Option.ne_none_iff_exists'.1 hs
  have hno : san.spiffeUri = none := by rw [GeneralName.spiffeUri, if_neg ht]
  rw [List.filterMap_append, List.filterMap_cons_some hs] at hn
  rw [List.filterMap_append, List.filterMap_cons_none hno] at hu
  have hl := congrArg List.length hn
  simp only [List.length_append, List.length_cons, List.length_nil] at hl
  have hpre : pre.filterMap GeneralName.spiffeName = [] := List.eq_nil_of_length_eq_zero (by omega)
  have hpost : post.filterMap GeneralName.spiffeName = [] :=
    List.eq_nil_of_length_eq_zero (by omega)
  have hnone {l : List GeneralName} (hl : l.filterMap GeneralName.spiffeName = []) :
      l.filterMap GeneralName.spiffeUri = [] := by
    apply List.filterMap_eq_nil_iff.2
    intro other ho
    apply Option.eq_none_iff_forall_not_mem.2
    intro t ht
    cases (List.filterMap_eq_nil_iff.1 hl other ho).symm.trans (GeneralName.spiffeUri_eq_some ht)
  rw [hnone hpre, hnone hpost] at hu
  cases hu

theorem CertificateUtils.validate_error {certs : Finset X509Certificate} (hj : jca.Validates)
    (h : validate jca chain (some certs) = .error e) : e.isCertificateException = true := by
  rcases certs.eq_empty_or_nonempty with rfl | hn
  · cases h
    rfl
  · simp only [validate, toPkixParameters_nonempty hn] at h
    cases hv : jca.certPathValidator chain (anchoredAt certs) with
    | ok u =>
      rw [hv] at h
      cases h
    | error thrown =>
      rw [hv] at h
      rcases hj _ _ _ hv with rfl | rfl
      · cases h
        rfl
      · cases h
        rfl

theorem SpiffeTrustManager.checkPeer_error {tm : SpiffeTrustManager} (hj : jca.Validates)
    (hu : ∀ e, CertificateUtils.getSpiffeId leaf = .error e → e.isCertificateException = true)
    (h : tm.checkPeer jca (leaf :: rest) = .error e) : e.isCertificateException = true := by
  rw [checkPeer] at h
  cases hv : CertificateUtils.validate jca (leaf :: rest)
      (some tm.spiffeSVIDManager.getTrustedCerts) with
  | error thrown =>
    rw [hv] at h
    cases h
    exact CertificateUtils.validate_error hj hv
  | ok u =>
    rw [hv] at h
    change tm.checkSpiffeId (leaf :: rest) = .error e at h
    simp only [checkSpiffeId, firstOf, bind, Except.bind] at h
    cases hi : CertificateUtils.getSpiffeId leaf with
    | error thrown =>
      rw [hi] at h
      cases h
      exact hu e hi
    | ok spiffeId =>
      rw [hi] at h
      cases spiffeId with
      | none =>
        cases h
        rfl
      | some spiffeId =>
        dsimp only at h
        split at h
        · cases h
          rfl
        · cases h

theorem not_undeclared_ok {a : α} : ¬ Undeclared (.ok a) := by
  intro h
  rcases h with h | h
  · cases h
  · cases h

theorem declaredOnly_of_regular {leaf : X509Certificate} (hn : leaf.san = .names sans)
    (h : Regular sans) : DeclaredOnly Socket SSLEngine leaf := by
  have hc := SpiffeFilter.spiffeIds_strings h.1
  have hf := SpiffeFilter.getSpiffeId_names hn
  rw [hc] at hf
  have hp : CertificateUtils.getSpiffeId leaf =
      .ok (sans.filterMap GeneralName.spiffeName).head? := by
    rw [CertificateUtils.getSpiffeId_names hn]
    exact Pipeline.collect_findFirst hc
  apply DeclaredOnly.mk
  · rw [hp]
    exact not_undeclared_ok
  · rw [hf]
    intro hu
    split at hu
    · rename_i he
      cases he
    · exact not_undeclared_ok hu
    · exact not_undeclared_ok hu
    · rcases hu with hu | hu
      · cases hu
      · cases hu
  · intro jca tm rest authType role transport e hj he
    rw [SpiffeTrustManager.checkTrusted_eq_checkPeer] at he
    exact SpiffeTrustManager.checkPeer_error hj (fun e he => nomatch hp.symm.trans he) he
  · intro sans' spiffeId hn' hu
    cases hn.symm.trans hn'
    have hone := spiffeName_of_regular h hu
    rw [hone] at hp hf
    exact ⟨hp, hf⟩

theorem declaredOnly_of_malformed {leaf : X509Certificate} (hm : leaf.san = .malformed) :
    DeclaredOnly Socket SSLEngine leaf := by
  have hp : CertificateUtils.getSpiffeId leaf = .error .certificateParsingException := by
    simp only [CertificateUtils.getSpiffeId, X509Certificate.getSubjectAlternativeNames, hm]
    rfl
  have hf := SpiffeFilter.getSpiffeId_malformed.2 hm
  apply DeclaredOnly.mk
  · intro hu
    rw [hp] at hu
    rcases hu with hu | hu
    · cases hu
    · cases hu
  · intro hu
    rw [hf] at hu
    rcases hu with hu | hu
    · cases hu
    · cases hu
  · intro jca tm rest authType role transport e hj he
    rw [SpiffeTrustManager.checkTrusted_eq_checkPeer] at he
    apply SpiffeTrustManager.checkPeer_error hj _ he
    intro e he
    cases hp.symm.trans he
    rfl
  · intro sans spiffeId hn
    cases hm.symm.trans hn

theorem regular_of_declaredOnly {leaf : X509Certificate} (hn : leaf.san = .names sans)
    (h : DeclaredOnly Socket SSLEngine leaf) : Regular sans := by
  have hf := SpiffeFilter.getSpiffeId_names hn
  cases hc : SpiffeFilter.spiffeIds sans with
  | error e =>
    rw [hc, SpiffeFilter.spiffeIds_error hc] at hf
    exact absurd (.inr hf) h.filter
  | ok spiffeIds =>
    have hs : ∀ san ∈ sans, ∃ s, san.value = .string s :=
      fun san hm => SpiffeFilter.strings_of_spiffeIds hc hm
    apply And.intro hs
    intro spiffeId hu san hm hno
    obtain ⟨sans', hn', hone⟩ := SpiffeFilter.getSpiffeId_some (h.identified sans spiffeId hn hu).2
    cases hn.symm.trans hn'
    rw [SpiffeFilter.spiffeIds_strings hs] at hone
    exact type_of_unique hu (Except.ok.inj hone) hm hno

/-- Checking is well behaved exactly on the certificates whose names cannot be decoded at all
and on those with a regular list of names. -/
theorem declaredOnly_iff (Socket SSLEngine : Type) (leaf : X509Certificate) :
    DeclaredOnly Socket SSLEngine leaf ↔
      leaf.san = .malformed ∨ ∃ sans, leaf.san = .names sans ∧ Regular sans := by
  apply Iff.intro
  · intro h
    cases hn : leaf.san with
    | malformed => exact .inl rfl
    | absent =>
      have hp : CertificateUtils.getSpiffeId leaf = .error .nullPointerException := by
        simp only [CertificateUtils.getSpiffeId, X509Certificate.getSubjectAlternativeNames, hn]
        rfl
      exact absurd (.inl hp) h.provider
    | names sans => exact .inr ⟨sans, rfl, regular_of_declaredOnly hn h⟩
  · intro h
    rcases h with hm | ⟨sans, hn, hr⟩
    · exact declaredOnly_of_malformed hm
    · exact declaredOnly_of_regular hn hr

theorem absent_dereferenced : ¬ DeclaredOnly Unit Unit ⟨[], 0, .absent⟩ :=
  fun h => h.provider (.inl rfl)

end SpiffeExample
