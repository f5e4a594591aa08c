import SpiffeExample.Filter

namespace SpiffeExample.SpiffeFilter
set_option autoImplicit true

def Authorized (f : SpiffeFilter) (certificates : Option (List X509Certificate)) : Prop :=
  ∃ leaf rest sans spiffeId, certificates = some (leaf :: rest) ∧ leaf.san = .names sans ∧
    spiffeIds sans = .ok [spiffeId] ∧ f.acceptSpiffeId = some spiffeId

theorem spiffeIds_error (h : spiffeIds sans = .error e) : e = .classCastException := by
  obtain ⟨san, _, he⟩ := Pipeline.collect_error h
  rw [GeneralName.stringValue] at he
  split at he
  · cases he
  · cases he
    rfl

theorem getSpiffeId_names {leaf : X509Certificate} (h : leaf.san = .names sans) :
    getSpiffeId leaf = match spiffeIds sans with
      | .error e => .error e
      | .ok [] => .ok none
      | .ok [spiffeId] => .ok (some spiffeId)
      | .ok _ => .error
        (.illegalArgumentException "Certificate contains multiple SpiffeID. Not Supported ") := by
  simp only [getSpiffeId, X509Certificate.getSubjectAlternativeNames, h, dereference, bind,
    Except.bind]
  cases spiffeIds sans with
  | error e => rfl
  | ok spiffeIds =>
    cases spiffeIds with
    | nil => rfl
    | cons spiffeId others => cases others <;> rfl

theorem getSpiffeId_some {leaf : X509Certificate} (h : getSpiffeId leaf = .ok (some spiffeId)) :
    ∃ sans, leaf.san = .names sans ∧ spiffeIds sans = .ok [spiffeId] := by
  cases hs : leaf.san with
  | malformed =>
    simp only [getSpiffeId, X509Certificate.getSubjectAlternativeNames, hs] at h
    cases h
  | absent =>
    simp only [getSpiffeId, X509Certificate.getSubjectAlternativeNames, hs] at h
    cases h
  | names sans =>
    rw [getSpiffeId_names hs] at h
    split at h
    · cases h
    · cases h
    · rename_i he
      cases h
      exact ⟨sans, rfl, he⟩
    · cases h

theorem getSpiffeId_malformed {leaf : X509Certificate} :
    getSpiffeId leaf = .error .certificateParsingException ↔ leaf.san = .malformed := by
  cases hs : leaf.san with
  | malformed =>
    simp only [getSpiffeId, X509Certificate.getSubjectAlternativeNames, hs, bind, Except.bind]
  | absent =>
    simp only [getSpiffeId, X509Certificate.getSubjectAlternativeNames, hs, bind, Except.bind,
      dereference, Except.error.injEq, reduceCtorEq]
  | names sans =>
    rw [getSpiffeId_names hs]
    split
    · rename_i e he
      rw [spiffeIds_error he]
      simp only [Except.error.injEq, reduceCtorEq]
    · simp only [reduceCtorEq]
    · simp only [reduceCtorEq]
    · simp only [Except.error.injEq, reduceCtorEq]

theorem authorize_calls (f : SpiffeFilter) (servlet : Servlet) (leaf : X509Certificate) :
    Effect.doFilter ∉ (f.authorize servlet leaf).1 := by
  rw [authorize]
  split
  · exact List.not_mem_nil
  · exact List.not_mem_nil
  · split
    · split <;> simp only [List.mem_singleton, reduceCtorEq, not_false_eq_true]
    · exact List.not_mem_nil

theorem authorize_ok {f : SpiffeFilter} :
    (f.authorize servlet leaf).2 = .ok () ↔
      ∃ spiffeId, getSpiffeId leaf = .ok (some spiffeId) ∧ f.acceptSpiffeId = some spiffeId := by
  rw [authorize]
  split
  · rename_i e he
    simp only [reduceCtorEq, he, false_and, exists_false]
  · rename_i he
    simp only [reduceCtorEq, he, Except.ok.injEq, false_and, exists_false]
  · rename_i spiffeID he
    simp only [he, Except.ok.injEq, Option.some.injEq]
    split
    · rename_i hne
      have hno : ¬ ∃ spiffeId, spiffeID = spiffeId ∧ f.acceptSpiffeId = some spiffeId := by
        intro h
        obtain ⟨_, rfl, ha⟩ := h
        exact hne ha.symm
      split <;> simp only [reduceCtorEq, hno]
    · rename_i hne
      exact ⟨fun _ => ⟨spiffeID, rfl, (not_not.1 hne).symm⟩, fun _ => rfl⟩

theorem authorize_malformed {f : SpiffeFilter} :
    (f.authorize servlet leaf).2 = .error .certificateParsingException ↔
      leaf.san = .malformed := by
  rw [← getSpiffeId_malformed]
  rw [authorize]
  split
  · rename_i e he
    simp only [he, Except.error.injEq]
  · rename_i he
    simp only [he, Except.error.injEq, reduceCtorEq]
  · rename_i spiffeID he
    simp only [he, reduceCtorEq, iff_false]
    split
    · split
      · rename_i e hs
        intro h
        cases h
        exact servlet.checked 403 hs
      · simp only [Except.error.injEq, reduceCtorEq, not_false_eq_true]
    · simp only [reduceCtorEq, not_false_eq_true]

/-- With a certificate the request is passed on after a normal end of the `try` block and after
the exception that is caught. -/
theorem passes_cons {f : SpiffeFilter} :
    f.Passes servlet (some (leaf :: rest)) ↔
      (f.authorize servlet leaf).2 = .ok () ∨ leaf.san = .malformed := by
  rw [← @authorize_malformed servlet leaf f]
  have hc := f.authorize_calls servlet leaf
  rw [Passes, doFilter]
  rcases ha : f.authorize servlet leaf with ⟨effects, e | u⟩
  · rw [ha] at hc
    by_cases he : e = .certificateParsingException
    · subst e
      simp only [List.mem_append, List.mem_cons, true_or, or_true]
    · simp only [reduceCtorEq, Except.error.injEq, he, or_self, iff_false]
      exact hc
  · simp only [List.mem_append, List.mem_singleton, or_true, true_or]

theorem authorized_iff {f : SpiffeFilter} :
    f.Authorized certificates ↔ ∃ leaf rest, certificates = some (leaf :: rest) ∧
      (f.authorize servlet leaf).2 = .ok () := by
  apply Iff.intro
  · intro h
    obtain ⟨leaf, rest, sans, spiffeId, hc, hn, hs, ha⟩ := h
    have hi : getSpiffeId leaf = .ok (some spiffeId) := by rw [getSpiffeId_names hn, hs]
    exact ⟨leaf, rest, hc, authorize_ok.2 ⟨spiffeId, hi, ha⟩⟩
  · intro h
    obtain ⟨leaf, rest, hc, ha⟩ := h
    obtain ⟨spiffeId, hi, hf⟩ := authorize_ok.1 ha
    obtain ⟨sans, hn, hs⟩ := getSpiffeId_some hi
    exact ⟨leaf, rest, sans, spiffeId, hc, hn, hs, hf⟩

/-- The filter decides by the identity unless there is no certificate in a present attribute or
the names of the leaf cannot be decoded: then it lets every request through. -/
theorem passes_iff_authorized (f : SpiffeFilter) (servlet : Servlet)
    (certificates : Option (List X509Certificate)) :
    (f.Passes servlet certificates ↔ f.Authorized certificates) ↔
      certificates ≠ some [] ∧
        ∀ leaf rest, certificates = some (leaf :: rest) → leaf.san ≠ .malformed := by
  rw [@authorized_iff certificates servlet f]
  match certificates with
  | none =>
    simp only [Passes, doFilter, List.not_mem_nil, reduceCtorEq, false_and, exists_false, ne_eq,
      not_false_eq_true, false_imp_iff, implies_true, and_self]
  | some [] =>
    simp only [Passes, doFilter, List.mem_singleton, Option.some.injEq, reduceCtorEq, false_and,
      exists_false, ne_eq, not_true_eq_false, iff_false]
  | some (leaf :: rest) =>
    rw [passes_cons]
    apply Iff.intro
    · intro h
      apply And.intro
      · intro he
        cases he
      · intro leaf' rest' he hm
        cases he
        obtain ⟨leaf', rest', he, ha⟩ := h.1 (.inr hm)
        cases he
        rw [authorize_malformed.2 hm] at ha
        cases ha
    · intro h
      obtain ⟨_, hm⟩ := h
      apply Iff.intro
      · intro h
        rcases h with ha | ha
        · exact ⟨leaf, rest, rfl, ha⟩
        · exact absurd ha (hm leaf rest rfl)
      · intro h
        obtain ⟨leaf', rest', he, ha⟩ := h
        cases he
        exact .inl ha

theorem passes_without_certificate :
    ¬ (Passes ⟨some "spiffe://example.org/workload"⟩ .silent (some []) ↔
      Authorized ⟨some "spiffe://example.org/workload"⟩ (some [])) := by
  intro h
  have hp : Passes ⟨some "spiffe://example.org/workload"⟩ .silent (some []) :=
    List.mem_singleton.2 rfl
  obtain ⟨leaf, rest, sans, spiffeId, hc, _⟩ := h.1 hp
  cases hc

end SpiffeExample.SpiffeFilter
