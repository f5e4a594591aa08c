import SpiffeExample.SvidManager

namespace SpiffeExample.Identity
set_option autoImplicit true

theorem trustedCerts_lastPush (hi : (Identity.system jca).init s)
    (hr : (Identity.system jca).run s events = some t) (hc : c ∈ t.manager.getTrustedCerts) :
    ∃ now spiffeSVID, lastPush jca s.clock events = some (now, spiffeSVID) ∧
      now ≤ t.clock ∧ now < c.notAfter := by
  have hm := Identity.run_lastPush hi hr
  cases hl : lastPush jca s.clock events with
  | none =>
    simp only [SpiffeSVIDManager.getTrustedCerts, hm, hl] at hc
    exact absurd hc (Finset.notMem_empty c)
  | some p =>
    simp only [SpiffeSVIDManager.getTrustedCerts, hm, hl] at hc
    obtain ⟨certs, hp⟩ := lastPush_published hl
    exact ⟨p.1, p.2, rfl, Identity.lastPush_clock hr hl, published_bundle hp hc⟩

/-- A trusted certificate, and so a trust anchor, was unexpired at the last push that published. -/
theorem trusted_unexpired_at_push (hi : (Identity.system jca).init s)
    (hr : (Identity.system jca).run s events = some t) :
    (∀ c ∈ t.manager.getTrustedCerts,
      ∃ now spiffeSVID, lastPush jca s.clock events = some (now, spiffeSVID) ∧
        now ≤ t.clock ∧ now < c.notAfter) ∧
    ∀ pkixParameters,
      CertificateUtils.toPkixParameters (some t.manager.getTrustedCerts) = .ok pkixParameters →
      ∀ a ∈ pkixParameters.trustAnchors,
        ∃ now spiffeSVID, lastPush jca s.clock events = some (now, spiffeSVID) ∧
          now ≤ t.clock ∧ now < a.trustedCert.notAfter := by
  apply And.intro
  · intro c hc
    exact trustedCerts_lastPush hi hr hc
  · intro pkixParameters hp a ha
    rw [CertificateUtils.toPkixParameters_anchors hp] at ha
    obtain ⟨c, hc, he⟩ := Finset.mem_image.1 ha
    subst he
    exact trustedCerts_lastPush hi hr hc

theorem trusted_expires :
    ¬ ∀ events t, (Identity.system .sample).run ⟨0, ⟨none⟩⟩ events = some t →
      ∀ c ∈ t.manager.getTrustedCerts, t.clock < c.notAfter := by
  intro h
  have hr : (Identity.system .sample).run ⟨0, ⟨none⟩⟩ [.push [.sample], .advance 2000] =
      some ⟨2000, Identity.sample.manager⟩ := rfl
  have hc : ⟨[3], 1000, .absent⟩ ∈ Identity.sample.manager.getTrustedCerts := by decide
  have hn := h _ _ hr _ hc
  exact absurd hn (by decide)

theorem trusted_unexpired_after_push :
    ∃ now spiffeSVID, lastPush .sample 0 [.push [.sample], .advance 2000] =
      some (now, spiffeSVID) ∧ now ≤ 2000 ∧ now < 1000 := by
  have hi : (Identity.system .sample).init ⟨0, ⟨none⟩⟩ := rfl
  have hr : (Identity.system .sample).run ⟨0, ⟨none⟩⟩ [.push [.sample], .advance 2000] =
      some ⟨2000, Identity.sample.manager⟩ := rfl
  exact (trusted_unexpired_at_push hi hr).1 ⟨[3], 1000, .absent⟩ (by decide)

end SpiffeExample.Identity
