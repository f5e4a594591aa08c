import SpiffeExample.SvidManager

namespace SpiffeExample.SpiffeSVIDManager
set_option autoImplicit true

/-- The getters are the projections of one SVID, or the empty values where there is none. -/
structure Projects (m : SpiffeSVIDManager) (held : Option SpiffeSVID) : Prop where
  getSvid : m.getSvid = held.map SpiffeSVID.svid
  getPrivateKey : m.getPrivateKey = held.map SpiffeSVID.privateKey
  getSpiffeID : m.getSpiffeID = (held.map SpiffeSVID.spiffeID).getD ""
  getTrustedCerts : m.getTrustedCerts = (held.map SpiffeSVID.bundle).getD ∅

theorem Projects.spiffeSVID (m : SpiffeSVIDManager) : m.Projects m.spiffeSVID := by
  obtain ⟨held⟩ := m
  cases held with
  | none => exact ⟨rfl, rfl, rfl, rfl⟩
  | some spiffeSVID => exact ⟨rfl, rfl, rfl, rfl⟩

theorem certificateUpdater_rejected (m : SpiffeSVIDManager)
    (h : published jca now certs = none) :
    ∃ e, m.certificateUpdater jca now certs = (.error e, m) := by
  match certs with
  | [] => exact ⟨_, rfl⟩
  | _ :: _ :: _ => exact ⟨_, rfl⟩
  | [x509SVID] =>
    rw [← SpiffeSVID.new_toOption] at h
    rw [certificateUpdater]
    cases hn : SpiffeSVID.new jca now x509SVID with
    | error e => exact ⟨e, rfl⟩
    | ok spiffeSVID =>
      rw [hn] at h
      cases h

theorem certificateUpdater_published {held : SpiffeSVID} (m : SpiffeSVIDManager)
    (h : published jca now certs = some held) :
    m.certificateUpdater jca now certs = (.ok (), ⟨some held⟩) := by
  match certs with
  | [] => cases h
  | _ :: _ :: _ => cases h
  | [x509SVID] =>
    rw [← SpiffeSVID.new_toOption] at h
    rw [certificateUpdater]
    cases hn : SpiffeSVID.new jca now x509SVID with
    | error e =>
      rw [hn] at h
      cases h
    | ok new =>
      rw [hn] at h
      cases h
      rfl

theorem held_of_run (h : (Identity.system jca).run s events = some t)
    (hs : s.manager.spiffeSVID ≠ none) : ∃ spiffeSVID, t.manager.spiffeSVID = some spiffeSVID := by
  apply Option.ne_none_iff_exists'.1
  rw [Identity.run_spiffeSVID h]
  intro hn
  exact hs (Option.or_eq_none_iff.1 hn).2

/-- After any run the getters show the last push that published and nothing of any other. -/
theorem getters_lastPush (hi : (Identity.system jca).init s)
    (hr : (Identity.system jca).run s events = some t) :
    t.manager.Projects ((lastPush jca s.clock events).map Prod.snd) ∧
    (∀ certs, published jca t.clock certs = none →
      ∃ e, t.manager.certificateUpdater jca t.clock certs = (.error e, t.manager)) ∧
    (∀ certs spiffeSVID, published jca t.clock certs = some spiffeSVID →
      (t.manager.certificateUpdater jca t.clock certs).1 = .ok () ∧
      (t.manager.certificateUpdater jca t.clock certs).2.Projects (some spiffeSVID)) ∧
    ∀ later u, lastPush jca s.clock events ≠ none →
      (Identity.system jca).run t later = some u →
      ∃ spiffeSVID, u.manager.Projects (some spiffeSVID) := by
  have hm := Identity.run_lastPush hi hr
  refine ⟨hm ▸ Projects.spiffeSVID t.manager, ?_, ?_, ?_⟩
  · intro certs hp
    exact certificateUpdater_rejected t.manager hp
  · intro certs spiffeSVID hp
    rw [certificateUpdater_published t.manager hp]
    exact ⟨rfl, Projects.spiffeSVID ⟨some spiffeSVID⟩⟩
  · intro later u hl hu
    have ht : t.manager.spiffeSVID ≠ none := by
      rw [hm]
      intro hn
      exact hl (Option.map_eq_none_iff.1 hn)
    obtain ⟨spiffeSVID, hh⟩ := held_of_run hu ht
    exact ⟨spiffeSVID, hh ▸ Projects.spiffeSVID u.manager⟩

theorem getters_after_push :
    Identity.sample.manager.Projects (some ⟨"spiffe://example.org/back-end",
      ⟨[1], 1000, .names [⟨.uniformResourceIdentifier, .string "spiffe://example.org/back-end"⟩]⟩,
      ⟨"EC", [2]⟩, {⟨[3], 1000, .absent⟩}⟩) := by
  have hi : (Identity.system .sample).init ⟨0, ⟨none⟩⟩ := rfl
  have hr : (Identity.system .sample).run ⟨0, ⟨none⟩⟩ [.push [.sample], .push []] =
      some .sample := rfl
  have hl : (lastPush .sample 0 [.push [.sample], .push []]).map Prod.snd =
      some ⟨"spiffe://example.org/back-end",
        ⟨[1], 1000, .names [⟨.uniformResourceIdentifier, .string "spiffe://example.org/back-end"⟩]⟩,
        ⟨"EC", [2]⟩, {⟨[3], 1000, .absent⟩}⟩ := by decide
  exact hl ▸ (getters_lastPush hi hr).1

end SpiffeExample.SpiffeSVIDManager
