import SpiffeExample.PeerCheckLaws

namespace SpiffeExample.PeerChecks
set_option autoImplicit true
open Transition Threads

/-- The list comes from the file as it was at some moment since the first check used it. -/
def Loaded (jca : Jca) (s : Config) (es : List Event) (acl : ACLManager) : Prop :=
  acl.pc = .fileWatcher ∨ classState acl = .initialized →
    (system jca).Once s es fun u => u.shared.initiator ≠ none ∧
      u.shared.acl.file.canRead = true ∧ acl.allowedSpiffeIds = u.shared.acl.file.lines

theorem Loaded.same {m n : ACLManager} (h : Loaded jca s es m) (hp : n.pc = m.pc)
    (hl : n.allowedSpiffeIds = m.allowedSpiffeIds) : Loaded jca s (es ++ [e]) n := by
  intro hn
  rw [classState, hp] at hn
  rw [hl]
  exact (h hn).later [e]

theorem Loaded.kept {m n : ACLManager} (h : Loaded jca s es m)
    (hm : m.pc = .fileWatcher ∨ classState m = .initialized)
    (hl : n.allowedSpiffeIds = m.allowedSpiffeIds) : Loaded jca s (es ++ [e]) n := by
  intro _
  rw [hl]
  exact (h hm).later [e]

theorem Begun.initiator_ne_none (h : Begun n m) (hp : m.acl.pc ≠ .aclManager) :
    m.initiator ≠ none :=
  fun hi => hp (h.untouched hi)

theorem Loaded.step (hr : (system jca).run s es = some c) (hb : Begun n c.shared)
    (h : Loaded jca s es c.shared.acl) (hs : (system jca).step c e = some d) :
    Loaded jca s (es ++ [e]) d.shared.acl := by
  cases Program.step_iff.1 hs with
  | spawn => exact h.same rfl rfl
  | run hi he =>
    cases exec_cases he with
    | refused | validated | unidentified | identified | named | found | absent | allowed =>
      exact h.same rfl rfl
    | claimed => exact h.same rfl rfl
    | loaded hj hp hf =>
      intro _
      refine (System.Once.here hr ⟨?_, hf, rfl⟩).later [_]
      rw [hj]
      exact Option.some_ne_none _
    | failed =>
      rintro (hn | hn) <;> cases hn
    | armed hj hp => exact h.kept (.inl hp) rfl
  | world hw =>
    cases world_cases hw with
    | identity | file => exact h.same rfl rfl
    | polled hc hn =>
      cases hn with
      | loaded hp | rejected hp | stamped hp =>
        rw [classState, hp] at hc
        cases hc
      | polled | changed | unchanged | escaped => exact h.kept (.inr hc) rfl
      | reloaded hp hf =>
        intro _
        refine (System.Once.here hr ⟨hb.initiator_ne_none fun he => ?_, hf, rfl⟩).later [_]
        cases hp.symm.trans he

theorem loaded (hi : (system jca).init s) (hr : (system jca).run s es = some c) :
    Loaded jca s es c.shared.acl := by
  have h : (system jca).run s es = some c ∧ Loaded jca s es c.shared.acl := by
    apply System.Path.history _ _ (System.Path.of_run hr)
    · intro es c e d h _ hs
      obtain ⟨hr, hl⟩ := h
      have hb := (placed.reachable (.of_run hi hr)).shared
      exact ⟨((System.Path.of_run hr).snoc hs trivial).run, hl.step hr hb hs⟩
    · refine ⟨rfl, fun hp => ?_⟩
      obtain ⟨⟨_, ha, _⟩, _⟩ := hi
      rw [classState, ha] at hp
      rcases hp with hp | hp <;> cases hp
  exact h.2

/-- At some moment the chain stood before a trust bundle that it was then validated against. -/
def Validated (jca : Jca) (s : Config) (es : List Event) (i : Nat)
    (chain : List X509Certificate) : Prop :=
  (system jca).Once s es fun u => u.threads[i]? = some ⟨chain, .validate⟩ ∧
    CertificateUtils.validate jca chain (some u.shared.identity.manager.getTrustedCerts) = .ok ()

/-- At some moment the check found the identity in the list. -/
def Admitted (jca : Jca) (s : Config) (es : List Event) (i : Nat) (chain : List X509Certificate)
    (w : String) : Prop :=
  (system jca).Once s es fun u => (∃ o, u.threads[i]? = some ⟨chain, .isAllowed w o⟩) ∧
    u.shared.acl.isAllowed w = true ∧ classState u.shared.acl = .initialized

/-- What is past of a check, by where it stands. -/
def Vouches (jca : Jca) (s : Config) (es : List Event) (i : Nat) (c : Check) : Prop :=
  match c.point with
  | .validate | .thrown _ => True
  | .checkSpiffeId => Validated jca s es i c.chain
  | .getSpiffeID w | .getInstance w _ | .isAllowed w _ =>
    Validated jca s es i c.chain ∧ workloadId c.chain = .ok w
  | .returned => Validated jca s es i c.chain ∧
    ∃ w, workloadId c.chain = .ok w ∧ Admitted jca s es i c.chain w

theorem Vouches.later (h : Vouches jca s es i c) : Vouches jca s (es ++ [e]) i c := by
  obtain ⟨chain, point⟩ := c
  cases point with
  | validate | thrown => trivial
  | checkSpiffeId => exact System.Once.later h [e]
  | getSpiffeID | getInstance | isAllowed => exact ⟨h.1.later [e], h.2⟩
  | returned =>
    obtain ⟨hv, w, hw, ha⟩ := h
    exact ⟨hv.later [e], w, hw, ha.later [e]⟩

theorem Vouches.exec (hi : (system jca).init s) (hr : (system jca).run s es = some d)
    (hc : d.threads[i]? = some c) (h : Vouches jca s es i c)
    (hx : exec jca i d.shared c = some (m, c')) : Vouches jca s (es ++ [.run i]) i c' := by
  cases exec_cases hx with
  | refused | unidentified | absent | failed => trivial
  | validated hv => exact (System.Once.here hr ⟨hc, hv⟩).later [_]
  | identified hw => exact ⟨System.Once.later h [_], hw⟩
  | named | found | claimed | loaded | armed => exact ⟨h.1.later [_], h.2⟩
  | @allowed chain w o =>
    rw [allowed]
    cases ha : d.shared.acl.isAllowed w with
    | false => trivial
    | true =>
      have hs := (placed.reachable (.of_run hi hr)).threads i _ hc
      exact ⟨h.1.later [_], w, h.2, (System.Once.here hr ⟨⟨o, hc⟩, ha, hs⟩).later [_]⟩

theorem vouches (hi : (system jca).init s) (hr : (system jca).run s es = some d)
    (hc : d.threads[i]? = some c) : Vouches jca s es i c := by
  apply Program.vouched Vouches.later _ _ _ (System.Path.of_run hr) hc
  · intro es d a _ _
    trivial
  · intro es d i l g m hp hc h hx
    exact h.exec hi hp.run hc hx
  · intro i l hl
    rw [hi.2] at hl
    cases hl

/-- An accepted peer was, in the course of its check, validated against the trust bundle of that
moment and found in the list of that moment, which the file had been since its first use. -/
theorem accepted_past (hi : (system jca).init s) (hr : (system jca).run s es = some d)
    (ha : d.threads[i]? = some ⟨chain, .returned⟩) :
    Validated jca s es i chain ∧ ∃ w, workloadId chain = .ok w ∧ Admitted jca s es i chain w ∧
      (system jca).Once s es fun u => u.shared.initiator ≠ none ∧
        u.shared.acl.file.canRead = true ∧ w ∈ u.shared.acl.file.lines := by
  obtain ⟨hv, w, hw, hm⟩ := vouches hi hr ha
  refine ⟨hv, w, hw, hm, ?_⟩
  obtain ⟨before, after, u, rfl, hb, _, hl, hc⟩ := hm
  have hp := loaded hi hb (.inr hc)
  refine (hp.imp fun t ht => ⟨ht.1, ht.2.1, ?_⟩).later after
  rw [← ht.2.2]
  exact List.contains_iff_mem.1 hl

/-- A run in which the first check loads the list and is passed. -/
def accepting : List Event :=
  [.world (.identity (.push [.sample])), .spawn [leaf "spiffe://a"], .run 0, .run 0, .run 0,
    .run 0, .run 0, .run 0, .run 0]

def afterAccepting : Config :=
  ⟨⟨.sample, ⟨some "spiffe-id-whitelist", ⟨"spiffe://a", 1, true, true⟩, ["spiffe://a"], 1,
    .scheduled⟩, some 0⟩, [⟨[leaf "spiffe://a"], .returned⟩]⟩

theorem run_accepting :
    (system .sample).run (sampleMachine "spiffe://a" true) accepting = some afterAccepting := rfl

theorem accepted_past_sample :
    Validated .sample (sampleMachine "spiffe://a" true) accepting 0 [leaf "spiffe://a"] ∧
    ∃ w, workloadId [leaf "spiffe://a"] = .ok w ∧
      Admitted .sample (sampleMachine "spiffe://a" true) accepting 0 [leaf "spiffe://a"] w ∧
      (system .sample).Once (sampleMachine "spiffe://a" true) accepting fun u =>
        u.shared.initiator ≠ none ∧ u.shared.acl.file.canRead = true ∧
          w ∈ u.shared.acl.file.lines :=
  accepted_past (started_sample _ _) run_accepting rfl

/-- Nothing is published and no list loaded. -/
def Undisturbed (jca : Jca) (c : Config) : Event → Prop
  | .world (.identity (.push certs)) => published jca c.shared.identity.clock certs = none
  | .world .poll => c.shared.acl.pc ≠ .onChange
  | _ => True

instance (jca : Jca) (c : Config) : ∀ e, Decidable (Undisturbed jca c e)
  | .world (.identity (.push _)) => inferInstanceAs (Decidable (_ = none))
  | .world .poll => inferInstanceAs (Decidable (_ ≠ _))
  | .world (.identity (.advance _)) | .world (.edit _ _) | .world (.access _ _) => .isTrue trivial
  | .spawn _ | .run _ => .isTrue trivial

/-- The trust manager whose `checkPeer` runs with what a machine holds. -/
def trustManager (m : Machine) : SpiffeTrustManager :=
  ⟨m.identity.manager, fun clientId _ => m.acl.isAllowed clientId⟩

/-- What a check is going to find does not change. -/
structure Still (m n : Machine) : Prop where
  state : classState n.acl = .initialized
  svid : n.identity.manager.spiffeSVID = m.identity.manager.spiffeSVID
  list : n.acl.allowedSpiffeIds = m.acl.allowedSpiffeIds

theorem Still.step (h : Still m c.shared) (hu : Undisturbed jca c e)
    (hs : (system jca).step c e = some d) : Still m d.shared := by
  obtain ⟨hc, hv, hl⟩ := h
  cases Program.step_iff.1 hs with
  | spawn => exact ⟨hc, hv, hl⟩
  | run hi he =>
    cases exec_cases he with
    | refused | validated | unidentified | identified | named | found | absent | allowed =>
      exact ⟨hc, hv, hl⟩
    | claimed => exact ⟨hc, hv, hl⟩
    | loaded _ hp | failed _ hp => cases (classState_aclManager hp).symm.trans hc
    | armed _ hp => cases (classState_fileWatcher hp).symm.trans hc
  | @world g v _ _ hw =>
    cases v with
    | identity event =>
      obtain ⟨identity, hi, rfl⟩ := Option.map_eq_some_iff.1 hw
      cases event with
      | advance =>
        cases hi
        exact ⟨hc, hv, hl⟩
      | push certs =>
        cases hi
        refine ⟨hc, ?_, hl⟩
        have hn : published jca g.identity.clock certs = none := hu
        rw [SpiffeSVIDManager.certificateUpdater_spiffeSVID, hn, Option.none_or]
        exact hv
    | edit | access =>
      cases hw
      exact ⟨hc, hv, hl⟩
    | poll =>
      obtain ⟨_, hw⟩ := Option.ite_none_right_eq_some.1 hw
      obtain ⟨acl, hn, rfl⟩ := Option.map_eq_some_iff.1 hw
      have hx := ACLManager.next_cases hn
      refine ⟨classState_next hc hx, hv, ?_⟩
      cases hx with
      | loaded hp => cases (classState_aclManager hp).symm.trans hc
      | reloaded hp => exact absurd hp hu
      | rejected | stamped | polled | changed | unchanged | escaped => exact hl

/-- How far a check agrees with a call of `checkPeer`. -/
def Agrees (jca : Jca) (m : Machine) (n i : Nat) (c : Check) : Prop :=
  n ≤ i → match c.point with
    | .validate => True
    | .checkSpiffeId => CertificateUtils.validate jca c.chain
        (some m.identity.manager.getTrustedCerts) = .ok ()
    | .getSpiffeID w | .getInstance w _ | .isAllowed w _ => CertificateUtils.validate jca c.chain
        (some m.identity.manager.getTrustedCerts) = .ok () ∧ workloadId c.chain = .ok w
    | .returned => (trustManager m).checkPeer jca c.chain = .ok ()
    | .thrown failure => ∃ e, failure = .exception e ∧
        (trustManager m).checkPeer jca c.chain = .error e

theorem getTrustedCerts_congr {m n : SpiffeSVIDManager} (h : n.spiffeSVID = m.spiffeSVID) :
    n.getTrustedCerts = m.getTrustedCerts := by
  rw [SpiffeSVIDManager.getTrustedCerts, SpiffeSVIDManager.getTrustedCerts, h]

theorem Agrees.exec (h : Agrees jca m n i c) (hm : Still m g)
    (hx : exec jca i g c = some (g', d)) : Agrees jca m n i d := by
  intro hn
  have ht := getTrustedCerts_congr hm.svid
  have hk := @checkPeer_eq jca (trustManager m) c.chain
  cases exec_cases hx with
  | refused hv =>
    rw [ht] at hv
    refine ⟨_, rfl, ?_⟩
    rw [hk, trustManager, hv]
    rfl
  | validated hv =>
    rw [ht] at hv
    exact hv
  | unidentified hw =>
    have hv := h hn
    refine ⟨_, rfl, ?_⟩
    rw [hk, trustManager, hv, hw]
    rfl
  | identified hw => exact ⟨h hn, hw⟩
  | named | found | claimed | loaded | armed => exact h hn
  | absent hc => cases hm.state.symm.trans hc
  | failed _ hp => cases (classState_aclManager hp).symm.trans hm.state
  | @allowed chain w o =>
    obtain ⟨hv, hw⟩ := h hn
    have hl : g.acl.isAllowed w = m.acl.isAllowed w := by
      rw [ACLManager.isAllowed, ACLManager.isAllowed, hm.list]
    rw [trustManager, hv, hw] at hk
    change SpiffeTrustManager.checkPeer jca (trustManager m) chain =
      if !m.acl.isAllowed w then _ else _ at hk
    rw [allowed, hl]
    cases ha : m.acl.isAllowed w with
    | false =>
      rw [ha] at hk
      exact ⟨_, rfl, hk⟩
    | true =>
      rw [ha] at hk
      exact hk

/-- A check in whose course nothing is published and no list loaded ends as one call of
`checkPeer` does, whatever the other checks do in between. -/
theorem verdict_exact (hc : classState c.shared.acl = .initialized)
    (hp : (system jca).Path (Undisturbed jca) c es d) (hi : d.threads[i]? = some check)
    (hn : c.threads.length ≤ i) (hf : check.point.finished = true) :
    (check.point = .returned ↔
      (trustManager c.shared).checkPeer jca check.chain = .ok ()) ∧
    ∀ e, check.point = .thrown (.exception e) ↔
      (trustManager c.shared).checkPeer jca check.chain = .error e := by
  have hs : ∀ {es t}, (system jca).Path (Undisturbed jca) c es t → Still c.shared t.shared := by
    intro es t ht
    exact System.Path.history (H := fun _ t => Still c.shared t.shared) Still.step ⟨hc, rfl, rfl⟩ ht
  have hA : Agrees jca c.shared c.threads.length i check := by
    apply Program.vouched (J := fun _ => Agrees jca c.shared c.threads.length) id _ _ _ hp hi
    · intro es t a _ _ _
      trivial
    · intro es t i l g m ht _ h hx
      exact h.exec (hs ht) hx
    · intro i l hl hn
      cases List.getElem?_eq_none hn ▸ hl
  obtain ⟨chain, point⟩ := check
  cases point with
  | validate | checkSpiffeId | getSpiffeID | getInstance | isAllowed => cases hf
  | returned =>
    have hk : (trustManager c.shared).checkPeer jca chain = .ok () := hA hn
    rw [hk]
    refine ⟨⟨fun _ => rfl, fun _ => rfl⟩, fun e => ⟨fun h => ?_, fun h => ?_⟩⟩ <;> cases h
  | thrown failure =>
    obtain ⟨e, rfl, hk⟩ := hA hn
    change (trustManager c.shared).checkPeer jca chain = .error e at hk
    rw [hk]
    refine ⟨⟨fun h => ?_, fun h => ?_⟩, fun e' => ⟨fun h => ?_, fun h => ?_⟩⟩ <;> cases h <;> rfl

/-- One check is passed while another is under way. -/
theorem verdict_exact_sample :
    (trustManager afterAccepting.shared).checkPeer .sample [leaf "spiffe://a"] = .ok () := by
  have hp : (system .sample).Path (Undisturbed .sample) afterAccepting [.spawn [leaf "spiffe://a"],
      .spawn [leaf "spiffe://b"], .run 1, .run 1, .run 2, .run 1, .run 2, .run 1, .run 1] _ :=
    ⟨rfl, by decide⟩
  exact (@verdict_exact _ _ _ _ 1 _ rfl hp rfl (Nat.le_refl 1) rfl).1.1 rfl

end SpiffeExample.PeerChecks
