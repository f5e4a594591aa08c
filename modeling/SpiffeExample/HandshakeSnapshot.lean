import SpiffeExample.Handshake

namespace SpiffeExample
set_option autoImplicit true
open Transition

structure Handshake.From (h : Handshake) (spiffeSVID : SpiffeSVID) : Prop where
  certificateChain : ∀ c, h.certificateChain = some c → c = [some spiffeSVID.svid]
  privateKey : ∀ k, h.privateKey = some k → k = some spiffeSVID.privateKey
  trustedCerts : ∀ b, h.trustedCerts = some b → b = spiffeSVID.bundle
  spiffeID : ∀ i, h.spiffeID = some i → i = spiffeSVID.spiffeID

def Handshake.begun (h : Handshake) : Bool :=
  h.certificateChain.isSome || h.privateKey.isSome || h.trustedCerts.isSome || h.spiffeID.isSome

namespace Rotation

/-- Everything the handshake has read comes from one of the SVIDs that were pushed. -/
def Snapshot (s : Rotation) : Prop :=
  s.handshake.begun = true → ∃ spiffeSVID ∈ s.pushed, s.handshake.From spiffeSVID

/-- A getter that returns one of the four values reads it from the SVID of the first one. -/
def Undisturbed (s : Rotation) : Event → Prop
  | .leave => s.handshake.entered = some .chooseAlias ∨ s.handshake.source = none ∨
    s.identity.manager.spiffeSVID = s.handshake.source
  | _ => True

instance (s : Rotation) : ∀ e, Decidable (Undisturbed s e)
  | .identity _ | .enter _ => .isTrue trivial
  | .leave => inferInstanceAs (Decidable (_ ∨ _ ∨ _))

end Rotation

namespace Handshake

theorem from_of_not_begun {h : Handshake} (hb : h.begun = false) : h.From spiffeSVID := by
  simp only [begun, Bool.or_eq_false_iff, Option.isSome_eq_false_iff, Option.isNone_iff_eq_none]
    at hb
  obtain ⟨⟨⟨hc, hk⟩, ht⟩, hi⟩ := hb
  apply From.mk
  · intro c h
    cases hc.symm.trans h
  · intro k h
    cases hk.symm.trans h
  · intro b h
    cases ht.symm.trans h
  · intro i h
    cases hi.symm.trans h

structure Sound (h : Handshake) (held : Option SpiffeSVID) (pushed : List SpiffeSVID) : Prop where
  entered : ∀ call, h.entered = some call → h.enabled call = true
  aliasName : ∀ a, h.aliasName = some a → a = ALIAS ∧ held ≠ none
  validated : h.validated = true → held ≠ none
  source : ∀ spiffeSVID, h.source = some spiffeSVID → spiffeSVID ∈ pushed ∧ h.From spiffeSVID
  begun : h.source = none → h.begun = false

theorem Sound.from {h : Handshake} (hs : h.Sound (some spiffeSVID) pushed)
    (hu : h.source = none ∨ some spiffeSVID = h.source) : h.From spiffeSVID := by
  rcases hu with hu | hu
  · exact from_of_not_begun (hs.begun hu)
  · exact (hs.source _ hu.symm).2

theorem Sound.rotate {h : Handshake} {pushed pushed' : List SpiffeSVID} (hs : h.Sound held pushed)
    (hp : pushed ⊆ pushed') (hh : held ≠ none → held' ≠ none) : h.Sound held' pushed' where
  entered := hs.entered
  aliasName a ha := ⟨(hs.aliasName a ha).1, hh (hs.aliasName a ha).2⟩
  validated hv := hh (hs.validated hv)
  source spiffeSVID he := ⟨hp (hs.source spiffeSVID he).1, (hs.source spiffeSVID he).2⟩
  begun := hs.begun

theorem Sound.enter {h : Handshake} (hs : h.Sound held pushed) (he : h.enabled call = true) :
    { h with entered := some call }.Sound held pushed where
  entered c hc := by
    cases hc
    cases call <;> exact he
  aliasName := hs.aliasName
  validated := hs.validated
  source spiffeSVID he :=
    have ⟨hp, hf⟩ := hs.source spiffeSVID he
    ⟨hp, ⟨hf.certificateChain, hf.privateKey, hf.trustedCerts, hf.spiffeID⟩⟩
  begun := hs.begun

theorem Sound.chooseAlias {h : Handshake} (hs : h.Sound m.spiffeSVID pushed) (jca : Jca)
    (session : Session) :
    (h.returned jca session m .chooseAlias).Sound m.spiffeSVID pushed where
  entered call hc := nomatch hc
  aliasName a ha := by
    simp only [returned, deliver, Handshake.aliasName] at ha
    cases hg : SpiffeKeyManager.getAlias ⟨m⟩ session.keyTypes with
    | error e =>
      rw [hg] at ha
      cases ha
    | ok keyAlias =>
      rw [hg] at ha
      subst ha
      exact SpiffeKeyManager.getAlias_eq_ok hg
  validated := hs.validated
  source spiffeSVID he :=
    have ⟨hp, hf⟩ := hs.source spiffeSVID he
    ⟨hp, ⟨hf.certificateChain, hf.privateKey, hf.trustedCerts, hf.spiffeID⟩⟩
  begun := hs.begun

theorem validate_eq (jca : Jca) (session : Session) (m : SpiffeSVIDManager) (h : Handshake) :
    ∃ v c, validate jca session m h = { h with validated := v, checked := c } := by
  rw [validate]
  cases CertificateUtils.validate jca session.chain (some m.getTrustedCerts) with
  | error e => exact ⟨_, _, rfl⟩
  | ok u =>
    cases (SpiffeTrustManager.firstOf session.chain).bind CertificateUtils.getSpiffeId with
    | error e => exact ⟨_, _, rfl⟩
    | ok spiffeId =>
      cases spiffeId with
      | none => exact ⟨_, _, rfl⟩
      | some spiffeId => exact ⟨_, _, rfl⟩

/-- Without an SVID the key manager finds no alias and the trust manager refuses every peer. -/
theorem Sound.absent {h : Handshake} (hs : h.Sound none pushed) (he : h.enabled call = true)
    (jca : Jca) (session : Session) :
    (h.returned jca session ⟨none⟩ call).Sound none pushed := by
  have halias : h.aliasName = none := by
    cases hn : h.aliasName with
    | none => rfl
    | some a => exact absurd rfl (hs.aliasName a hn).2
  have hvalid : h.validated = false := by
    cases hv : h.validated with
    | false => rfl
    | true => exact absurd rfl (hs.validated hv)
  have hsrc : h.source.or none = h.source := Option.or_none
  cases call with
  | chooseAlias => exact hs.chooseAlias jca session
  | getCertificateChain | getPrivateKey =>
    simp only [enabled, halias, Option.isSome_none, Bool.false_and, Bool.false_eq_true] at he
  | checkSpiffeId =>
    simp only [enabled, hvalid, Bool.false_and, Bool.false_eq_true] at he
  | validate =>
    refine ⟨fun _ hc => (nomatch hc), hs.aliasName, hs.validated, ?_, ?_⟩
    · intro spiffeSVID hsome
      obtain ⟨hm, hf⟩ := hs.source spiffeSVID (hsrc.symm.trans hsome)
      exact ⟨hm, hf.certificateChain, hf.privateKey, fun b hb => (nomatch hb), hf.spiffeID⟩
    · intro hnone
      have hb := hs.begun (hsrc.symm.trans hnone)
      simp only [Handshake.begun, Bool.or_eq_false_iff] at hb
      simp only [returned, deliver, Handshake.begun, Bool.or_eq_false_iff]
      exact ⟨⟨hb.1.1, rfl⟩, hb.2⟩

theorem Sound.read {h h' : Handshake} (hs : h.Sound (some spiffeSVID) pushed)
    (hp : spiffeSVID ∈ pushed) (hf : h'.From spiffeSVID) (he : h'.source = some spiffeSVID)
    (ha : h'.aliasName = h.aliasName) (hn : h'.entered = none) :
    h'.Sound (some spiffeSVID) pushed where
  entered call hc := nomatch hn.symm.trans hc
  aliasName a hn := hs.aliasName a (ha ▸ hn)
  validated _ := Option.some_ne_none _
  source other ho := by
    cases he.symm.trans ho
    exact ⟨hp, hf⟩
  begun hn := nomatch he.symm.trans hn

theorem source_or {source : Option SpiffeSVID} (hu : source = none ∨ some spiffeSVID = source) :
    source.or (some spiffeSVID) = some spiffeSVID := by
  rcases hu with rfl | rfl <;> rfl

theorem returned_validate (jca : Jca) (session : Session) (m : SpiffeSVIDManager)
    (h : Handshake) :
    ∃ v c, h.returned jca session m .validate = { h with
      trustedCerts := m.spiffeSVID.map SpiffeSVID.bundle
      source := h.source.or m.spiffeSVID
      validated := v
      checked := c
      entered := none } := by
  obtain ⟨v, c, hv⟩ := validate_eq jca session m { h with
    trustedCerts := m.spiffeSVID.map SpiffeSVID.bundle
    source := h.source.or m.spiffeSVID }
  refine ⟨v, c, ?_⟩
  rw [returned, deliver]
  exact congrArg (fun h => { h with entered := none }) hv

theorem Sound.held {h : Handshake} (hs : h.Sound (some spiffeSVID) pushed)
    (hp : spiffeSVID ∈ pushed) (he : h.enabled call = true)
    (hu : call = .chooseAlias ∨ h.source = none ∨ some spiffeSVID = h.source) (jca : Jca)
    (session : Session) :
    (h.returned jca session ⟨some spiffeSVID⟩ call).Sound (some spiffeSVID) pushed := by
  by_cases hc : call = .chooseAlias
  · subst hc
    exact hs.chooseAlias jca session
  have hu := hu.resolve_left hc
  have hf := hs.from hu
  have hsrc := source_or hu
  cases call with
  | chooseAlias => exact absurd rfl hc
  | getCertificateChain =>
    have hc : (h.returned jca session ⟨some spiffeSVID⟩ .getCertificateChain).From spiffeSVID :=
      ⟨fun c hc => (Option.some.inj hc).symm, hf.privateKey, hf.trustedCerts, hf.spiffeID⟩
    exact hs.read hp hc hsrc rfl rfl
  | getPrivateKey =>
    have hk : (h.returned jca session ⟨some spiffeSVID⟩ .getPrivateKey).From spiffeSVID := by
      refine ⟨hf.certificateChain, ?_, hf.trustedCerts, hf.spiffeID⟩
      intro k hk
      rw [enabled, Bool.and_eq_true, Option.isSome_iff_exists] at he
      obtain ⟨⟨a, ha⟩, _⟩ := he
      have hname : h.aliasName = some ALIAS := (hs.aliasName a ha).1 ▸ ha
      rw [← Option.some.inj hk, hname]
      exact SpiffeKeyManager.getPrivateKey_held rfl
    exact hs.read hp hk hsrc rfl rfl
  | validate =>
    obtain ⟨v, c, hv⟩ := returned_validate jca session ⟨some spiffeSVID⟩ h
    rw [hv]
    have hb : ∀ b, some spiffeSVID.bundle = some b → b = spiffeSVID.bundle := by
      intro b hb
      exact (Option.some.inj hb).symm
    exact hs.read hp ⟨hf.certificateChain, hf.privateKey, hb, hf.spiffeID⟩ hsrc rfl rfl
  | checkSpiffeId =>
    have hi : (h.returned jca session ⟨some spiffeSVID⟩ .checkSpiffeId).From spiffeSVID :=
      ⟨hf.certificateChain, hf.privateKey, hf.trustedCerts, fun i hi => (Option.some.inj hi).symm⟩
    exact hs.read hp hi hsrc rfl rfl

end Handshake

namespace Rotation

structure Inv (s : Rotation) : Prop where
  held : ∀ spiffeSVID, s.identity.manager.spiffeSVID = some spiffeSVID → spiffeSVID ∈ s.pushed
  handshake : s.handshake.Sound s.identity.manager.spiffeSVID s.pushed

theorem Inv.init (hi : (system jca session).init s) : Inv s := by
  obtain ⟨hm, hp, hh⟩ := hi
  apply Inv.mk
  · intro _ h
    cases hm.symm.trans h
  rw [hh]
  exact ⟨fun _ h => (nomatch h), fun _ h => (nomatch h), fun h => (nomatch h),
    fun _ h => (nomatch h), fun _ => rfl⟩

theorem Inv.push (h : Inv s)
    (hm : manager.spiffeSVID = (published jca now certs).or s.identity.manager.spiffeSVID) :
    Inv { s with
      identity := ⟨clock, manager⟩
      pushed := (published jca now certs).toList ++ s.pushed } := by
  apply Inv.mk
  · intro spiffeSVID he
    rcases Option.or_eq_some_iff.1 (hm.symm.trans he) with hp | ⟨_, hp⟩
    · exact List.mem_append_left _ (Option.mem_toList.2 hp)
    · exact List.mem_append_right _ (h.held spiffeSVID hp)
  · apply h.handshake.rotate (List.subset_append_right _ _)
    intro hne he
    exact hne (Option.or_eq_none_iff.1 (hm.symm.trans he)).2

theorem Inv.identity (h : Inv s) (hs : step jca session s (.identity event) = some t) : Inv t := by
  obtain ⟨identity, he, rfl⟩ := Option.map_eq_some_iff.1 hs
  cases event with
  | advance milliseconds =>
    cases he
    exact ⟨h.held, h.handshake⟩
  | push certs =>
    cases he
    exact h.push (s.identity.manager.certificateUpdater_spiffeSVID jca s.identity.clock certs)

theorem Inv.enter (h : Inv s) (hs : step jca session s (.enter call) = some t) : Inv t := by
  obtain ⟨⟨clock, ⟨held⟩⟩, pushed, handshake⟩ := s
  simp only [step, Option.ite_none_right_eq_some] at hs
  obtain ⟨⟨_, he⟩, hs⟩ := hs
  cases held with
  | none =>
    cases hs
    exact ⟨h.held, h.handshake.absent he jca session⟩
  | some spiffeSVID =>
    cases hs
    exact ⟨h.held, h.handshake.enter he⟩

theorem Inv.leave (h : Inv s) (hu : Undisturbed s .leave)
    (hs : step jca session s .leave = some t) : Inv t := by
  obtain ⟨⟨clock, ⟨held⟩⟩, pushed, handshake⟩ := s
  simp only [step] at hs
  cases hc : handshake.entered with
  | none =>
    rw [hc] at hs
    cases hs
  | some call =>
    rw [hc] at hs
    cases hs
    have he := h.handshake.entered call hc
    cases held with
    | none => exact ⟨h.held, h.handshake.absent he jca session⟩
    | some spiffeSVID =>
      have hu : call = .chooseAlias ∨ handshake.source = none ∨
          some spiffeSVID = handshake.source :=
        hu.imp_left fun hn => Option.some.inj (hc.symm.trans hn)
      exact ⟨h.held, h.handshake.held (h.held spiffeSVID rfl) he hu jca session⟩

theorem Inv.step (h : Inv s) (hu : Undisturbed s e) (hs : step jca session s e = some t) :
    Inv t := by
  cases e with
  | identity event => exact h.identity hs
  | enter call => exact h.enter hs
  | leave => exact h.leave hu hs

theorem Inv.snapshot (h : Inv s) : Snapshot s := by
  intro hb
  cases hs : s.handshake.source with
  | none => exact nomatch hb.symm.trans (h.handshake.begun hs)
  | some spiffeSVID => exact ⟨spiffeSVID, h.handshake.source spiffeSVID hs⟩

theorem inv_undisturbed : ((system jca session).restrict Undisturbed).Invariant Inv :=
  System.Invariant.restrict Inv.init Inv.step

/-- One handshake sees one SVID in every run in which each read finds that of the first one. -/
theorem snapshot_of_undisturbed (h : ((system jca session).restrict Undisturbed).Reachable s) :
    Snapshot s :=
  (inv_undisturbed.reachable h).snapshot

def samplePeer : Session :=
  ⟨["EC"], [⟨[7], 1000,
    .names [⟨.uniformResourceIdentifier, .string "spiffe://example.org/front-end"⟩]⟩],
    fun _ _ => true⟩

def sampleInitial : Rotation := ⟨⟨0, ⟨none⟩⟩, [], .new⟩

def sampleSVID (svid key bundle : Bytes) : SpiffeSVID :=
  ⟨"spiffe://example.org/back-end",
    ⟨svid, 1000, .names [⟨.uniformResourceIdentifier, .string "spiffe://example.org/back-end"⟩]⟩,
    ⟨"EC", key⟩, {⟨bundle, 1000, .absent⟩}⟩

theorem snapshot_after_rotation :
    Snapshot ⟨⟨0, ⟨some (sampleSVID [4] [5] [6])⟩⟩,
      [sampleSVID [4] [5] [6], sampleSVID [1] [2] [3]],
      { Handshake.new with
        keyAlias := some (.ok (some ALIAS))
        certificateChain := some [some (sampleSVID [4] [5] [6]).svid]
        privateKey := some (some (sampleSVID [4] [5] [6]).privateKey)
        source := some (sampleSVID [4] [5] [6]) }⟩ := by
  have hi : ((system .sample samplePeer).restrict Undisturbed).init sampleInitial :=
    ⟨rfl, rfl, rfl⟩
  have hr : ((system .sample samplePeer).restrict Undisturbed).run sampleInitial
      [.identity (.push [.sample]), .enter .chooseAlias, .leave,
        .identity (.push [⟨"spiffe://example.org/back-end", [4], [5], [6]⟩]),
        .enter .getCertificateChain, .leave, .enter .getPrivateKey, .leave] = some _ := rfl
  exact snapshot_of_undisturbed (System.Reachable.of_run hi hr)

/-- The certificate of one SVID is presented with the key of the next one. -/
theorem mixed_pair :
    ¬ ∀ s, (system .sample samplePeer).Reachable s → Snapshot s := by
  intro h
  have hi : (system .sample samplePeer).init sampleInitial := ⟨rfl, rfl, rfl⟩
  have hr : (system .sample samplePeer).run sampleInitial
      [.identity (.push [.sample]), .enter .chooseAlias, .leave, .enter .getCertificateChain,
        .leave, .identity (.push [⟨"spiffe://example.org/back-end", [4], [5], [6]⟩]),
        .enter .getPrivateKey, .leave] = some _ := rfl
  obtain ⟨spiffeSVID, hm, hf⟩ := h _ (System.Reachable.of_run hi hr) rfl
  have hc := hf.certificateChain _ rfl
  have hk := hf.privateKey _ rfl
  rcases List.mem_cons.1 hm with he | hm
  · subst he
    exact absurd hc (by decide)
  · cases List.mem_singleton.1 hm
    exact absurd hk (by decide)

end Rotation
end SpiffeExample
