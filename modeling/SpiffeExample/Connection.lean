import SpiffeExample.HandshakeSnapshot
import SpiffeExample.PeerAcceptance

namespace SpiffeExample
set_option autoImplicit true
open Transition

/-- One end of a connection: its security providers, the key types that the other end asks for,
and its ACL. -/
structure Party where
  jca : Jca
  keyTypes : List String
  aclService : ACLService

/-- The chain that this end has presented. -/
def Rotation.sent (r : Rotation) : Option (List X509Certificate) :=
  r.handshake.certificateChain.map List.reduceOption

namespace Party

def session (p : Party) (peer : Rotation) : Session :=
  ⟨p.keyTypes, peer.sent.getD [], p.aclService⟩

def received (peer : Rotation) : Rotation.Event → Bool
  | .enter .validate => peer.sent.isSome
  | _ => true

/-- The handshake of one end, which checks the chain of the other once it has been presented. -/
def system (p : Party) (peer : Rotation) : System Rotation Rotation.Event where
  init := (Rotation.system p.jca (p.session peer)).init
  step r e := if received peer e then Rotation.step p.jca (p.session peer) r e else none

/-- The two ends of a connection, each with an identity that rotates. -/
def connection (client server : Party) :
    System (Rotation × Rotation) (Rotation.Event ⊕ Rotation.Event) :=
  System.pair system client server

/-- The check with the trusted certificates of one SVID and the identity of another. -/
def verdict (p : Party) (trusted own : SpiffeSVID) (chain : List X509Certificate) :
    Except Throwable Unit := do
  CertificateUtils.validate p.jca chain (some trusted.bundle)
  SpiffeTrustManager.checkSpiffeId ⟨⟨some own⟩, p.aclService⟩ chain

theorem verdict_checkPeer (p : Party) (own : SpiffeSVID) (chain : List X509Certificate) :
    p.verdict own own chain = SpiffeTrustManager.checkPeer p.jca ⟨⟨some own⟩, p.aclService⟩ chain :=
  rfl

theorem verdict_eq_ok {p : Party} {trusted own : SpiffeSVID} :
    p.verdict trusted own (leaf :: rest) = .ok () ↔
      CertificateUtils.validate p.jca (leaf :: rest) (some trusted.bundle) = .ok () ∧
        ∃ spiffeId, CertificateUtils.getSpiffeId leaf = .ok (some spiffeId) ∧
          p.aclService spiffeId own.spiffeID = true := by
  rw [verdict]
  cases CertificateUtils.validate p.jca (leaf :: rest) (some trusted.bundle) with
  | error e =>
    apply Iff.intro
    · intro h
      cases h
    · intro h
      cases h.1
  | ok u =>
    have hc := @SpiffeTrustManager.checkSpiffeId_eq_ok leaf rest ⟨⟨some own⟩, p.aclService⟩
    exact hc.trans ⟨fun h => ⟨rfl, h⟩, And.right⟩

/-- The verdict is that of a check of a chain that the other end presented when it held the SVID,
with the trusted certificates and the identity of SVIDs that this end has held. -/
def Judged (p : Party) (r peer : Rotation) (result : Except Throwable Unit) : Prop :=
  ∃ svid ∈ peer.pushed, peer.sent = some [svid.svid] ∧
    ((r.handshake.trustedCerts = none ∧
      result = .error (.certificateException "No trusted Certs")) ∨
    ∃ trusted ∈ r.pushed, ∃ own ∈ r.pushed, r.handshake.trustedCerts = some trusted.bundle ∧
      result = p.verdict trusted own [svid.svid])

/-- The first half of the check has been passed. -/
def Validated (p : Party) (r peer : Rotation) : Prop :=
  r.identity.manager.spiffeSVID ≠ none ∧
    ∃ svid ∈ peer.pushed, peer.sent = some [svid.svid] ∧
      ∃ trusted ∈ r.pushed, r.handshake.trustedCerts = some trusted.bundle ∧
        CertificateUtils.validate p.jca [svid.svid] (some trusted.bundle) = .ok ()

structure Sound (p : Party) (r peer : Rotation) : Prop where
  held : ∀ svid, r.identity.manager.spiffeSVID = some svid → svid ∈ r.pushed
  entered : ∀ call, r.handshake.entered = some call →
    r.handshake.enabled call = true ∧ (call = .validate → peer.sent ≠ none)
  aliasName : ∀ a, r.handshake.aliasName = some a → r.identity.manager.spiffeSVID ≠ none
  presented : ∀ chain, r.handshake.certificateChain = some chain →
    ∃ svid ∈ r.pushed, chain = [some svid.svid]
  validated : r.handshake.validated = true → Validated p r peer
  checked : ∀ result, r.handshake.checked = some result → Judged p r peer result

theorem Sound.sent (h : Sound p r peer) (hs : r.sent = some chain) :
    ∃ svid ∈ r.pushed, chain = [svid.svid] := by
  obtain ⟨sent, hc, rfl⟩ := Option.map_eq_some_iff.1 hs
  obtain ⟨svid, hm, rfl⟩ := h.presented sent hc
  exact ⟨svid, hm, rfl⟩

theorem Sound.init (h : (p.system peer).init r) : Sound p r peer := by
  obtain ⟨hm, hp, hh⟩ := h
  constructor
  · intro svid hs
    cases hm.symm.trans hs
  · rw [hh]
    intro call hc
    cases hc
  · rw [hh]
    intro a ha
    cases ha
  · rw [hh]
    intro chain hc
    cases hc
  · rw [hh]
    intro hv
    cases hv
  · rw [hh]
    intro result hc
    cases hc

/-- The other end goes on: what it has presented stays, and it may hold further SVIDs. -/
theorem Sound.follow (h : Sound p r peer) (hs : ∀ chain, peer.sent = some chain →
    peer'.sent = some chain) (hp : peer.pushed ⊆ peer'.pushed) : Sound p r peer' where
  held := h.held
  entered call hc := by
    obtain ⟨he, hv⟩ := h.entered call hc
    refine ⟨he, fun hcall => ?_⟩
    obtain ⟨chain, hsent⟩ := Option.ne_none_iff_exists'.1 (hv hcall)
    rw [hs chain hsent]
    exact Option.some_ne_none _
  aliasName := h.aliasName
  presented := h.presented
  validated hv := by
    obtain ⟨hn, svid, hm, hsent, ht⟩ := h.validated hv
    exact ⟨hn, svid, hp hm, hs _ hsent, ht⟩
  checked result hc := by
    obtain ⟨svid, hm, hsent, hr⟩ := h.checked result hc
    exact ⟨svid, hp hm, hs _ hsent, hr⟩

/-- A chain is presented once. -/
theorem returned_sent {h : Handshake} (he : h.enabled call = true)
    (hc : h.certificateChain = some chain) (jca : Jca) (session : Session)
    (m : SpiffeSVIDManager) :
    (h.returned jca session m call).certificateChain = some chain := by
  cases call with
  | getCertificateChain =>
    rw [Handshake.enabled, hc, Option.isNone_some, Bool.and_false] at he
    cases he
  | validate =>
    obtain ⟨v, c, hv⟩ := Handshake.returned_validate jca session m h
    rw [hv]
    exact hc
  | chooseAlias | getPrivateKey | checkSpiffeId => exact hc

/-- A step of one end takes back nothing that the other could have seen. -/
theorem Sound.grows (h : Sound p r peer) (hs : (p.system peer).step r e = some t) :
    r.pushed ⊆ t.pushed ∧ ∀ chain, r.sent = some chain → t.sent = some chain := by
  simp only [system, Option.ite_none_right_eq_some] at hs
  obtain ⟨_, hs⟩ := hs
  have hsent : ∀ call m, r.handshake.enabled call = true → ∀ chain, r.sent = some chain →
      ((r.handshake.returned p.jca (p.session peer) m call).certificateChain.map
        List.reduceOption) = some chain := by
    intro call m he chain hc
    obtain ⟨sent, hr, rfl⟩ := Option.map_eq_some_iff.1 hc
    rw [returned_sent he hr]
    rfl
  cases e with
  | identity event =>
    obtain ⟨identity, _, rfl⟩ := Option.map_eq_some_iff.1 hs
    exact ⟨List.subset_append_right _ _, fun _ hc => hc⟩
  | enter call =>
    simp only [Rotation.step, Option.ite_none_right_eq_some] at hs
    obtain ⟨⟨_, he⟩, hs⟩ := hs
    split at hs
    · cases hs
      exact ⟨List.Subset.refl _, hsent call _ he⟩
    · cases hs
      exact ⟨List.Subset.refl _, fun _ hc => hc⟩
  | leave =>
    simp only [Rotation.step] at hs
    split at hs
    · cases hs
    · next call hc =>
      cases hs
      exact ⟨List.Subset.refl _, hsent call _ (h.entered call hc).1⟩

theorem Sound.identity (h : Sound p r peer)
    (hs : Rotation.step p.jca (p.session peer) r (.identity event) = some t) :
    Sound p t peer := by
  obtain ⟨identity, he, rfl⟩ := Option.map_eq_some_iff.1 hs
  have hm : (∀ svid, identity.manager.spiffeSVID = some svid →
      svid ∈ Rotation.arrived p.jca r.identity.clock event ++ r.pushed) ∧
      (r.identity.manager.spiffeSVID ≠ none → identity.manager.spiffeSVID ≠ none) := by
    cases event with
    | advance milliseconds =>
      cases he
      exact ⟨h.held, id⟩
    | push certs =>
      cases he
      have hp := r.identity.manager.certificateUpdater_spiffeSVID p.jca r.identity.clock certs
      constructor
      · intro svid hs
        rcases Option.or_eq_some_iff.1 (hp.symm.trans hs) with hn | ⟨_, hn⟩
        · exact List.mem_append_left _ (Option.mem_toList.2 hn)
        · exact List.mem_append_right _ (h.held svid hn)
      · intro hne hn
        exact hne (Option.or_eq_none_iff.1 (hp.symm.trans hn)).2
  have hp : r.pushed ⊆ Rotation.arrived p.jca r.identity.clock event ++ r.pushed :=
    List.subset_append_right _ _
  constructor
  · exact hm.1
  · exact h.entered
  · exact fun a ha => hm.2 (h.aliasName a ha)
  · intro chain hc
    obtain ⟨svid, hv, rfl⟩ := h.presented chain hc
    exact ⟨svid, hp hv, rfl⟩
  · intro hv
    obtain ⟨hn, svid, hw, hsent, trusted, ht, hx⟩ := h.validated hv
    exact ⟨hm.2 hn, svid, hw, hsent, trusted, hp ht, hx⟩
  · intro result hc
    obtain ⟨svid, hw, hsent, hr⟩ := h.checked result hc
    refine ⟨svid, hw, hsent, hr.imp_right ?_⟩
    rintro ⟨trusted, ht, own, ho, hx⟩
    exact ⟨trusted, hp ht, own, hp ho, hx⟩

/-- A call begins to wait for its value. -/
theorem Sound.enter (h : Sound p r peer) (he : r.handshake.enabled call = true)
    (hr : call = .validate → peer.sent ≠ none) :
    Sound p { r with handshake := { r.handshake with entered := some call } } peer where
  held := h.held
  entered c hc := by
    cases hc
    refine ⟨?_, hr⟩
    cases call <;> exact he
  aliasName := h.aliasName
  presented := h.presented
  validated := h.validated
  checked := h.checked

/-- The first half of the check either passes or is all of it. -/
theorem validate_cases (jca : Jca) (session : Session) (m : SpiffeSVIDManager) (h : Handshake) :
    (CertificateUtils.validate jca session.chain (some m.getTrustedCerts) = .ok () ∧
      Handshake.validate jca session m h = { h with validated := true }) ∨
    Handshake.validate jca session m h = { h with
      checked :=
        some (SpiffeTrustManager.checkPeer jca ⟨m, session.aclService⟩ session.chain) } := by
  rw [Handshake.validate, SpiffeTrustManager.checkPeer]
  cases CertificateUtils.validate jca session.chain (some m.getTrustedCerts) with
  | error e => exact .inr rfl
  | ok u =>
    cases (SpiffeTrustManager.firstOf session.chain).bind CertificateUtils.getSpiffeId with
    | error e => exact .inr rfl
    | ok spiffeId =>
      cases spiffeId with
      | none => exact .inr rfl
      | some spiffeId => exact .inl ⟨rfl, rfl⟩

/-- A call of this end has its answer. -/
def answered (p : Party) (r peer : Rotation) (call : Call) : Rotation :=
  { r with
    handshake := r.handshake.returned p.jca (p.session peer) r.identity.manager call }

theorem session_chain {p : Party} {peer : Rotation} (h : peer.sent = some chain) :
    (p.session peer).chain = chain := by
  rw [session, h]
  rfl

theorem Sound.validate (h : Sound p r peer) (hp : Sound q peer r)
    (he : r.handshake.enabled .validate = true) (hr : peer.sent ≠ none) :
    Sound p (p.answered r peer .validate) peer := by
  obtain ⟨chain, hsent⟩ := Option.ne_none_iff_exists'.1 hr
  obtain ⟨svid, hm, rfl⟩ := hp.sent hsent
  rw [Handshake.enabled, Bool.and_eq_true, Bool.not_eq_true', Option.isNone_iff_eq_none] at he
  obtain ⟨hv, hc⟩ := he
  have hx := validate_cases p.jca (p.session peer) r.identity.manager { r.handshake with
    trustedCerts := r.identity.manager.spiffeSVID.map SpiffeSVID.bundle
    source := r.handshake.source.or r.identity.manager.spiffeSVID }
  rw [session_chain hsent] at hx
  rw [answered, Handshake.returned, Handshake.deliver]
  rcases hx with ⟨hok, hx⟩ | hx
  · rw [hx]
    cases hs : r.identity.manager.spiffeSVID with
    | none =>
      rw [SpiffeSVIDManager.getTrustedCerts, hs] at hok
      cases hok
    | some trusted =>
      rw [SpiffeSVIDManager.getTrustedCerts, hs] at hok
      refine ⟨h.held, fun _ hn => ?_, h.aliasName, h.presented, fun _ => ?_, fun _ hn => ?_⟩
      · cases hn
      · refine ⟨?_, svid, hm, hsent, trusted, h.held trusted hs, rfl, hok⟩
        rw [hs]
        exact Option.some_ne_none _
      · cases hc.symm.trans hn
  · rw [hx]
    refine ⟨h.held, fun _ hn => ?_, h.aliasName, h.presented, fun hn => ?_, fun result hn => ?_⟩
    · cases hn
    · cases hv.symm.trans hn
    · refine ⟨svid, hm, hsent, ?_⟩
      have he := (Option.some.inj hn).symm
      cases hs : r.identity.manager.spiffeSVID with
      | none =>
        refine .inl ⟨rfl, he.trans ?_⟩
        rw [SpiffeTrustManager.checkPeer_empty _ hs]
      | some own =>
        have ho := h.held own hs
        refine .inr ⟨own, ho, own, ho, rfl, he.trans ?_⟩
        have hg : r.identity.manager = ⟨some own⟩ := congrArg SpiffeSVIDManager.mk hs
        rw [verdict_checkPeer, hg]
        rfl

theorem Sound.checkSpiffeId (h : Sound p r peer)
    (he : r.handshake.enabled .checkSpiffeId = true) :
    Sound p (p.answered r peer .checkSpiffeId) peer := by
  rw [Handshake.enabled, Bool.and_eq_true] at he
  obtain ⟨hn, svid, hm, hsent, trusted, ht, hb, hok⟩ := h.validated he.1
  obtain ⟨own, hs⟩ := Option.ne_none_iff_exists'.1 hn
  refine ⟨h.held, fun _ hc => ?_, h.aliasName, h.presented, h.validated, fun result hc => ?_⟩
  · cases hc
  · refine ⟨svid, hm, hsent, .inr ⟨trusted, ht, own, h.held own hs, hb, ?_⟩⟩
    have hg : r.identity.manager = ⟨some own⟩ := congrArg SpiffeSVIDManager.mk hs
    rw [← Option.some.inj hc, session_chain hsent, verdict, hok, hg]
    rfl

theorem Sound.returned (h : Sound p r peer) (hp : Sound q peer r)
    (he : r.handshake.enabled call = true) (hr : call = .validate → peer.sent ≠ none) :
    Sound p (p.answered r peer call) peer := by
  cases call with
  | chooseAlias =>
    refine ⟨h.held, fun _ hc => ?_, fun a ha => ?_, h.presented, h.validated, h.checked⟩
    · cases hc
    · simp only [answered, Handshake.returned, Handshake.deliver, Handshake.aliasName] at ha
      cases hg : SpiffeKeyManager.getAlias ⟨r.identity.manager⟩ (p.session peer).keyTypes with
      | error e =>
        rw [hg] at ha
        cases ha
      | ok keyAlias =>
        rw [hg] at ha
        subst ha
        exact (SpiffeKeyManager.getAlias_eq_ok hg).2
  | getCertificateChain =>
    refine ⟨h.held, fun _ hc => ?_, h.aliasName, fun chain hc => ?_, h.validated, h.checked⟩
    · cases hc
    · rw [Handshake.enabled, Bool.and_eq_true, Option.isSome_iff_exists] at he
      obtain ⟨⟨a, ha⟩, _⟩ := he
      obtain ⟨svid, hs⟩ := Option.ne_none_iff_exists'.1 (h.aliasName a ha)
      refine ⟨svid, h.held svid hs, (Option.some.inj hc).symm.trans ?_⟩
      rw [SpiffeKeyManager.getCertificateChain, SpiffeSVIDManager.getSvid, hs]
      rfl
  | getPrivateKey =>
    refine ⟨h.held, fun _ hc => ?_, h.aliasName, h.presented, h.validated, h.checked⟩
    cases hc
  | validate => exact h.validate hp he (hr rfl)
  | checkSpiffeId => exact h.checkSpiffeId he

theorem Sound.step (h : Sound p r peer) (hp : Sound q peer r)
    (hs : (p.system peer).step r e = some t) : Sound p t peer := by
  simp only [system, Option.ite_none_right_eq_some] at hs
  obtain ⟨hr, hs⟩ := hs
  cases e with
  | identity event => exact h.identity hs
  | enter call =>
    simp only [Rotation.step, Option.ite_none_right_eq_some] at hs
    obtain ⟨⟨_, he⟩, hs⟩ := hs
    have hcall : call = .validate → peer.sent ≠ none := by
      rintro rfl
      exact Option.isSome_iff_ne_none.1 hr
    split at hs
    · cases hs
      exact h.returned hp he hcall
    · cases hs
      exact h.enter he hcall
  | leave =>
    simp only [Rotation.step] at hs
    split at hs
    · cases hs
    · next call hc =>
      cases hs
      obtain ⟨he, hcall⟩ := h.entered call hc
      exact h.returned hp he hcall

theorem sound_connection (client server : Party) :
    (connection client server).Invariant fun s => Sound client s.1 s.2 ∧ Sound server s.2 s.1 := by
  apply System.pair_invariant
  · intro p r peer h
    exact Sound.init h
  · intro p q r peer e t h hp hs
    exact h.step hp hs
  · intro p q r peer e u h hp hs
    obtain ⟨hpushed, hsent⟩ := hp.grows hs
    exact h.follow hsent hpushed

/-- However the two identities rotate during the handshake, a verdict is that of a check of what
the other end has presented, with one SVID's trusted certificates and one's own identity. -/
theorem verdicts_published (h : (connection client server).Reachable (r, r')) :
    (∀ result, r.handshake.checked = some result → Judged client r r' result) ∧
      ∀ result, r'.handshake.checked = some result → Judged server r' r result :=
  have hs := (sound_connection client server).reachable h
  ⟨hs.1.checked, hs.2.checked⟩

/-- What the authority sees to: every SVID of one end names the same workload, and the trusted
certificates of each one of the other end go back to it. -/
structure Trusts (p : Party) (r peer : Rotation) (spiffeId peerId : String) : Prop where
  own : ∀ svid ∈ r.pushed, svid.spiffeID = spiffeId
  named : ∀ svid ∈ peer.pushed, CertificateUtils.getSpiffeId svid.svid = .ok (some peerId)
  chain : ∀ svid ∈ peer.pushed, ∀ trusted ∈ r.pushed,
    CertificateUtils.validate p.jca [svid.svid] (some trusted.bundle) = .ok ()

theorem Judged.accepts (h : Judged p r peer result) (ht : Trusts p r peer a b) :
    result = .ok () ↔ r.handshake.trustedCerts ≠ none ∧ p.aclService b a = true := by
  obtain ⟨svid, hm, _, ⟨hn, rfl⟩ | ⟨trusted, hb, own, ho, hc, rfl⟩⟩ := h
  · rw [hn]
    apply Iff.intro
    · intro h
      cases h
    · intro h
      exact absurd rfl h.1
  · rw [verdict_eq_ok, hc, ht.own own ho, ht.named svid hm]
    apply Iff.intro
    · intro h
      obtain ⟨_, _, he, ha⟩ := h
      cases he
      exact ⟨Option.some_ne_none _, ha⟩
    · intro h
      exact ⟨ht.chain svid hm trusted hb, b, rfl, h.2⟩

/-- A rotation within the two workloads' trust never changes a verdict: each end that holds an
SVID accepts exactly the peers that its ACL admits. -/
theorem rotation_agreement (h : (connection client server).Reachable (r, r'))
    (hc : Trusts client r r' a b) (hs : Trusts server r' r b a) :
    (∀ result, r.handshake.checked = some result →
      (result = .ok () ↔ r.handshake.trustedCerts ≠ none ∧ client.aclService b a = true)) ∧
    ∀ result, r'.handshake.checked = some result →
      (result = .ok () ↔ r'.handshake.trustedCerts ≠ none ∧ server.aclService a b = true) := by
  obtain ⟨hr, hr'⟩ := verdicts_published h
  exact ⟨fun result he => (hr result he).accepts hc, fun result he => (hr' result he).accepts hs⟩

/-- A workload whose certificates all carry its name, and whose ACL admits one other. -/
def sample (spiffeId peerId : String) : Party where
  jca := { Jca.sample with
    generateCertificate := fun encoded =>
      .ok ⟨encoded, 1000, .names [⟨.uniformResourceIdentifier, .string spiffeId⟩]⟩ }
  keyTypes := ["EC"]
  aclService clientId serverId := clientId == peerId && serverId == spiffeId

def frontEnd : Party := sample "spiffe://example.org/front-end" "spiffe://example.org/back-end"

def backEnd : Party := sample "spiffe://example.org/back-end" "spiffe://example.org/front-end"

def frontEndSVID (svid key bundle : Bytes) : SpiffeSVID :=
  ⟨"spiffe://example.org/front-end",
    ⟨svid, 1000, .names [⟨.uniformResourceIdentifier, .string "spiffe://example.org/front-end"⟩]⟩,
    ⟨"EC", key⟩, {⟨bundle, 1000, .absent⟩}⟩

/-- The front end takes a new SVID between the two halves of its check. -/
def rotatedBetween : List (Rotation.Event ⊕ Rotation.Event) :=
  [.inl (.identity (.push [⟨"spiffe://example.org/front-end", [1], [2], [3]⟩])),
    .inr (.identity (.push [.sample])), .inr (.enter .chooseAlias), .inr .leave,
    .inr (.enter .getCertificateChain), .inr .leave, .inl (.enter .validate), .inl .leave,
    .inl (.identity (.push [⟨"spiffe://example.org/front-end", [4], [5], [6]⟩])),
    .inl (.enter .checkSpiffeId), .inl .leave]

theorem rotatedBetween_reachable : ∃ r r', (connection frontEnd backEnd).Reachable (r, r') ∧
    r.handshake.checked = some (.ok ()) ∧
    r.pushed = [frontEndSVID [4] [5] [6], frontEndSVID [1] [2] [3]] ∧
    r'.pushed = [Rotation.sampleSVID [1] [2] [3]] ∧ r'.handshake.checked = none := by
  have hi : (connection frontEnd backEnd).init
      (Rotation.sampleInitial, Rotation.sampleInitial) :=
    ⟨⟨rfl, rfl, rfl⟩, rfl, rfl, rfl⟩
  have hr : (connection frontEnd backEnd).run (Rotation.sampleInitial, Rotation.sampleInitial)
      rotatedBetween = some _ := rfl
  exact ⟨_, _, .of_run hi hr, rfl, rfl, rfl, rfl⟩

theorem verdicts_rotated_between : ∃ r r', r.pushed.length = 2 ∧
    (∀ result, r.handshake.checked = some result → Judged frontEnd r r' result) ∧
      ∀ result, r'.handshake.checked = some result → Judged backEnd r' r result := by
  obtain ⟨r, r', h, _, hp, _⟩ := rotatedBetween_reachable
  exact ⟨r, r', congrArg List.length hp, verdicts_published h⟩

theorem agreement_rotated_between : ∃ r r' : Rotation, r.pushed.length = 2 ∧
    (∀ result, r.handshake.checked = some result →
      (result = .ok () ↔ r.handshake.trustedCerts ≠ none ∧ frontEnd.aclService
        "spiffe://example.org/back-end" "spiffe://example.org/front-end" = true)) ∧
    ∀ result, r'.handshake.checked = some result →
      (result = .ok () ↔ r'.handshake.trustedCerts ≠ none ∧ backEnd.aclService
        "spiffe://example.org/front-end" "spiffe://example.org/back-end" = true) := by
  have hv (p : Party) (hj : p.jca.certPathValidator = fun _ _ => .ok ())
      (chain : List X509Certificate) (spiffeSVID : SpiffeSVID) (c : X509Certificate)
      (hb : spiffeSVID.bundle = {c}) :
      CertificateUtils.validate p.jca chain (some spiffeSVID.bundle) = .ok () := by
    rw [CertificateUtils.validate_eq_ok, hj, hb]
    exact ⟨Finset.singleton_nonempty c, rfl⟩
  obtain ⟨r, r', h, _, hp, hp', _⟩ := rotatedBetween_reachable
  refine ⟨r, r', congrArg List.length hp, rotation_agreement h ?_ ?_⟩
  · constructor
    · rw [hp]
      decide
    · rw [hp']
      decide
    · rw [hp]
      intro svid _
      simp only [List.mem_cons, List.not_mem_nil, or_false, forall_eq_or_imp, forall_eq]
      exact ⟨hv _ rfl _ _ _ rfl, hv _ rfl _ _ _ rfl⟩
  · constructor
    · rw [hp']
      decide
    · rw [hp]
      decide
    · rw [hp']
      intro svid _
      simp only [List.mem_cons, List.not_mem_nil, or_false, forall_eq]
      exact hv _ rfl _ _ _ rfl

end Party
end SpiffeExample
