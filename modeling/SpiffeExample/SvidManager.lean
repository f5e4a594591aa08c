import SpiffeExample.CertificateUtils
import SpiffeExample.Transition

namespace SpiffeExample
set_option autoImplicit true

structure X509SVID where
  spiffeId : String
  x509Svid : Bytes
  x509SvidKey : Bytes
  bundle : Bytes

structure SpiffeSVID where
  spiffeID : String
  svid : X509Certificate
  privateKey : PrivateKey
  bundle : Finset X509Certificate
  deriving DecidableEq

namespace SpiffeSVID

def filterOutdated (now : Date) (certs : Finset X509Certificate) : Finset X509Certificate :=
  certs.filter (fun c => now < c.notAfter)

/-- The constructor, at the given reading of the clock. -/
def new (jca : Jca) (now : Date) (x509SVID : X509SVID) : Except Throwable SpiffeSVID :=
  Except.mapError .runtimeException do
    let svid ← CertificateUtils.generateCertificate jca x509SVID.x509Svid
    let bundle ← CertificateUtils.generateCertificates jca x509SVID.bundle
    let bundle := filterOutdated now bundle
    let privateKey ← CertificateUtils.generatePrivateKey jca x509SVID.x509SvidKey
    return { spiffeID := x509SVID.spiffeId, svid, privateKey, bundle }

end SpiffeSVID

structure SpiffeSVIDManager where
  spiffeSVID : Option SpiffeSVID
  deriving DecidableEq

namespace SpiffeSVIDManager

def certificateUpdater (jca : Jca) (now : Date) (certs : List X509SVID) (m : SpiffeSVIDManager) :
    Except Throwable Unit × SpiffeSVIDManager :=
  match certs with
  | [svid] =>
    match SpiffeSVID.new jca now svid with
    | .error e => (.error e, m)
    | .ok spiffeSVID => (.ok (), { m with spiffeSVID := some spiffeSVID })
  | _ => (.error (.illegalArgumentException "Multiple identities is not supported"), m)

def getSvid (m : SpiffeSVIDManager) : Option X509Certificate :=
  m.spiffeSVID.map SpiffeSVID.svid

def getPrivateKey (m : SpiffeSVIDManager) : Option PrivateKey :=
  m.spiffeSVID.map SpiffeSVID.privateKey

def getSpiffeID (m : SpiffeSVIDManager) : String :=
  match m.spiffeSVID with
  | some spiffeSVID => spiffeSVID.spiffeID
  | none => ""

def getTrustedCerts (m : SpiffeSVIDManager) : Finset X509Certificate :=
  match m.spiffeSVID with
  | some spiffeSVID => spiffeSVID.bundle
  | none => ∅

end SpiffeSVIDManager

/-- What a push publishes: it has exactly one message and its three parts all parse. -/
def published (jca : Jca) (now : Date) : List X509SVID → Option SpiffeSVID
  | [x509SVID] => do
    let svid ← (jca.generateCertificate x509SVID.x509Svid).toOption
    let certs ← (jca.generateCertificates x509SVID.bundle).toOption
    let privateKey ← (jca.generatePrivate x509SVID.x509SvidKey).toOption
    return ⟨x509SVID.spiffeId, svid, privateKey, certs.toFinset.filter (now < ·.notAfter)⟩
  | _ => none

theorem SpiffeSVID.new_toOption (jca : Jca) (now : Date) (x509SVID : X509SVID) :
    (SpiffeSVID.new jca now x509SVID).toOption = published jca now [x509SVID] := by
  simp only [SpiffeSVID.new, published, CertificateUtils.generateCertificate,
    CertificateUtils.generateCertificates, CertificateUtils.generatePrivateKey]
  cases jca.generateCertificate x509SVID.x509Svid with
  | error e => rfl
  | ok svid =>
    cases jca.generateCertificates x509SVID.bundle with
    | error e => rfl
    | ok certs => cases jca.generatePrivate x509SVID.x509SvidKey <;> rfl

theorem SpiffeSVIDManager.certificateUpdater_spiffeSVID (jca : Jca) (now : Date)
    (certs : List X509SVID) (m : SpiffeSVIDManager) :
    (m.certificateUpdater jca now certs).2.spiffeSVID =
      (published jca now certs).or m.spiffeSVID := by
  match certs with
  | [] => rfl
  | _ :: _ :: _ => rfl
  | [x509SVID] =>
    rw [← SpiffeSVID.new_toOption, SpiffeSVIDManager.certificateUpdater]
    cases SpiffeSVID.new jca now x509SVID <;> rfl

structure Identity where
  clock : Date
  manager : SpiffeSVIDManager

inductive Identity.Event where
  | push (certs : List X509SVID)
  | advance (milliseconds : Nat)

def Identity.system (jca : Jca) : Transition.System Identity Identity.Event where
  init s := s.manager.spiffeSVID = none
  step s
    | .push certs => some { s with manager := (s.manager.certificateUpdater jca s.clock certs).2 }
    | .advance milliseconds => some { s with clock := s.clock + milliseconds }

/-- The last push of a run that published, with the clock at that moment. -/
def lastPush (jca : Jca) (clock : Date) : List Identity.Event → Option (Date × SpiffeSVID)
  | [] => none
  | .advance milliseconds :: events => lastPush jca (clock + milliseconds) events
  | .push certs :: events =>
    (lastPush jca clock events).or ((published jca clock certs).map (clock, ·))

/-- The manager holds the last identity published, whatever was rejected in between. -/
theorem Identity.run_spiffeSVID (h : (Identity.system jca).run s events = some t) :
    t.manager.spiffeSVID =
      ((lastPush jca s.clock events).map Prod.snd).or s.manager.spiffeSVID := by
  induction events generalizing s with
  | nil =>
    cases h
    rfl
  | cons event events ih =>
    obtain ⟨u, hs, hr⟩ := Transition.System.run_cons.1 h
    cases event with
    | advance milliseconds =>
      cases hs
      exact ih hr
    | push certs =>
      cases hs
      have hm := s.manager.certificateUpdater_spiffeSVID jca s.clock certs
      have ht := ih hr
      rw [hm] at ht
      rw [ht, lastPush]
      cases lastPush jca s.clock events with
      | some p => rfl
      | none => cases published jca s.clock certs <;> rfl

theorem Identity.run_lastPush (hi : (Identity.system jca).init s)
    (hr : (Identity.system jca).run s events = some t) :
    t.manager.spiffeSVID = (lastPush jca s.clock events).map Prod.snd := by
  have hm : s.manager.spiffeSVID = none := hi
  rw [Identity.run_spiffeSVID hr, hm, Option.or_none]

theorem Identity.run_clock (h : (Identity.system jca).run s events = some t) :
    s.clock ≤ t.clock := by
  induction events generalizing s with
  | nil =>
    cases h
    exact Int.le_refl _
  | cons event events ih =>
    obtain ⟨u, hs, hr⟩ := Transition.System.run_cons.1 h
    have hu := ih hr
    cases event with
    | push certs =>
      cases hs
      exact hu
    | advance milliseconds =>
      cases hs
      have hm : (0 : Int) ≤ milliseconds := Int.natCast_nonneg _
      exact Int.le_trans (Int.le_add_of_nonneg_right hm) hu

theorem published_bundle (h : published jca now certs = some spiffeSVID)
    (hc : c ∈ spiffeSVID.bundle) : now < c.notAfter := by
  match certs with
  | [] => cases h
  | _ :: _ :: _ => cases h
  | [x509SVID] =>
    simp only [published, bind, Option.bind_eq_some_iff, pure, Option.some.injEq] at h
    obtain ⟨svid, _, bundle, _, privateKey, _, he⟩ := h
    subst he
    exact (Finset.mem_filter.1 hc).2

theorem lastPush_published (h : lastPush jca clock events = some (now, spiffeSVID)) :
    ∃ certs, published jca now certs = some spiffeSVID := by
  induction events generalizing clock with
  | nil => cases h
  | cons event events ih =>
    cases event with
    | advance milliseconds => exact ih h
    | push certs =>
      rcases Option.or_eq_some_iff.1 h with hl | ⟨_, hp⟩
      · exact ih hl
      · obtain ⟨svid, hs, he⟩ := Option.map_eq_some_iff.1 hp
        cases he
        exact ⟨certs, hs⟩

theorem Identity.lastPush_clock (h : (Identity.system jca).run s events = some t)
    (hp : lastPush jca s.clock events = some (now, spiffeSVID)) : now ≤ t.clock := by
  induction events generalizing s with
  | nil => cases hp
  | cons event events ih =>
    obtain ⟨u, hs, hr⟩ := Transition.System.run_cons.1 h
    cases event with
    | advance milliseconds =>
      cases hs
      exact ih hr hp
    | push certs =>
      cases hs
      rcases Option.or_eq_some_iff.1 hp with hl | ⟨_, hp⟩
      · exact ih hr hl
      · obtain ⟨svid, _, he⟩ := Option.map_eq_some_iff.1 hp
        cases he
        have hu := Identity.run_clock hr
        exact hu

def Jca.sample : Jca where
  generateCertificate encoded := .ok ⟨encoded, 1000,
    .names [⟨.uniformResourceIdentifier, .string "spiffe://example.org/back-end"⟩]⟩
  generateCertificates encoded := .ok [⟨encoded, 1000, .absent⟩]
  generatePrivate encoded := .ok ⟨"EC", encoded⟩
  certPathValidator _ _ := .ok ()

def X509SVID.sample : X509SVID := ⟨"spiffe://example.org/back-end", [1], [2], [3]⟩

def Identity.sample : Identity :=
  ⟨0, (SpiffeSVIDManager.certificateUpdater .sample 0 [.sample] ⟨none⟩).2⟩

end SpiffeExample
