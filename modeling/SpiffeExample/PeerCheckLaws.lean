import SpiffeExample.PeerChecks
import SpiffeExample.AclFreshness
import SpiffeExample.PeerAcceptance

namespace SpiffeExample.PeerChecks
set_option autoImplicit true
open Transition Threads

/-- The class is untouched as long as no check has begun to initialise it. -/
structure Begun (n : Nat) (m : Machine) : Prop where
  initiator : ∀ i, m.initiator = some i → i < n
  untouched : m.initiator = none → m.acl.pc = .aclManager

/-- Where check `i` stands, by how far the class is and by who has begun it. -/
def Placed (i : Nat) (initiator : Option Nat) (state : ClassState) : Point → Prop
  | .validate | .checkSpiffeId | .getSpiffeID _ => initiator ≠ some i
  | .getInstance _ _ => initiator = some i → state = .uninitialized
  | .isAllowed _ _ | .returned => state = .initialized
  | .thrown (.exception _) => initiator = some i → state = .initialized
  | .thrown (.exceptionInInitializerError e) => initiator = some i ∧ state = .erroneous e
  | .thrown .noClassDefFoundError => initiator ≠ some i ∧ ∃ e, state = .erroneous e

def At (i : Nat) (m : Machine) (c : Check) : Prop :=
  Placed i m.initiator (classState m.acl) c.point

theorem Placed.other (h : Placed j initiator .uninitialized point) (hj : initiator ≠ some j)
    (hn : after ≠ some j) : Placed j after state point := by
  cases point with
  | validate | checkSpiffeId | getSpiffeID => exact hn
  | getInstance => exact fun he => absurd he hn
  | isAllowed | returned => cases h
  | thrown failure =>
    cases failure with
    | exception => exact fun he => absurd he hn
    | exceptionInInitializerError => exact absurd h.1 hj
    | noClassDefFoundError =>
      obtain ⟨_, e, he⟩ := h
      cases he

theorem At.same (h : At i m c) (hi : n.initiator = m.initiator)
    (hc : classState n.acl = classState m.acl) : At i n c := by
  rw [At, hi, hc]
  exact h

theorem At.other (h : At j m c) (hu : classState m.acl = .uninitialized)
    (hj : m.initiator ≠ some j) (hn : n.initiator ≠ some j) : At j n c := by
  rw [At, hu] at h
  exact h.other hj hn

theorem classState_aclManager {acl : ACLManager} (hp : acl.pc = .aclManager) :
    classState acl = .uninitialized := by
  rw [classState, hp]

theorem classState_fileWatcher {acl : ACLManager} (hp : acl.pc = .fileWatcher) :
    classState acl = .uninitialized := by
  rw [classState, hp]

theorem Begun.exec (h : Begun n m) (hi : i < n) (hx : Exec jca i m c m' d) : Begun n m' := by
  cases hx with
  | refused | validated | unidentified | identified | named | found | absent | allowed => exact h
  | claimed =>
    constructor
    · rintro j ⟨⟩
      exact hi
    · intro hn
      cases hn
  | loaded hj | failed hj | armed hj =>
    refine ⟨h.initiator, fun hn => ?_⟩
    cases hj.symm.trans hn

theorem At.exec (h : At i m c) (hx : Exec jca i m c n d) : At i n d := by
  cases hx with
  | refused | unidentified => exact fun he => absurd he h
  | validated | identified => exact h
  | named => exact fun he => absurd he h
  | found hc => exact hc
  | absent hc =>
    refine ⟨fun he => ?_, _, hc⟩
    cases hc.symm.trans (h he)
  | claimed hc => exact fun _ => hc
  | loaded hi hp => exact fun _ => rfl
  | failed hi hp => exact ⟨hi, rfl⟩
  | armed hi hp => exact rfl
  | @allowed chain w o =>
    rw [At, allowed]
    split
    · exact fun _ => h
    · exact h

theorem At.apart (h : At j m k) (hx : Exec jca i m c n d) (hne : i ≠ j) : At j n k := by
  have hj : some i ≠ some j := fun he => hne (Option.some.inj he)
  cases hx with
  | refused | validated | unidentified | identified | named | found | absent | allowed => exact h
  | claimed hc hi =>
    refine h.other hc (fun he => ?_) hj
    cases hi.symm.trans he
  | loaded hi hp | failed hi hp => exact h.other (classState_aclManager hp) (hi ▸ hj) (hi ▸ hj)
  | armed hi hp => exact h.other (classState_fileWatcher hp) (hi ▸ hj) (hi ▸ hj)

theorem Moved.classState (h : Moved jca m n) :
    n.initiator = m.initiator ∧ classState n.acl = classState m.acl := by
  cases h with
  | identity | file => exact ⟨rfl, rfl⟩
  | polled hc hn => exact ⟨rfl, (classState_next hc hn).trans hc.symm⟩

theorem Begun.world (h : Begun n m) (hx : Moved jca m m') : Begun n m' := by
  cases hx with
  | identity | file => exact ⟨h.initiator, h.untouched⟩
  | polled hc hn =>
    refine ⟨h.initiator, fun hi => ?_⟩
    rw [classState_aclManager (h.untouched hi)] at hc
    cases hc

theorem kept : (program jca).Kept Begun At where
  spawn h := ⟨fun i hi => Nat.lt_succ_of_lt (h.initiator i hi), h.untouched⟩
  entry h := fun hi => absurd (h.initiator _ hi) (Nat.lt_irrefl _)
  exec hI hi h hx := ⟨hI.exec hi (exec_cases hx), h.exec (exec_cases hx)⟩
  apart _ _ hx hne hj := hj.apart (exec_cases hx) hne
  world hI hw := hI.world (world_cases hw)
  others _ hw h := h.same (world_cases hw).classState.1 (world_cases hw).classState.2

theorem placed : (system jca).Invariant (Program.Holds Begun At) :=
  kept.invariant fun hi => by
    obtain ⟨_, hp, hn⟩ := hi
    refine ⟨fun i h => ?_, fun _ => hp⟩
    cases hn.symm.trans h

def leaf (uri : String) : X509Certificate :=
  ⟨[7], 1000, .names [⟨.uniformResourceIdentifier, .string uri⟩]⟩

/-- A machine whose list has the one line. -/
def sampleMachine (line : String) (present : Bool) : Config :=
  ⟨⟨⟨0, ⟨none⟩⟩, ⟨some "spiffe-id-whitelist", ⟨line, 1, present, true⟩, [], 0, .aclManager⟩, none⟩,
    []⟩

theorem started_sample (line : String) (present : Bool) :
    (system jca).init (sampleMachine line present) :=
  ⟨⟨rfl, rfl, rfl⟩, rfl⟩

theorem failed_step (hf : c.shared.acl.pc = .failed e) (hs : (system jca).step c l = some d) :
    d.shared.acl.pc = .failed e ∧ d.shared.initiator = c.shared.initiator := by
  have hc := classState_erroneous.2 hf
  cases Program.step_iff.1 hs with
  | spawn => exact ⟨hf, rfl⟩
  | run hi he =>
    cases exec_cases he with
    | refused | validated | unidentified | identified | named | absent | allowed => exact ⟨hf, rfl⟩
    | found hc' | claimed hc' => cases hc.symm.trans hc'
    | loaded _ hp | failed _ hp | armed _ hp => cases hf.symm.trans hp
  | world hw =>
    cases world_cases hw with
    | identity | file => exact ⟨hf, rfl⟩
    | polled hc' => cases hc.symm.trans hc'

theorem failed_run (hf : c.shared.acl.pc = .failed e) (hr : (system jca).run c es = some d) :
    d.shared.acl.pc = .failed e ∧ d.shared.initiator = c.shared.initiator := by
  apply System.run_preserves (I := fun d : Config => d.shared.acl.pc = .failed e ∧
    d.shared.initiator = c.shared.initiator) _ ⟨hf, rfl⟩ hr
  intro s l t h hs
  obtain ⟨hp, hi⟩ := failed_step h.1 hs
  exact ⟨hp, hi.trans h.2⟩

theorem At.failed (h : At i m check) (hf : m.acl.pc = .failed e) (hi : m.initiator = some i) :
    check.point = .thrown (.exceptionInInitializerError e) := by
  rw [At, classState_erroneous.2 hf, hi] at h
  cases hp : check.point with
  | validate | checkSpiffeId | getSpiffeID =>
    rw [hp] at h
    exact absurd rfl h
  | getInstance =>
    rw [hp] at h
    cases h rfl
  | isAllowed | returned =>
    rw [hp] at h
    cases h
  | thrown failure =>
    rw [hp] at h
    cases failure with
    | exception => cases h rfl
    | exceptionInInitializerError e' =>
      cases h.2
      rfl
    | noClassDefFoundError => exact absurd rfl h.1

/-- Once the list could not be loaded no check is accepted again, whatever becomes of the file.
The cause is thrown by one check only. -/
theorem failed_closed (h : (system jca).Reachable c) (hf : c.shared.acl.pc = .failed e)
    (hr : (system jca).run c es = some d) : ∃ i < c.threads.length, ∀ j check,
      d.threads[j]? = some check → check.point ≠ .returned ∧
        ∀ cause, check.point = .thrown (.exceptionInInitializerError cause) ↔
          j = i ∧ cause = e := by
  obtain ⟨hb, _⟩ := placed.reachable h
  obtain ⟨_, hd⟩ := placed.reachable (h.run hr)
  obtain ⟨hp, hn⟩ := failed_run hf hr
  have hc := classState_erroneous.2 hp
  cases hi : c.shared.initiator with
  | none => cases hf.symm.trans (hb.untouched hi)
  | some i =>
    refine ⟨i, hb.initiator i hi, fun j check hj => ⟨fun hx => ?_, fun cause => ⟨?_, ?_⟩⟩⟩
    · have ha := hd j check hj
      rw [At, hx, hc] at ha
      cases ha
    · intro hx
      have ha := hd j check hj
      rw [At, hx, hc, hn, hi] at ha
      obtain ⟨ha, he⟩ := ha
      cases ha
      cases he
      exact ⟨rfl, rfl⟩
    · rintro ⟨rfl, rfl⟩
      exact (hd j check hj).failed hp (hn.trans hi)

/-- The file is missing at the first check and there at the second one. -/
theorem failed_closed_repaired : ∃ d : Config, d.shared.acl.file.canRead = true ∧
    d.threads[1]? = some ⟨[leaf "spiffe://a"], .thrown .noClassDefFoundError⟩ ∧
    ∃ i < 1, ∀ j check, d.threads[j]? = some check → check.point ≠ .returned ∧
      ∀ cause, check.point = .thrown (.exceptionInInitializerError cause) ↔
        j = i ∧ cause = .illegalStateException .ioException := by
  have hi : (system .sample).init (sampleMachine "spiffe://a" false) := started_sample _ _
  have hr : (system .sample).run (sampleMachine "spiffe://a" false)
      [.world (.identity (.push [.sample])), .spawn [leaf "spiffe://a"], .run 0, .run 0, .run 0,
        .run 0, .run 0] = some _ := rfl
  exact ⟨_, rfl, rfl, @failed_closed .sample _ _ [.world (.access true true),
    .spawn [leaf "spiffe://a"], .run 1, .run 1, .run 1, .run 1] _ (.of_run hi hr) rfl rfl⟩

/-- The steps that are left of the static initialiser. -/
def initializing (m : Machine) : Nat :=
  (if m.initiator = none then 1 else 0) + match m.acl.pc with
    | .aclManager => 2
    | .fileWatcher => 1
    | .scheduled | .compare _ | .onChange | .cancelled _ | .failed _ => 0

/-- The steps that are left of a check, those of the initialiser apart. -/
def remaining (c : Check) : Nat :=
  match c.point with
  | .validate => 5
  | .checkSpiffeId => 4
  | .getSpiffeID _ => 3
  | .getInstance _ _ => 2
  | .isAllowed _ _ => 1
  | .returned | .thrown _ => 0

theorem initializing_next {acl : ACLManager} (hc : classState m.acl = .initialized)
    (hn : ACLManager.Next m.acl acl) : initializing { m with acl } = initializing m := by
  rw [initializing, initializing]
  cases hn with
  | loaded hp | rejected hp => cases (classState_aclManager hp).symm.trans hc
  | stamped hp => cases (classState_fileWatcher hp).symm.trans hc
  | polled hp | changed hp | unchanged hp | reloaded hp | escaped hp => rw [hp]

theorem pays : (program jca).Pays initializing remaining 5 where
  entry := Nat.le_refl 5
  exec hx := by
    cases exec_cases hx with
    | refused | validated | unidentified | identified | named | found | absent =>
      simp only [remaining]
      omega
    | claimed hc hi =>
      simp only [initializing, hi, if_true, reduceCtorEq, if_false]
      omega
    | loaded hi hp | armed hi hp =>
      simp only [initializing, hi, hp, reduceCtorEq, if_false, remaining]
      omega
    | failed hi hp =>
      simp only [initializing, hi, hp, reduceCtorEq, if_false, remaining]
      omega
    | @allowed chain w o =>
      rw [allowed]
      split
      · exact Nat.le_refl _
      · exact Nat.le_refl _
  world hw := by
    cases world_cases hw with
    | identity | file => exact Nat.le_refl _
    | polled hc hn => exact Nat.le_of_eq (initializing_next hc hn)

theorem next_initializing {acl : ACLManager} (hu : classState acl = .uninitialized) :
    ∃ acl', acl.next = some acl' := by
  rw [classState] at hu
  rw [ACLManager.next]
  cases hp : acl.pc with
  | aclManager => cases acl.initialList <;> exact ⟨_, rfl⟩
  | fileWatcher => exact ⟨_, rfl⟩
  | scheduled | compare | onChange | cancelled | failed =>
    rw [hp] at hu
    cases hu

theorem getInstance_some
    (h : classState m.acl = .uninitialized → m.initiator = none ∨ m.initiator = some i) :
    ∃ r, getInstance i m = some r := by
  rw [getInstance]
  cases hc : classState m.acl with
  | initialized | erroneous => exact ⟨_, rfl⟩
  | uninitialized =>
    rcases h hc with hi | hi
    · rw [hi]
      exact ⟨_, rfl⟩
    · obtain ⟨acl, hn⟩ := next_initializing hc
      rw [hi]
      simp only [if_true, hn]
      exact ⟨_, rfl⟩

theorem exec_some (hf : c.point.finished = false)
    (h : (∃ w o, c.point = .getInstance w o) → classState m.acl = .uninitialized →
      m.initiator = none ∨ m.initiator = some i) : ∃ r, exec jca i m c = some r := by
  obtain ⟨chain, point⟩ := c
  cases point with
  | validate =>
    rw [exec]
    cases CertificateUtils.validate jca chain (some m.identity.manager.getTrustedCerts) with
    | error e => exact ⟨_, rfl⟩
    | ok u => exact ⟨_, rfl⟩
  | checkSpiffeId =>
    rw [exec]
    cases workloadId chain with
    | error e => exact ⟨_, rfl⟩
    | ok w => exact ⟨_, rfl⟩
  | getSpiffeID | isAllowed => exact ⟨_, rfl⟩
  | getInstance w o =>
    obtain ⟨r, hr⟩ := getInstance_some (h ⟨w, o, rfl⟩)
    rw [exec, hr]
    exact ⟨_, rfl⟩
  | returned | thrown => cases hf

/-- Whoever runs the static initialiser is in `getInstance`. -/
theorem At.initiates (h : At i m c) (hu : classState m.acl = .uninitialized)
    (hi : m.initiator = some i) : c.point.finished = false := by
  rw [At, hu, hi] at h
  cases hp : c.point with
  | validate | checkSpiffeId | getSpiffeID | getInstance | isAllowed => rfl
  | returned =>
    rw [hp] at h
    cases h
  | thrown failure =>
    rw [hp] at h
    cases failure with
    | exception => cases h rfl
    | exceptionInInitializerError => cases h.2
    | noClassDefFoundError => exact absurd rfl h.1

/-- A check that waits waits for one that can go on. -/
theorem some_runs {c : Config} {i : Nat} {check : Check} (h : Program.Holds Begun At c)
    (hi : c.threads[i]? = some check) (hf : check.point.finished = false) :
    ∃ j d, (program jca).step c (.run j) = some d := by
  have step : ∀ {j : Nat} {check : Check}, c.threads[j]? = some check →
      check.point.finished = false → (classState c.shared.acl = .uninitialized →
        c.shared.initiator = none ∨ c.shared.initiator = some j) →
      ∃ j d, (program jca).step c (.run j) = some d := by
    intro j check hj hf hw
    have hx : ∃ r, exec jca j c.shared check = some r := exec_some hf fun _ => hw
    obtain ⟨r, hr⟩ := hx
    exact ⟨j, _, Program.step_iff.2 (.run hj hr)⟩
  cases hn : c.shared.initiator with
  | none => exact step hi hf fun _ => .inl hn
  | some j =>
    by_cases hu : classState c.shared.acl = .uninitialized
    · have hj := List.getElem?_eq_getElem (h.shared.initiator j hn)
      exact step hj ((h.threads j _ hj).initiates hu hn) fun _ => .inr hn
    · exact step hi hf fun hc => absurd hc hu

/-- The checks of a run take so many steps at most, and from wherever the run has come all of them
can be finished by steps of their own: none waits for ever. -/
theorem checks_finish (hi : (system jca).init s) (hr : (system jca).run s es = some c) :
    es.countP Event.isRun ≤ 3 + 5 * es.countP Event.isSpawn ∧
      ∃ es' d, (system jca).run c es' = some d ∧ (∀ e ∈ es', Event.isRun e = true) ∧
        d.threads.length = c.threads.length ∧ ∀ check ∈ d.threads, check.point.finished = true := by
  apply And.intro
  · have hl := pays.run hr
    obtain ⟨⟨_, hp, hn⟩, ht⟩ := hi
    have hs : Program.left initializing remaining s = 3 := by
      rw [Program.left, ht, initializing, hn, hp]
      rfl
    rw [hs] at hl
    exact (Nat.le_add_left _ _).trans hl
  · apply pays.finish (I := Program.Holds Begun At) kept.step
    · intro c i check h hi hf
      exact some_runs h hi (Bool.eq_false_of_not_eq_true hf)
    · exact placed.reachable (.of_run hi hr)

/-- The first check stands where it runs the static initialiser, and the second one waits. -/
theorem checks_finish_waiting : ∃ es c, (system .sample).run (sampleMachine "spiffe://a" true) es =
      some c ∧ (program .sample).step c (.run 1) = none ∧
    es.countP Event.isRun ≤ 3 + 5 * es.countP Event.isSpawn ∧
      ∃ es' d, (system .sample).run c es' = some d ∧ (∀ e ∈ es', Event.isRun e = true) ∧
        d.threads.length = c.threads.length ∧ ∀ check ∈ d.threads, check.point.finished = true := by
  have hi : (system .sample).init (sampleMachine "spiffe://a" true) := started_sample _ _
  have hr : (system .sample).run (sampleMachine "spiffe://a" true)
      [.world (.identity (.push [.sample])), .spawn [leaf "spiffe://a"], .spawn [leaf "spiffe://b"],
        .run 0, .run 0, .run 0, .run 0, .run 1, .run 1, .run 1] = some _ := rfl
  exact ⟨_, _, hr, rfl, checks_finish hi hr⟩

end SpiffeExample.PeerChecks
