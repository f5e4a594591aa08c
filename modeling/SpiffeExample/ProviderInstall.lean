import SpiffeExample.TrustManager
import SpiffeExample.Threads

namespace SpiffeExample.SpiffeProvider
set_option autoImplicit true
open Transition Threads

def ALGORITHM : String := "Spiffe"

def PROVIDER_NAME : String := "Spiffe"

/-- What a class loader has under the name of a class, and what comes of its instantiation. -/
inductive LoadedClass where
  | classNotFound
  | notInstantiable (reflectiveOperationException : String)
  | erroneous (error : String)
  | instantiable (aclService : ACLService)

/-- What a static initialiser can throw. -/
inductive Raised where
  | exception (e : Throwable)
  | error (name : String)

inductive Failure where
  | exception (e : Throwable)
  | error (name : String)
  | exceptionInInitializerError (cause : Throwable)
  | noClassDefFoundError
  deriving DecidableEq

/-- An error comes out of a static initialiser as it is. -/
def Raised.thrown : Raised → Failure
  | .exception e => .exceptionInInitializerError e
  | .error name => .error name

/-- `ReflectionUtils.instantiate`, in which a name that is null is dereferenced. -/
def instantiate (classes : String → LoadedClass) : Option String → Except Failure ACLService
  | none => .error (.exception .nullPointerException)
  | some className =>
    match classes className with
    | .classNotFound => .error
      (.exception (.illegalArgumentException ("java.lang.ClassNotFoundException: " ++ className)))
    | .notInstantiable e => .error (.exception (.illegalArgumentException e))
    | .erroneous error => .error (.error error)
    | .instantiable aclService => .ok aclService

/-- The context class loader of each thread, and how the static initialiser of `SpiffeSVIDManager`
ends, in which the `X509SvidFetcher` is made and gets its listener. -/
structure Jvm where
  classes : Nat → String → LoadedClass
  svidFetcher : Except Raised Unit

/-- A class, or the thread that runs its static initialiser. -/
inductive ClassState where
  | uninitialized
  | initializing (initiator : Nat)
  | initialized
  | erroneous

/-- The properties and providers of `java.security.Security`, the thread that holds the monitor of
`SpiffeProvider.class`, and the class `SpiffeSVIDManager`. -/
structure Security where
  keyManagerAlgorithm : String
  trustManagerAlgorithm : String
  aclService : Option String
  providers : List String
  monitor : Option Nat
  svidManager : ClassState

/-- A provider of a name that is there already is not added. -/
def addProvider (providers : List String) : List String :=
  if PROVIDER_NAME ∈ providers then providers else providers ++ [PROVIDER_NAME]

inductive Call where
  | install (aclService : String)
  | getTrustManagers

/-- Where a thread is in `install`, or in getting the trust managers of the default factory, which
end in `SpiffeTrustManager()` where the algorithm is that of the provider. -/
inductive Point where
  | enter (name : String)
  | setKeyManagerAlgorithm (name : String)
  | setTrustManagerAlgorithm (name : String)
  | setAclService (name : String)
  | addProvider (name : String)
  | leave (name : String)
  | installed (name : String)
  | getDefaultAlgorithm
  | getInstance (algorithm : String)
  | getSvidManager
  | getProperty
  | instantiate (name : Option String)
  | built (name : Option String) (aclService : ACLService)
  | otherProvider
  | thrown (e : Failure)

def Point.installing : Point → Bool
  | .enter _ | .setKeyManagerAlgorithm _ | .setTrustManagerAlgorithm _ | .setAclService _
  | .addProvider _ | .leave _ => true
  | _ => false

def Point.finished : Point → Bool
  | .installed _ | .built _ _ | .otherProvider | .thrown _ => true
  | _ => false

def entry : Call → Point
  | .install aclService => .enter aclService
  | .getTrustManagers => .getDefaultAlgorithm

/-- `SpiffeSVIDManager.getInstance`, whose first use of the class runs the static initialiser and
whose other uses wait for its end. -/
def getSvidManager (jvm : Jvm) (i : Nat) (s : Security) : Option (Security × Point) :=
  match s.svidManager with
  | .initialized => some (s, .getProperty)
  | .erroneous => some (s, .thrown .noClassDefFoundError)
  | .uninitialized => some ({ s with svidManager := .initializing i }, .getSvidManager)
  | .initializing j =>
    if i = j then
      match jvm.svidFetcher with
      | .ok () => some ({ s with svidManager := .initialized }, .getProperty)
      | .error raised => some ({ s with svidManager := .erroneous }, .thrown raised.thrown)
    else none

def exec (jvm : Jvm) (i : Nat) (s : Security) : Point → Option (Security × Point)
  | .enter name =>
    if s.monitor = none then some ({ s with monitor := some i }, .setKeyManagerAlgorithm name)
    else none
  | .setKeyManagerAlgorithm name =>
    some ({ s with keyManagerAlgorithm := ALGORITHM }, .setTrustManagerAlgorithm name)
  | .setTrustManagerAlgorithm name =>
    some ({ s with trustManagerAlgorithm := ALGORITHM }, .setAclService name)
  | .setAclService name => some ({ s with aclService := some name }, .addProvider name)
  | .addProvider name =>
    some ({ s with providers := SpiffeProvider.addProvider s.providers }, .leave name)
  | .leave name => some ({ s with monitor := none }, .installed name)
  | .getDefaultAlgorithm => some (s, .getInstance s.trustManagerAlgorithm)
  | .getInstance algorithm =>
    if algorithm ≠ ALGORITHM then some (s, .otherProvider)
    else if PROVIDER_NAME ∈ s.providers then some (s, .getSvidManager)
    else some (s, .thrown (.exception .noSuchAlgorithmException))
  | .getSvidManager => getSvidManager jvm i s
  | .getProperty => some (s, .instantiate s.aclService)
  | .instantiate name =>
    match SpiffeProvider.instantiate (jvm.classes i) name with
    | .error e => some (s, .thrown e)
    | .ok aclService => some (s, .built name aclService)
  | .installed _ | .built _ _ | .otherProvider | .thrown _ => none

def program (jvm : Jvm) : Program Security Point Call Empty where
  entry := entry
  exec := exec jvm
  world _ event := event.elim

/-- Nothing is installed yet. -/
structure Fresh (s : Security) : Prop where
  trustManagerAlgorithm : s.trustManagerAlgorithm ≠ ALGORITHM
  aclService : s.aclService = none
  providers : PROVIDER_NAME ∉ s.providers
  monitor : s.monitor = none
  svidManager : s.svidManager = .uninitialized

abbrev Config := Threads.Config Security Point
abbrev Event := Threads.Event Call Empty

def system (jvm : Jvm) : System Config Event :=
  (program jvm).system Fresh

/-- One step, by what it does. -/
inductive Exec (jvm : Jvm) (i : Nat) (s : Security) :
    Point → Security → Point → Prop where
  | entered (hm : s.monitor = none) :
      Exec jvm i s (.enter n) { s with monitor := some i } (.setKeyManagerAlgorithm n)
  | keyManager : Exec jvm i s (.setKeyManagerAlgorithm n)
      { s with keyManagerAlgorithm := ALGORITHM } (.setTrustManagerAlgorithm n)
  | trustManager : Exec jvm i s (.setTrustManagerAlgorithm n)
      { s with trustManagerAlgorithm := ALGORITHM } (.setAclService n)
  | aclService : Exec jvm i s (.setAclService n) { s with aclService := some n }
      (.addProvider n)
  | added : Exec jvm i s (.addProvider n)
      { s with providers := addProvider s.providers } (.leave n)
  | left : Exec jvm i s (.leave n) { s with monitor := none } (.installed n)
  | algorithm : Exec jvm i s .getDefaultAlgorithm s (.getInstance s.trustManagerAlgorithm)
  | other (ha : algorithm ≠ ALGORITHM) : Exec jvm i s (.getInstance algorithm) s .otherProvider
  | found (hp : PROVIDER_NAME ∈ s.providers) :
      Exec jvm i s (.getInstance ALGORITHM) s .getSvidManager
  | unknown (hp : PROVIDER_NAME ∉ s.providers) :
      Exec jvm i s (.getInstance ALGORITHM) s (.thrown (.exception .noSuchAlgorithmException))
  | initialized (hc : s.svidManager = .initialized) :
      Exec jvm i s .getSvidManager s .getProperty
  | absent (hc : s.svidManager = .erroneous) :
      Exec jvm i s .getSvidManager s (.thrown .noClassDefFoundError)
  | claimed (hc : s.svidManager = .uninitialized) :
      Exec jvm i s .getSvidManager { s with svidManager := .initializing i } .getSvidManager
  | fetching (hc : s.svidManager = .initializing i) (hf : jvm.svidFetcher = .ok ()) :
      Exec jvm i s .getSvidManager { s with svidManager := .initialized } .getProperty
  | raised (hc : s.svidManager = .initializing i) (hf : jvm.svidFetcher = .error r) :
      Exec jvm i s .getSvidManager { s with svidManager := .erroneous } (.thrown r.thrown)
  | property : Exec jvm i s .getProperty s (.instantiate s.aclService)
  | failed (hx : instantiate (jvm.classes i) n = .error e) :
      Exec jvm i s (.instantiate n) s (.thrown e)
  | built (hx : instantiate (jvm.classes i) n = .ok a) :
      Exec jvm i s (.instantiate n) s (.built n a)

theorem getSvidManager_cases (h : getSvidManager jvm i s = some (t, q)) :
    Exec jvm i s .getSvidManager t q := by
  rw [getSvidManager] at h
  cases hc : s.svidManager with
  | initialized =>
    rw [hc] at h
    cases h
    exact .initialized hc
  | erroneous =>
    rw [hc] at h
    cases h
    exact .absent hc
  | uninitialized =>
    rw [hc] at h
    cases h
    exact .claimed hc
  | initializing j =>
    rw [hc] at h
    dsimp only at h
    rw [Option.ite_none_right_eq_some] at h
    obtain ⟨rfl, h⟩ := h
    cases hf : jvm.svidFetcher with
    | ok =>
      rw [hf] at h
      cases h
      exact .fetching hc hf
    | error r =>
      rw [hf] at h
      cases h
      exact .raised hc hf

theorem exec_cases (h : exec jvm i s p = some (t, q)) : Exec jvm i s p t q := by
  cases p with
  | enter n =>
    obtain ⟨hm, h⟩ := Option.ite_none_right_eq_some.1 h
    cases h
    exact .entered hm
  | setKeyManagerAlgorithm =>
    cases h
    exact .keyManager
  | setTrustManagerAlgorithm =>
    cases h
    exact .trustManager
  | setAclService =>
    cases h
    exact .aclService
  | addProvider =>
    cases h
    exact .added
  | leave =>
    cases h
    exact .left
  | getDefaultAlgorithm =>
    cases h
    exact .algorithm
  | getInstance algorithm =>
    rw [exec] at h
    by_cases ha : algorithm = ALGORITHM
    · subst ha
      rw [if_neg (not_not_intro rfl)] at h
      by_cases hp : PROVIDER_NAME ∈ s.providers
      · rw [if_pos hp] at h
        cases h
        exact .found hp
      · rw [if_neg hp] at h
        cases h
        exact .unknown hp
    · rw [if_pos ha] at h
      cases h
      exact .other ha
  | getSvidManager => exact getSvidManager_cases h
  | getProperty =>
    cases h
    exact .property
  | instantiate n =>
    rw [exec] at h
    cases hx : SpiffeProvider.instantiate (jvm.classes i) n with
    | error e =>
      rw [hx] at h
      cases h
      exact .failed hx
    | ok a =>
      rw [hx] at h
      cases h
      exact .built hx
  | installed | built | otherProvider | thrown => cases h

/-- What installs leave behind, also half way. -/
structure Guarded (n : Nat) (s : Security) : Prop where
  monitor : ∀ i, s.monitor = some i → i < n
  provider : PROVIDER_NAME ∈ s.providers → s.aclService ≠ none
  once : s.providers.count PROVIDER_NAME ≤ 1
  whole : s.monitor = none → s.aclService ≠ none →
    s.trustManagerAlgorithm = ALGORITHM ∧ PROVIDER_NAME ∈ s.providers

/-- What a thread relies on where it stands. -/
def At (i : Nat) (s : Security) : Point → Prop
  | .setKeyManagerAlgorithm _ | .setTrustManagerAlgorithm _ => s.monitor = some i
  | .setAclService _ => s.monitor = some i ∧ s.trustManagerAlgorithm = ALGORITHM
  | .addProvider _ => s.monitor = some i ∧ s.trustManagerAlgorithm = ALGORITHM ∧
    s.aclService ≠ none
  | .leave _ => s.monitor = some i ∧ s.trustManagerAlgorithm = ALGORITHM ∧
    PROVIDER_NAME ∈ s.providers
  | .getSvidManager | .getProperty => s.monitor ≠ some i ∧ s.aclService ≠ none
  | .instantiate name => s.monitor ≠ some i ∧ name ≠ none
  | .thrown e => s.monitor ≠ some i ∧ e ≠ .exception .nullPointerException
  | .enter _ | .installed _ | .getDefaultAlgorithm | .getInstance _ | .built _ _
  | .otherProvider => s.monitor ≠ some i

/-- What a thread may see of a step of another one that has the monitor or takes it. -/
structure Aside (j : Nat) (s t : Security) : Prop where
  before : s.monitor ≠ some j
  after : t.monitor ≠ some j
  aclService : s.aclService ≠ none → t.aclService ≠ none

theorem At.aside (h : At j s p) (ha : Aside j s t) : At j t p := by
  cases p with
  | setKeyManagerAlgorithm | setTrustManagerAlgorithm => exact absurd h ha.before
  | setAclService | addProvider | leave => exact absurd h.1 ha.before
  | getSvidManager | getProperty => exact ⟨ha.after, ha.aclService h.2⟩
  | instantiate | thrown => exact ⟨ha.after, h.2⟩
  | enter | installed | getDefaultAlgorithm | getInstance | built | otherProvider => exact ha.after

/-- The class `SpiffeSVIDManager` has nothing to do with an install. -/
theorem At.initializing (h : At i s p) : At i { s with svidManager := state } p := by
  cases p <;> exact h

theorem At.apart (h : At j s q) (hi : At i s p) (hx : Exec jvm i s p t p') (hne : i ≠ j) :
    At j t q := by
  have hj : some i ≠ some j := fun he => hne (Option.some.inj he)
  have held : s.monitor = some i → s.monitor ≠ some j := by
    intro hm
    rw [hm]
    exact hj
  cases hx with
  | entered hm =>
    refine h.aside ⟨fun he => ?_, hj, id⟩
    cases hm.symm.trans he
  | keyManager | trustManager =>
    exact h.aside ⟨held hi, held hi, id⟩
  | aclService =>
    exact h.aside ⟨held hi.1, held hi.1, fun _ => Option.some_ne_none _⟩
  | added =>
    exact h.aside ⟨held hi.1, held hi.1, id⟩
  | left =>
    exact h.aside ⟨held hi.1, (Option.some_ne_none j).symm, id⟩
  | algorithm | other | found | unknown | initialized | absent | property => exact h
  | failed | built => exact h
  | claimed | fetching | raised => exact h.initializing

theorem mem_addProvider : PROVIDER_NAME ∈ addProvider providers := by
  rw [addProvider]
  split
  · assumption
  · exact List.mem_append_right _ (List.mem_singleton.2 rfl)

theorem count_addProvider (h : providers.count PROVIDER_NAME ≤ 1) :
    (addProvider providers).count PROVIDER_NAME ≤ 1 := by
  rw [addProvider]
  split
  · exact h
  · next hp =>
    rw [List.count_append, List.count_eq_zero.2 hp]
    exact Nat.le_refl 1

/-- What comes of a class that gives no instance. -/
inductive Unusable (className : String) : LoadedClass → Failure → Prop where
  | classNotFound : Unusable className .classNotFound
      (.exception (.illegalArgumentException ("java.lang.ClassNotFoundException: " ++ className)))
  | notInstantiable :
      Unusable className (.notInstantiable e) (.exception (.illegalArgumentException e))
  | erroneous : Unusable className (.erroneous error) (.error error)

theorem instantiate_unusable (h : instantiate classes (some name) = .error e) :
    Unusable name (classes name) e := by
  rw [instantiate] at h
  cases hc : classes name with
  | classNotFound =>
    rw [hc] at h
    cases h
    exact .classNotFound
  | notInstantiable =>
    rw [hc] at h
    cases h
    exact .notInstantiable
  | erroneous =>
    rw [hc] at h
    cases h
    exact .erroneous
  | instantiable =>
    rw [hc] at h
    cases h

theorem instantiate_error (h : instantiate classes (some name) = .error e) :
    e ≠ .exception .nullPointerException := by
  rintro rfl
  have hu := instantiate_unusable h
  generalize classes name = loaded at hu
  cases hu

theorem Raised.thrown_ne (r : Raised) : r.thrown ≠ .exception e := by
  cases r <;> exact Failure.noConfusion

theorem At.exec (hg : Guarded n s) (h : At i s p) (hx : Exec jvm i s p t q) : At i t q := by
  cases hx with
  | entered => exact rfl
  | keyManager => exact h
  | trustManager => exact ⟨h, rfl⟩
  | aclService => exact ⟨h.1, h.2, Option.some_ne_none _⟩
  | added => exact ⟨h.1, h.2.1, mem_addProvider⟩
  | left => exact (Option.some_ne_none i).symm
  | algorithm | other => exact h
  | found hp => exact ⟨h, hg.provider hp⟩
  | unknown => exact ⟨h, by decide⟩
  | initialized | claimed | fetching | property => exact h
  | absent => exact ⟨h.1, Failure.noConfusion⟩
  | raised => exact ⟨h.1, Raised.thrown_ne _⟩
  | @failed n e hx =>
    obtain ⟨hm, hn⟩ := h
    obtain ⟨name, rfl⟩ := Option.ne_none_iff_exists'.1 hn
    exact ⟨hm, instantiate_error hx⟩
  | built => exact h.1

theorem Guarded.exec (hg : Guarded n s) (hi : i < n) (h : At i s p)
    (hx : Exec jvm i s p t q) : Guarded n t := by
  obtain ⟨hm, hp, ho, hw⟩ := hg
  cases hx with
  | entered =>
    refine ⟨?_, hp, ho, fun he => absurd he (Option.some_ne_none i)⟩
    rintro j ⟨⟩
    exact hi
  | keyManager | trustManager =>
    refine ⟨hm, hp, ho, fun he => ?_⟩
    cases he.symm.trans h
  | aclService =>
    refine ⟨hm, fun _ => Option.some_ne_none _, ho, fun he => ?_⟩
    cases he.symm.trans h.1
  | added =>
    refine ⟨hm, fun _ => h.2.2, count_addProvider ho, fun he => ?_⟩
    cases he.symm.trans h.1
  | left => exact ⟨fun j he => absurd he (Option.some_ne_none j).symm, hp, ho, fun _ _ => h.2⟩
  | algorithm | other | found | unknown | initialized | absent | claimed | fetching | raised
  | property | failed | built => exact ⟨hm, hp, ho, hw⟩

theorem kept : (program jvm).Kept Guarded At where
  spawn h := ⟨fun i hi => Nat.lt_succ_of_lt (h.monitor i hi), h.provider, h.once, h.whole⟩
  entry := by
    intro n s a h
    have hm : s.monitor ≠ some n := fun hi => absurd (h.monitor n hi) (Nat.lt_irrefl n)
    cases a <;> exact hm
  exec hg hi h hx := ⟨hg.exec hi h (exec_cases hx), h.exec hg (exec_cases hx)⟩
  apart _ h hx hne hj := hj.apart h (exec_cases hx) hne
  world {_ _ event} := event.elim
  others {_ _ event} := event.elim

/-- The class of the property, and of whatever comes of it, was given to an install. -/
def Named (es : List Event) : Point → Prop
  | .enter n | .setKeyManagerAlgorithm n | .setTrustManagerAlgorithm n | .setAclService n
  | .addProvider n | .leave n | .installed n => .spawn (.install n) ∈ es
  | .instantiate name | .built name _ => ∀ n, name = some n → .spawn (.install n) ∈ es
  | .getDefaultAlgorithm | .getInstance _ | .getSvidManager | .getProperty | .otherProvider
  | .thrown _ => True

theorem Named.later (h : Named es p) : Named (es ++ [e]) p := by
  cases p with
  | enter | setKeyManagerAlgorithm | setTrustManagerAlgorithm | setAclService | addProvider =>
    exact List.mem_append_left _ h
  | leave | installed => exact List.mem_append_left _ h
  | instantiate | built => exact fun n hn => List.mem_append_left _ (h n hn)
  | getDefaultAlgorithm | getInstance | getSvidManager | getProperty | otherProvider | thrown =>
    trivial

/-- A thread stands where its names and its instance come from. -/
structure Known (jvm : Jvm) (es : List Event) (c : Config) : Prop where
  property : ∀ n, c.shared.aclService = some n → .spawn (.install n) ∈ es
  named : ∀ (i : Nat) p, c.threads[i]? = some p → Named es p
  built : ∀ (i : Nat) n a, c.threads[i]? = some (.built n a) →
    instantiate (jvm.classes i) n = .ok a

theorem Known.step (h : Known jvm es c) (hs : (system jvm).step c e = some d) :
    Known jvm (es ++ [e]) d := by
  obtain ⟨ha, hn, hb⟩ := h
  cases Program.step_iff.1 hs with
  | @spawn s ps call =>
    refine ⟨fun n hp => List.mem_append_left _ (ha n hp), fun i p hp => ?_, fun i n a hp => ?_⟩
    · rcases Program.getElem?_snoc hp with hp | ⟨_, rfl⟩
      · exact (hn i p hp).later
      · cases call with
        | install aclService => exact List.mem_append_right _ (List.mem_singleton.2 rfl)
        | getTrustManagers => trivial
    · rcases Program.getElem?_snoc hp with hp | ⟨_, hp⟩
      · exact hb i n a hp
      · cases call <;> cases hp
  | @run ps i p s t q hi he =>
    have hx := exec_cases he
    have hp := hn i p hi
    refine ⟨fun n ht => ?_, fun j r hj => ?_, fun j n a hj => ?_⟩
    · cases hx with
      | aclService =>
        cases ht
        exact List.mem_append_left _ hp
      | entered | keyManager | trustManager | added | left => exact List.mem_append_left _ (ha n ht)
      | algorithm | other | found | unknown | initialized | absent | claimed | fetching | raised
      | property | failed | built => exact List.mem_append_left _ (ha n ht)
    · rcases Program.getElem?_set hj with ⟨rfl, rfl⟩ | ⟨_, hj⟩
      · cases hx with
        | entered | keyManager | trustManager | aclService | added | left => exact hp.later
        | algorithm | other | found | unknown | initialized | absent | claimed | fetching | raised
        | failed => trivial
        | property => exact fun n hn => List.mem_append_left _ (ha n hn)
        | built => exact hp.later
      · exact (hn j r hj).later
    · rcases Program.getElem?_set hj with ⟨rfl, rfl⟩ | ⟨_, hj⟩
      · cases hx with
        | built hx => exact hx
      · exact hb j n a hj
  | @world _ event => exact event.elim

def NoInstall (_ : Config) : Event → Prop
  | .spawn (.install _) => False
  | _ => True

instance (c : Config) : ∀ e, Decidable (NoInstall c e)
  | .spawn (.install _) => .isFalse id
  | .spawn .getTrustManagers | .run _ => .isTrue trivial
  | .world event => event.elim

/-- No install is under way, and what installs set is as it was. -/
structure Idle (s : Security) (c : Config) : Prop where
  trustManagerAlgorithm : c.shared.trustManagerAlgorithm = s.trustManagerAlgorithm
  aclService : c.shared.aclService = s.aclService
  providers : c.shared.providers = s.providers
  threads : ∀ (i : Nat) p, c.threads[i]? = some p → p.installing = false

theorem Idle.step (h : Idle s c) (hn : NoInstall c e) (hs : (system jvm).step c e = some d) :
    Idle s d := by
  obtain ⟨hm, ha, hp, ht⟩ := h
  cases Program.step_iff.1 hs with
  | @spawn _ _ call =>
    refine ⟨hm, ha, hp, fun i p hp => ?_⟩
    rcases Program.getElem?_snoc hp with hp | ⟨_, rfl⟩
    · exact ht i p hp
    · cases call with
      | install => exact hn.elim
      | getTrustManagers => rfl
  | run hi he =>
    have hq := ht _ _ hi
    have threads {ps : List Point} {i : Nat} {q : Point}
        (ht : ∀ (i : Nat) p, ps[i]? = some p → p.installing = false) (hq : q.installing = false) :
        ∀ (j : Nat) r, (ps.set i q)[j]? = some r → r.installing = false := by
      intro j r hj
      rcases Program.getElem?_set hj with ⟨rfl, rfl⟩ | ⟨_, hj⟩
      · exact hq
      · exact ht j r hj
    cases exec_cases he with
    | entered | keyManager | trustManager | aclService | added | left => cases hq
    | algorithm | other | found | unknown | initialized | absent | claimed | fetching | raised
    | property | failed | built => exact ⟨hm, ha, hp, threads ht rfl⟩
  | @world _ event => exact event.elim

/-- How a construction can fail that is begun with the service `name` installed. -/
def Fails (jvm : Jvm) (name : String) (i : Nat) (e : Failure) : Prop :=
  instantiate (jvm.classes i) (some name) = .error e ∨
    ∃ r, jvm.svidFetcher = .error r ∧ (e = r.thrown ∨ e = .noClassDefFoundError)

/-- What becomes of it. -/
def Enforced (jvm : Jvm) (name : String) (n i : Nat) (p : Point) : Prop :=
  n ≤ i → match p with
    | .getDefaultAlgorithm | .getSvidManager | .getProperty => True
    | .getInstance algorithm => algorithm = ALGORITHM
    | .instantiate c => c = some name
    | .built c a => c = some name ∧ instantiate (jvm.classes i) (some name) = .ok a
    | .thrown e => Fails jvm name i e
    | _ => False

theorem Enforced.exec (h : Enforced jvm name n i p) (ha : s.aclService = some name)
    (ht : s.trustManagerAlgorithm = ALGORITHM) (hp : PROVIDER_NAME ∈ s.providers)
    (he : s.svidManager = .erroneous → ∃ r, jvm.svidFetcher = .error r)
    (hx : Exec jvm i s p t q) : Enforced jvm name n i q := by
  intro hn
  cases hx with
  | entered | keyManager | trustManager | aclService | added | left => exact (h hn).elim
  | algorithm => exact ht
  | other hne => exact hne (h hn)
  | found | initialized | claimed | fetching => trivial
  | unknown hne => exact absurd hp hne
  | absent hc =>
    obtain ⟨r, hf⟩ := he hc
    exact .inr ⟨r, hf, .inr rfl⟩
  | raised _ hf => exact .inr ⟨_, hf, .inl rfl⟩
  | property => exact ha
  | failed hx =>
    cases h hn
    exact .inl hx
  | built hx =>
    cases h hn
    exact ⟨rfl, hx⟩

end SpiffeExample.SpiffeProvider
