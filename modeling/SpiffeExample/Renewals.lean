import SpiffeExample.SingleChild
import SpiffeExample.DumpOutcome
import Mathlib.Tactic.Ring

namespace SpiffeExample.Sidecar
set_option autoImplicit true

/-- Both files of every entry of the response are its own, written to their ends. -/
structure Dumped (env : Environment) (certDir : String) (response : Bundles) (w : World) :
    Prop where
  nonempty : response.bundles ≠ []
  files : ∀ i bundle, response.bundles[i]? = some bundle →
    w.files (pkFilename certDir i) = some (newKeystore env i bundle) ∧
      w.files (certFilename certDir i) = some (newCerts env i bundle)

theorem Writing.content_whole {env : Writing} (h : env.writeError = none) :
    env.content data = data := by
  rw [Writing.content, Option.map_eq_none_iff.1 h]

theorem bundleError_none (h : bundleError env i = none) :
    keystoreError env i = none ∧ certsError env i = none ∧
      keystore env i bundle = newKeystore env i bundle ∧
      certs env i bundle = newCerts env i bundle := by
  rw [bundleError, Option.or_eq_none_iff, Option.or_eq_none_iff] at h
  obtain ⟨hk, hc, hw⟩ := h
  have he := hc
  rw [certsError, Option.or_eq_none_iff] at he
  exact ⟨hk, hc, Writing.content_whole he.1, Writing.content_whole hw⟩

theorem dumped_of_ok (hd : dumpBundles env certDir fetched w = (dump, w'))
    (he : dump.err = none) : ∃ response, fetched = .ok response ∧ Dumped env certDir response w' ∧
      dump = ⟨pkFilename certDir 0, certFilename certDir 0, response.ttl, none⟩ := by
  cases fetched with
  | error e =>
    cases hd
    cases he
  | ok response =>
    refine ⟨response, rfl, ?_⟩
    by_cases hn : response.bundles = []
    · have hl : response.bundles.length = 0 := congrArg List.length hn
      rw [dumpBundles, if_pos hl] at hd
      cases hd
      cases he
    · have hr : dump = _ :=
        (congrArg Prod.fst hd).symm.trans (dumpBundles_ok env certDir response w hn).1
      rw [hr] at he
      have hw : w' = (dumpBundles env certDir (.ok response) w).2 := by rw [hd]
      have hround := firstError_eq_none.1 he
      have herr : ∀ i, i < response.bundles.length → bundleError env i = none := by
        intro i hi
        have hz := hround i hi
        rwa [Nat.zero_add] at hz
      have hf : firstError env 0 response.bundles = none := he
      refine ⟨⟨hn, fun i bundle hb => ?_⟩, by rw [hr, hf]⟩
      have hi := (List.getElem?_eq_some_iff.1 hb).1
      obtain ⟨hk, hc, hkw, hcw⟩ := @bundleError_none env i bundle (herr i hi)
      have hj : ∀ j, j < i → bundleError env j = none := fun j hj => herr j (hj.trans hi)
      rw [hw, keystore_new hb hj hk, certs_new hb hj hk hc, hkw, hcw]
      exact ⟨rfl, rfl⟩

end SpiffeExample.Sidecar

namespace SpiffeExample.Daemon
open Transition

def Event.dump : Event → Option (Sidecar.Environment × Except GoError Sidecar.Bundles)
  | .dumpBundles env fetched => some (env, fetched)
  | _ => none

/-- The newest dump of a run, with what the machine did in it and what was fetched. -/
def lastDump (es : List Event) : Option (Sidecar.Environment × Except GoError Sidecar.Bundles) :=
  es.reverse.findSome? Event.dump

theorem lastDump_snoc : lastDump (es ++ [e]) = e.dump.or (lastDump es) := by
  rw [lastDump, lastDump, List.reverse_append, List.reverse_singleton, List.singleton_append,
    List.findSome?_cons]
  cases e.dump <;> rfl

theorem lastDump_snoc_none (h : e.dump = none) : lastDump (es ++ [e]) = lastDump es := by
  rw [lastDump_snoc, h, Option.none_or]

/-- A start of a process or a signal to it. -/
def Event.announces : Event → Bool
  | .start _ | .signal => true
  | _ => false

def Event.isNews (e : Event) : Bool :=
  e.dump.isSome || e.announces

def lastNews (es : List Event) : Option Event :=
  es.reverse.find? Event.isNews

theorem lastNews_snoc : lastNews (es ++ [e]) = if e.isNews then some e else lastNews es := by
  rw [lastNews, lastNews, List.reverse_append, List.reverse_singleton, List.singleton_append,
    List.find?_cons]
  cases e.isNews <;> rfl

/-- The files are those of the newest dump, unless an error has ended the loop. -/
structure Served (es : List Event) (s : Daemon) : Prop where
  dumped : s.loop ≠ .dumpBundles → lastDump es ≠ none
  files : (∀ err, s.loop ≠ .returned (some err)) → ∀ env fetched,
    lastDump es = some (env, fetched) →
    ∃ response, fetched = .ok response ∧ Sidecar.Dumped env s.config.certDir response s.world

/-- A step as the files see it. -/
inductive Renewal (s : Daemon) : Event → Daemon → Prop where
  | dumped (hl : s.loop = .dumpBundles) (hc : t.config = s.config)
      (hd : Sidecar.dumpBundles env s.config.certDir fetched s.world = (dump, t.world))
      (he : dump.err = none) : Renewal s (.dumpBundles env fetched) t
  | failed (hc : t.config = s.config)
      (hd : Sidecar.dumpBundles env s.config.certDir fetched s.world = (dump, t.world))
      (ht : t.loop = .returned (some err)) : Renewal s (.dumpBundles env fetched) t
  | other (he : e.dump = none) (hc : t.config = s.config) (hw : t.world = s.world)
      (hd : t.loop ≠ .dumpBundles → s.loop ≠ .dumpBundles)
      (hl : (∀ err, t.loop ≠ .returned (some err)) → ∀ err, s.loop ≠ .returned (some err)) :
      Renewal s e t

/-- The loop goes on from a place that is neither at its start nor at its end. -/
theorem Renewal.left {s t : Daemon} (he : e.dump = none) (hl : s.loop = l)
    (hn : l ≠ .dumpBundles) (hr : ∀ err, l ≠ .returned (some err)) (hc : t.config = s.config)
    (hw : t.world = s.world) : Renewal s e t := by
  subst hl
  exact .other he hc hw (fun _ => hn) (fun _ => hr)

theorem renewal (hs : step s e = some t) : Renewal s e t := by
  cases step_cases hs with
  | dumped hl hd he => exact .dumped hl rfl hd he
  | dumpFailed hl hd he => exact .failed rfl hd rfl
  | notRunning hl | running hl | startFailed hl | started hl =>
    exact .left rfl hl nofun nofun rfl rfl
  | signalled hl | signalFailed hl | timer hl | interrupted hl =>
    exact .left rfl hl nofun nofun rfl rfl
  | marked | waiting | collected | finished | exit | interrupt | advance =>
    exact .other rfl rfl rfl id id

theorem Served.step (h : Served es s) (hs : step s e = some t) : Served (es ++ [e]) t := by
  cases renewal hs with
  | @dumped env fetched dump _ hl hc hd he =>
    constructor
    · intro _
      rw [lastDump_snoc]
      exact Option.some_ne_none _
    · intro _ env' fetched' hf
      rw [lastDump_snoc] at hf
      cases hf
      obtain ⟨response, hr, hw, _⟩ := Sidecar.dumped_of_ok hd he
      rw [hc]
      exact ⟨response, hr, hw⟩
  | failed hc hd ht =>
    constructor
    · intro _
      rw [lastDump_snoc]
      exact Option.some_ne_none _
    · intro hn
      exact absurd ht (hn _)
  | other he hc hw hd hl =>
    constructor
    · intro ht
      rw [lastDump_snoc_none he]
      exact h.dumped (hd ht)
    · intro ht env fetched hf
      rw [lastDump_snoc_none he] at hf
      rw [hc, hw]
      exact h.files (hl ht) env fetched hf

theorem Served.run (hi : system.init s) (hr : system.run s es = some t) : Served es t := by
  apply System.Path.history _ _ (System.Path.of_run hr)
  · intro es s e t h _ hs
    exact h.step hs
  · constructor
    · intro hl
      exact absurd hi.2.2.1 hl
    · intro _ env fetched hf
      cases hf

/-- Until an error ends the loop the newest response is on disk, with both files of every entry,
each written to its end. -/
theorem files_of_lastDump (hi : system.init s) (hr : system.run s es = some t)
    (hl : ∀ err, t.loop ≠ .returned (some err)) (hf : lastDump es = some (env, fetched)) :
    ∃ response, fetched = .ok response ∧ Sidecar.Dumped env t.config.certDir response t.world :=
  (Served.run hi hr).files hl env fetched hf

theorem init_sample : system.init sample :=
  ⟨rfl, rfl, rfl, rfl, rfl, rfl, rfl⟩

theorem followed (hp : system.Path Marked s es t) (h : Step t e u) (hm : Marked t e) :
    system.Path Marked s (es ++ [e]) u :=
  hp.snoc h.step hm

def nextResponse : Sidecar.Bundles := ⟨[⟨[4], [5], [6]⟩, ⟨[7], [8], [9]⟩], 1⟩

/-- After a second response, with other keys, the files are those of this one. -/
theorem files_of_lastDump_sample : ∃ t es response, system.run sample es = some t ∧
    es.countP (fun e => e.dump.isSome) = 2 ∧
    (.ok nextResponse : Except GoError Sidecar.Bundles) = .ok response ∧
    Sidecar.Dumped (.sample 0) t.config.certDir response t.world := by
  have ht : (0 : Int) + (1 : Int).tdiv 2 ≤ 0 := by decide
  obtain ⟨w₁, h⟩ := @step_renewal sample rfl rfl
  have hp := followed .nil h trivial
  have hp := followed hp (.notRunning rfl rfl) List.not_mem_nil
  have hp := followed hp (.started rfl) trivial
  have hp := followed hp (.timer rfl ht) trivial
  have hn : nextResponse.bundles ≠ [] := List.cons_ne_nil _ _
  obtain ⟨_, h⟩ := @step_dump { sample.start sampleDump with
    loop := .dumpBundles
    world := w₁ } (.sample 0) nextResponse rfl hn
  have hp := followed hp h trivial
  obtain ⟨response, he, hd⟩ := files_of_lastDump init_sample hp.run nofun rfl
  exact ⟨_, _, response, hp.run, rfl, he, hd⟩

/-- A wait comes after a start or a signal that came after the newest dump. -/
def Announced (es : List Event) : Prop :=
  ∃ e, lastNews es = some e ∧ e.announces = true

theorem announced_step (h : ∀ d, s.loop = .wait d → Announced es) (hs : step s e = some t) :
    ∀ d, t.loop = .wait d → Announced (es ++ [e]) := by
  intro d hd
  have news : e.announces = true → Announced (es ++ [e]) := by
    intro ha
    refine ⟨e, ?_, ha⟩
    rw [lastNews_snoc, Event.isNews, ha, Bool.or_true]
    rfl
  have kept : e.isNews = false → Announced es → Announced (es ++ [e]) := by
    intro hn ha
    rw [Announced, lastNews_snoc, hn]
    exact ha
  cases step_cases hs with
  | dumped | dumpFailed | notRunning | running | startFailed => cases hd
  | signalFailed | timer | interrupted => cases hd
  | started | signalled => exact news rfl
  | marked | waiting | collected | finished => exact kept rfl (h d hd)
  | exit | interrupt | advance => exact kept rfl (h d hd)

theorem announced_run (hi : system.init s) (hr : system.run s es = some t) :
    ∀ d, t.loop = .wait d → Announced es := by
  apply System.Path.history _ _ (System.Path.of_run hr)
  · intro es s e t h _ hs
    exact announced_step h hs
  · intro d hd
    cases hi.2.2.1.symm.trans hd

theorem inv_path (hi : system.init s) (h : system.Path Marked s es t) : Inv t :=
  inv_marked.reachable (.of_run hi (System.restrict_run.2 ⟨h.run, h.along⟩))

/-- While the loop waits every live child is the one that was started or signalled last, and that
was after both files of every entry of the newest response were written. -/
theorem children_up_to_date (hi : system.init s) (h : system.Path Marked s es t)
    (hw : t.loop = .wait d) :
    (∀ p ∈ t.alive, t.process = some p) ∧ Announced es ∧
      ∃ env response, lastDump es = some (env, .ok response) ∧
        Sidecar.Dumped env t.config.certDir response t.world := by
  have hs := Served.run hi h.run
  have hn : lastDump es ≠ none := hs.dumped (by
    rw [hw]
    exact nofun)
  obtain ⟨⟨env, fetched⟩, hf⟩ := Option.ne_none_iff_exists'.1 hn
  have hl : ∀ err, t.loop ≠ .returned (some err) := by
    rw [hw]
    exact nofun
  obtain ⟨response, rfl, hd⟩ := hs.files hl env fetched hf
  exact ⟨(inv_path hi h).singleChild.1, announced_run hi h.run d hw, env, response, hf, hd⟩

theorem children_up_to_date_sample :
    ∃ t es, system.Path Marked sample es t ∧ t.alive = [0] ∧
      (∀ p ∈ t.alive, t.process = some p) ∧ Announced es ∧
      ∃ env response, lastDump es = some (env, .ok response) ∧
        Sidecar.Dumped env t.config.certDir response t.world := by
  obtain ⟨world, h⟩ := @step_renewal sample rfl rfl
  have hp := followed .nil h trivial
  have hp := followed hp (.notRunning rfl rfl) List.not_mem_nil
  have hp := followed hp (.started rfl) trivial
  exact ⟨_, _, hp, rfl, children_up_to_date init_sample hp rfl⟩

def Event.isDump (e : Event) : Bool := e.dump.isSome

/-- How long `dumps` of them take, `half` seconds lying between one and the next. -/
def paced (half : Int) (dumps : Nat) : Int := dumps * half

theorem paced_succ : paced half (dumps + 1) = paced half dumps + half := by
  rw [paced, paced]
  push_cast
  ring

/-- Where the loop is when `dumps` of them have been made since the time `begun`, with lifetimes of
at least `least`. -/
def PacedAt (least begun : Int) (dumps : Nat) (clock : Int) : Loop → Prop
  | .dumpBundles => paced (least / 2) dumps ≤ clock - begun
  | .signalProcess dump | .start dump => least ≤ dump.ttl
  | .signal ttl => least ≤ ttl
  | .wait deadline => paced (least / 2) dumps ≤ deadline - begun
  | .returned _ => True

structure Paced (least begun : Int) (dumps : Nat) (s : Daemon) : Prop where
  clock : paced (least / 2) dumps ≤ s.clock - begun + least / 2
  loop : PacedAt least begun dumps s.clock s.loop

theorem PacedAt.mono {time time' : Int} (h : PacedAt least begun n time l) (hc : time ≤ time') :
    PacedAt least begun n time' l := by
  cases l with
  | dumpBundles => exact le_trans h (Int.sub_le_sub_right hc begun)
  | _ => exact h

theorem deadline_le {s : Daemon} (hm : 0 ≤ least) (h : least ≤ ttl) :
    s.clock + least / 2 ≤ s.deadline ttl := by
  rw [deadline, Int.tdiv_eq_ediv_of_nonneg (hm.trans h)]
  omega

theorem Paced.same {s t : Daemon} (h : Paced least begun n s) (hl : t.loop = s.loop)
    (hc : s.clock ≤ t.clock) : Paced least begun n t where
  clock := by
    have hn := h.clock
    omega
  loop := by
    rw [hl]
    exact h.loop.mono hc

theorem Paced.step (h : Paced least begun n s) (hm : 0 ≤ least)
    (hb : ∀ env response, e = .dumpBundles env (.ok response) → least ≤ response.ttl)
    (hs : step s e = some t) : Paced least begun (n + if e.isDump then 1 else 0) t := by
  have hk : 0 ≤ least / 2 := Int.ediv_nonneg hm (by decide)
  obtain ⟨hn, hl⟩ := h
  cases step_cases hs with
  | dumped hd hw he =>
    rw [hd] at hl
    obtain ⟨response, rfl, _, rfl⟩ := Sidecar.dumped_of_ok hw he
    refine ⟨?_, hb _ response rfl⟩
    change paced _ (n + 1) ≤ _
    rw [paced_succ]
    exact Int.add_le_add_right hl _
  | dumpFailed hd =>
    rw [hd] at hl
    refine ⟨?_, trivial⟩
    change paced _ (n + 1) ≤ _
    rw [paced_succ]
    exact Int.add_le_add_right hl _
  | notRunning hd | running hd =>
    rw [hd] at hl
    exact ⟨hn, hl⟩
  | startFailed | signalFailed | interrupted => exact ⟨hn, trivial⟩
  | started hd | signalled hd =>
    rw [hd] at hl
    have ht := @deadline_le _ _ s hm hl
    refine ⟨hn, ?_⟩
    change paced _ n ≤ s.deadline _ - begun
    omega
  | timer hd ht =>
    rw [hd] at hl
    exact ⟨hn, le_trans hl (Int.sub_le_sub_right ht begun)⟩
  | marked | waiting | collected | finished | exit | interrupt =>
    exact Paced.same ⟨hn, hl⟩ rfl (Int.le_refl _)
  | @advance seconds =>
    exact Paced.same ⟨hn, hl⟩ rfl (Int.le_add_of_nonneg_right (Int.natCast_nonneg _))

theorem Paced.run (hi : s.loop = .dumpBundles) (hm : 0 ≤ least)
    (hb : ∀ env response, .dumpBundles env (.ok response) ∈ es → least ≤ response.ttl)
    (hr : system.run s es = some t) : Paced least s.clock (es.countP Event.isDump) t := by
  have hp : system.Path (fun _ e => ∀ env response, e = .dumpBundles env (.ok response) →
      least ≤ response.ttl) s es t := by
    refine ⟨hr, (System.Path.of_run hr).along.of_mem ?_⟩
    rintro s e he _ env response rfl
    exact hb env response he
  apply System.Path.history _ _ hp
  · intro es s' e t h he hs
    rw [List.countP_append, List.countP_singleton]
    exact h.step hm he hs
  · constructor
    · change paced _ 0 ≤ _
      rw [paced, Int.natCast_zero, Int.zero_mul]
      have hk : 0 ≤ least / 2 := Int.ediv_nonneg hm (by decide)
      omega
    · rw [hi]
      change paced _ 0 ≤ _
      rw [paced, Int.natCast_zero, Int.zero_mul]
      omega

/-- The Workload API is asked once and then at most every `least / 2` seconds, where no lifetime
that it gives is less than `least`. -/
theorem fetches_paced (hi : system.init s) (hm : 0 ≤ least)
    (hb : ∀ env response, .dumpBundles env (.ok response) ∈ es → least ≤ response.ttl)
    (hr : system.run s es = some t) :
    (es.countP Event.isDump : Int) * (least / 2) ≤ t.clock - s.clock + least / 2 :=
  (Paced.run hi.2.2.1 hm hb hr).clock

/-- Ten seconds of lifetime. -/
def tenSeconds : Sidecar.Bundles := ⟨Sidecar.Bundles.sample.bundles, 10⟩

theorem dump_followed (hp : system.Path Marked s es t) (hl : t.loop = .dumpBundles) :
    ∃ u, system.Path Marked s (es ++ [.dumpBundles (.sample 0) (.ok tenSeconds)]) u := by
  obtain ⟨w, h⟩ := step_dump (.sample 0) tenSeconds hl (List.cons_ne_nil _ _)
  exact ⟨_, followed hp h trivial⟩

theorem fetches_paced_sample : ∃ t es, system.run sample es = some t ∧ es.countP Event.isDump = 2 ∧
    (es.countP Event.isDump : Int) * (10 / 2) ≤ t.clock - sample.clock + 10 / 2 := by
  have ht : (0 : Int) + (10 : Int).tdiv 2 ≤ 0 + (5 : Nat) := by decide
  have hn : tenSeconds.bundles ≠ [] := List.cons_ne_nil _ _
  obtain ⟨w, h⟩ := @step_dump sample (.sample 0) tenSeconds rfl hn
  have hp := followed .nil h trivial
  have hp := followed hp (.notRunning rfl rfl) List.not_mem_nil
  have hp := followed hp (.started rfl) trivial
  have hp := followed hp (@Step.advance _ 5) trivial
  have hp := followed hp (.timer rfl ht) trivial
  obtain ⟨u, hp⟩ := dump_followed hp rfl
  refine ⟨u, _, hp.run, rfl, fetches_paced init_sample (by decide) ?_ hp.run⟩
  intro env response hm
  simp only [List.nil_append, List.cons_append, List.mem_cons, Event.dumpBundles.injEq,
    Except.ok.injEq, reduceCtorEq, List.not_mem_nil, or_false, false_or] at hm
  rcases hm with ⟨_, rfl⟩ | ⟨_, rfl⟩
  · exact Int.le_refl 10
  · exact Int.le_refl 10

/-- The exits of all children but the newest have been collected. -/
structure Reaped (s : Daemon) : Prop where
  watchers : s.watchers.length = s.started.length
  process : ∀ p, s.process = some p → p + 1 = s.started.length
  nodup : s.collected.Nodup
  collected : ∀ p, p ∈ s.collected ↔ p < s.started.length ∧
    (p + 1 = s.started.length → watching s.watchers.head? = false)

theorem Reaped.init (h : system.init s) : Reaped s := by
  obtain ⟨_, hp, _, hw, hs, _, hc⟩ := h
  constructor
  · rw [hw, hs]
    rfl
  · intro p hq
    cases hp.symm.trans hq
  · rw [hc]
    exact List.nodup_nil
  · intro p
    rw [hc, hs]
    exact ⟨fun hm => absurd hm List.not_mem_nil, fun hm => absurd hm.1 (Nat.not_lt_zero p)⟩

theorem Reaped.same {s t : Daemon} (h : Reaped s) (hw : t.watchers = s.watchers)
    (hs : t.started = s.started) (hp : t.process = s.process) (hc : t.collected = s.collected) :
    Reaped t where
  watchers := by
    rw [hw, hs]
    exact h.watchers
  process := by
    rw [hp, hs]
    exact h.process
  nodup := by
    rw [hc]
    exact h.nodup
  collected := by
    rw [hc, hs, hw]
    exact h.collected

/-- The newest goroutine goes on, with no exit collected. -/
theorem Reaped.newest (h : Reaped s) (hw : s.watchers = w :: rest)
    (hg : watching (some w') = watching (some w)) : Reaped { s with watchers := w' :: rest } where
  watchers := by
    have hl := h.watchers
    rw [hw] at hl
    exact hl
  process := h.process
  nodup := h.nodup
  collected p := by
    have hc := h.collected p
    rw [hw] at hc
    change p ∈ s.collected ↔ _ ∧ (_ → watching (some w') = false)
    rw [hg]
    exact hc

theorem Reaped.before (h : Reaped s) (hw : watching s.watchers.head? = true) :
    p ∈ s.collected ↔ p + 1 < s.started.length := by
  rw [h.collected, hw]
  apply Iff.intro
  · intro hp
    exact Nat.lt_of_le_of_ne hp.1 (fun he => Bool.false_ne_true (hp.2 he).symm)
  · intro hp
    exact ⟨Nat.lt_of_succ_lt hp, fun he => absurd he (Nat.ne_of_lt hp)⟩

theorem Reaped.after (h : Reaped s) (hw : watching s.watchers.head? = false) :
    p ∈ s.collected ↔ p < s.started.length := by
  rw [h.collected, hw]
  exact ⟨And.left, fun hp => ⟨hp, fun _ => rfl⟩⟩

theorem not_watching_of_finished {s : Daemon} (hf : ∀ w ∈ s.watchers, w = .finished) :
    watching s.watchers.head? = false := by
  cases hws : s.watchers with
  | nil => rfl
  | cons w rest =>
    rw [hws] at hf
    rw [hf w List.mem_cons_self]
    rfl

theorem Reaped.started (h : Reaped s) (hf : ∀ w ∈ s.watchers, w = .finished) :
    Reaped (s.start dump) where
  watchers := by
    change s.watchers.length + 1 = (s.started ++ [_]).length
    rw [List.length_append, h.watchers]
    rfl
  process := by
    intro p hp
    cases hp
    simp only [Daemon.start, List.length_append, List.length_singleton]
  nodup := h.nodup
  collected p := by
    change p ∈ s.collected ↔ p < (s.started ++ [_]).length ∧
      (p + 1 = (s.started ++ [_]).length → true = false)
    rw [h.after (not_watching_of_finished hf), List.length_append, List.length_singleton]
    apply Iff.intro
    · intro hp
      exact ⟨Nat.lt_succ_of_lt hp, fun he => absurd (Nat.succ.inj he) (Nat.ne_of_lt hp)⟩
    · intro hp
      refine Nat.lt_of_le_of_ne (Nat.le_of_lt_succ hp.1) (fun he => ?_)
      exact Bool.false_ne_true (hp.2 (congrArg (· + 1) he)).symm

theorem Reaped.collect (h : Reaped s) (hi : Inv s) (hw : s.watchers = .waiting pid :: rest) :
    Reaped { s with collected := pid :: s.collected, watchers := .collected :: rest } := by
  have hb : watching s.watchers.head? = true := by
    rw [hw]
    rfl
  have hp : pid + 1 = s.started.length := by
    apply h.process
    apply hi.waiting
    rw [hw]
    rfl
  constructor
  · have hl := h.watchers
    rw [hw] at hl
    exact hl
  · exact h.process
  · refine List.nodup_cons.2 ⟨fun hm => ?_, h.nodup⟩
    exact absurd hp (Nat.ne_of_lt ((h.before hb).1 hm))
  · intro p
    change p ∈ pid :: s.collected ↔ p < s.started.length ∧ (_ → false = false)
    rw [List.mem_cons, h.before hb]
    apply Iff.intro
    · rintro (rfl | hq)
      · exact ⟨Nat.lt_of_succ_le (Nat.le_of_eq hp), fun _ => rfl⟩
      · exact ⟨Nat.lt_of_succ_lt hq, fun _ => rfl⟩
    · intro hq
      rcases Nat.lt_or_eq_of_le hq.1 with hl | he
      · exact .inr hl
      · exact .inl (Nat.succ.inj (he.trans hp.symm))

theorem Reaped.step (h : Reaped s) (hi : Inv s) (hs : step s e = some t) : Reaped t := by
  cases step_cases hs with
  | dumped | dumpFailed | notRunning | running | startFailed => exact h.same rfl rfl rfl rfl
  | signalled | signalFailed | timer | interrupted | exit | interrupt | advance =>
    exact h.same rfl rfl rfl rfl
  | started hl => exact h.started (hi.start _ hl)
  | marked hw =>
    obtain ⟨rest, hws, rfl⟩ := hi.newest hw nofun
    rw [hws, List.set_cons_zero]
    have ht : Reaped { s with watchers := .marked :: rest } := h.newest hws rfl
    exact ht.same rfl rfl rfl rfl
  | waiting hw =>
    obtain ⟨rest, hws, rfl⟩ := hi.newest hw nofun
    rw [hws, List.set_cons_zero]
    exact h.newest hws rfl
  | collected hw =>
    obtain ⟨rest, hws, rfl⟩ := hi.newest hw nofun
    rw [hws, List.set_cons_zero]
    exact h.collect hi hws
  | finished hw =>
    obtain ⟨rest, hws, rfl⟩ := hi.newest hw nofun
    rw [hws, List.set_cons_zero]
    have ht : Reaped { s with watchers := .finished :: rest } := h.newest hws rfl
    exact ht.same rfl rfl rfl rfl

theorem reaped_marked : (system.restrict Marked).Invariant fun s => Inv s ∧ Reaped s :=
  System.Invariant.restrict (fun hi => ⟨Inv.init hi, Reaped.init hi⟩)
    (fun h hm hs => ⟨h.1.step hm hs, h.2.step h.1 hs⟩)

/-- As long as every goroutine sets the flag before the loop reads it, no exit is collected twice,
those of all children but the newest have been, and a new child is started only after the exit of
the last one has been collected. -/
theorem children_reaped (h : (system.restrict Marked).Reachable s) :
    s.collected.Nodup ∧ (∀ p ∈ s.collected, p ∉ s.alive) ∧
      (∀ p, p + 1 < s.started.length → p ∈ s.collected) ∧
      ∀ dump, s.loop = .start dump → ∀ p, p < s.started.length → p ∈ s.collected := by
  obtain ⟨hi, hr⟩ := reaped_marked.reachable h
  refine ⟨hr.nodup, ?_, ?_, ?_⟩
  · intro p hp ha
    obtain ⟨hq, hw⟩ := hi.alive p ha
    exact absurd (hr.process p hq) (Nat.ne_of_lt ((hr.before hw).1 hp))
  · intro p hp
    exact (hr.collected p).2 ⟨Nat.lt_of_succ_lt hp, fun he => absurd he (Nat.ne_of_lt hp)⟩
  · intro dump hl p hp
    exact (hr.after (not_watching_of_finished (hi.start dump hl))).2 hp

/-- A child that is started, exits and is collected before the next renewal. -/
theorem kept_cycle {s : Daemon} (hr : (system.restrict Marked).Reachable s)
    (hl : s.loop = .start sampleDump) (hc : s.config = sample.config) (ha : s.alive = [])
    (hw : .spawned ∉ s.watchers) : ∃ t, (system.restrict Marked).Reachable t ∧
      t.loop = .start sampleDump ∧ t.config = sample.config ∧ t.alive = [] ∧
      .spawned ∉ t.watchers ∧ t.started.length = s.started.length + 1 ∧
      t.collected = s.started.length :: s.collected := by
  have ht : s.clock + (1 : Int).tdiv 2 ≤ s.clock := by
    have hz : (1 : Int).tdiv 2 = 0 := rfl
    rw [hz, Int.add_zero]
  have hnil : (s.started.length :: s.alive).erase s.started.length = [] := by
    rw [List.erase_cons_head, ha]
  have hgone : s.started.length ∉ (s.started.length :: s.alive).erase s.started.length := by
    rw [hnil]
    exact List.not_mem_nil
  have hr := kept hr (.started hl) trivial
  have hr := kept hr (@Step.marked _ 0 rfl) trivial
  have hr := kept hr (@Step.waiting _ 0 _ rfl rfl) trivial
  have hr := kept hr (.exit List.mem_cons_self) trivial
  have hr := kept hr (@Step.collected _ 0 _ rfl hgone) trivial
  have hr := kept hr (@Step.finished _ 0 rfl) trivial
  have hr := kept hr (.timer rfl ht) trivial
  obtain ⟨world, h⟩ := @step_renewal { s.start sampleDump with
    processRunning := false
    watchers := .finished :: s.watchers
    alive := (s.started.length :: s.alive).erase s.started.length
    collected := s.started.length :: s.collected
    loop := .dumpBundles } hc rfl
  have hr := kept hr h trivial
  have hm : Watcher.spawned ∉ .finished :: s.watchers := by
    intro hm
    rcases List.mem_cons.1 hm with he | hm
    · cases he
    · exact hw hm
  have hr := kept hr (.notRunning rfl rfl) hm
  exact ⟨_, hr, rfl, hc, hnil, hm, List.length_append, rfl⟩

/-- Two children have come and gone when the third is about to be started. -/
theorem children_reaped_sample : ∃ s : Daemon, s.started.length = 2 ∧ s.collected = [1, 0] ∧
    s.loop = .start sampleDump ∧
    s.collected.Nodup ∧ (∀ p ∈ s.collected, p ∉ s.alive) ∧
      (∀ p, p + 1 < s.started.length → p ∈ s.collected) ∧
      ∀ dump, s.loop = .start dump → ∀ p, p < s.started.length → p ∈ s.collected := by
  have hi : (system.restrict Marked).init sample := init_sample
  obtain ⟨world, h⟩ := @step_renewal sample rfl rfl
  have hr := kept (.init hi) h trivial
  have hr := kept hr (.notRunning rfl rfl) List.not_mem_nil
  obtain ⟨s₁, hr, hl, hc, ha, hw, hn₁, hd₁⟩ := kept_cycle hr rfl rfl rfl List.not_mem_nil
  obtain ⟨s₂, hr, hl, _, _, _, hn₂, hd₂⟩ := kept_cycle hr hl hc ha hw
  rw [hn₁, hd₁] at hd₂
  rw [hn₁] at hn₂
  exact ⟨s₂, hn₂, hd₂, hl, children_reaped hr⟩

end SpiffeExample.Daemon
