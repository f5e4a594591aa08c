import SpiffeExample.DumpFiles

namespace SpiffeExample.Sidecar
set_option autoImplicit true

section
variable {env : Environment} {certDir : String} {response : Bundles} {w : World}

theorem keystore_new (hb : response.bundles[i]? = some bundle)
    (hj : ∀ j, j < i → bundleError env j = none) (he : keystoreError env i = none) :
    (dumpBundles env certDir (.ok response) w).2.files (pkFilename certDir i) =
      some (keystore env i bundle) := by
  rw [dumpBundles_files]
  apply Replay.replay_written (mem_keystore.2 ⟨bundle, hb, hj, he, rfl⟩)
  intro data hm
  obtain ⟨bundle', hb', _, _, hd⟩ := mem_keystore.1 hm
  cases hb.symm.trans hb'
  exact hd

theorem certs_new (hb : response.bundles[i]? = some bundle)
    (hj : ∀ j, j < i → bundleError env j = none) (he : keystoreError env i = none)
    (hc : certsError env i = none) :
    (dumpBundles env certDir (.ok response) w).2.files (certFilename certDir i) =
      some (certs env i bundle) := by
  rw [dumpBundles_files]
  apply Replay.replay_written (mem_certs.2 ⟨bundle, hb, hj, he, hc, rfl⟩)
  intro data hm
  obtain ⟨bundle', hb', _, _, _, hd⟩ := mem_certs.1 hm
  cases hb.symm.trans hb'
  exact hd

theorem keystore_old (h : ∀ bundle, response.bundles[i]? = some bundle →
      (∀ j, j < i → bundleError env j = none) → keystoreError env i ≠ none) :
    (dumpBundles env certDir (.ok response) w).2.files (pkFilename certDir i) =
      w.files (pkFilename certDir i) := by
  rw [dumpBundles_files]
  apply Replay.replay_unwritten
  intro data hm
  obtain ⟨bundle, hb, hj, he, _⟩ := mem_keystore.1 hm
  exact h bundle hb hj he

theorem certs_old (h : ∀ bundle, response.bundles[i]? = some bundle →
      (∀ j, j < i → bundleError env j = none) → keystoreError env i = none →
      certsError env i ≠ none) :
    (dumpBundles env certDir (.ok response) w).2.files (certFilename certDir i) =
      w.files (certFilename certDir i) := by
  rw [dumpBundles_files]
  apply Replay.replay_unwritten
  intro data hm
  obtain ⟨bundle, hb, hj, he, hc, _⟩ := mem_certs.1 hm
  exact h bundle hb hj he hc

theorem other_old (h : ∀ i, i < response.bundles.length →
      path ≠ pkFilename certDir i ∧ path ≠ certFilename certDir i) :
    (dumpBundles env certDir (.ok response) w).2.files path = w.files path := by
  rw [dumpBundles_files]
  apply Replay.replay_unwritten
  intro data hm
  obtain ⟨k, bundle, hb, _, hp⟩ := mem_writesFrom.1 hm
  have hk := h k (List.getElem?_eq_some_iff.1 hb).1
  rw [Nat.zero_add] at hp
  rcases (mem_bundleWrites.1 hp).2 with he | ⟨_, he⟩
  · exact hk.1 (congrArg Prod.fst he)
  · exact hk.2 (congrArg Prod.fst he)

end

/-- A conversion in which the operating system reports no error and `openssl` exits with zero. -/
structure Converts (env : Conversion) (format : String) (input : Bytes) : Prop where
  osError : osError env = none
  accepted : env.accepted input = input
  exited : ¬ Fails env format input

structure RoundSucceeds (env : Environment) (index : Nat) (bundle : WorkloadEntry) : Prop where
  svidPrivateKey : Converts (env.conversion index .svidPrivateKey) "ec" bundle.svidPrivateKey
  svid : Converts (env.conversion index .svid) "x509" bundle.svid
  svidBundle : Converts (env.conversion index .svidBundle) "x509" bundle.svidBundle
  writeKeystore : env.writeKeystore index = ⟨none, none⟩
  writeCerts : env.writeCerts index = ⟨none, none⟩

theorem Converts.pem (h : Converts env format input) :
    pem env format input = (env.openssl format input).2 := by
  rw [Sidecar.pem, h.accepted]

theorem RoundSucceeds.errors (h : RoundSucceeds env index bundle) :
    keystoreError env index = none ∧ certsError env index = none ∧
      bundleError env index = none := by
  have hk : keystoreError env index = none := by
    rw [keystoreError, h.svidPrivateKey.osError, h.svid.osError, h.writeKeystore]
    rfl
  have hc : certsError env index = none := by
    rw [certsError, h.writeKeystore, h.svidBundle.osError, h.writeCerts]
    rfl
  refine ⟨hk, hc, ?_⟩
  rw [bundleError, hk, hc, h.writeCerts]
  rfl

theorem RoundSucceeds.keystore (h : RoundSucceeds env index bundle) :
    keystore env index bundle =
      ((env.conversion index .svidPrivateKey).openssl "ec" bundle.svidPrivateKey).2 ++
        ((env.conversion index .svid).openssl "x509" bundle.svid).2 := by
  rw [Sidecar.keystore, h.writeKeystore, h.svidPrivateKey.pem, h.svid.pem]
  rfl

theorem RoundSucceeds.certs (h : RoundSucceeds env index bundle) :
    certs env index bundle =
      ((env.conversion index .svidBundle).openssl "x509" bundle.svidBundle).2 := by
  rw [Sidecar.certs, h.writeCerts, h.svidBundle.pem]
  rfl

/-- A dump in which everything succeeds writes the two files of every entry and no other file. -/
theorem dumpBundles_complete (certDir : String) (w : World) (hn : response.bundles ≠ [])
    (hs : ∀ i bundle, response.bundles[i]? = some bundle → RoundSucceeds env i bundle) :
    (dumpBundles env certDir (.ok response) w).1 =
      ⟨certDir ++ "/0.key", certDir ++ "/0.cert", response.ttl, none⟩ ∧
    (∀ i bundle, response.bundles[i]? = some bundle →
      (dumpBundles env certDir (.ok response) w).2.files (pkFilename certDir i) =
        some (((env.conversion i .svidPrivateKey).openssl "ec" bundle.svidPrivateKey).2 ++
          ((env.conversion i .svid).openssl "x509" bundle.svid).2) ∧
      (dumpBundles env certDir (.ok response) w).2.files (certFilename certDir i) =
        some ((env.conversion i .svidBundle).openssl "x509" bundle.svidBundle).2) ∧
    ∀ path, (∀ i, i < response.bundles.length →
        path ≠ pkFilename certDir i ∧ path ≠ certFilename certDir i) →
      (dumpBundles env certDir (.ok response) w).2.files path = w.files path := by
  have herr : ∀ i, i < response.bundles.length → bundleError env i = none := by
    intro i hi
    exact (hs i _ (List.getElem?_eq_getElem hi)).errors.2.2
  refine ⟨?_, ?_, ?_⟩
  · have hf : firstError env 0 response.bundles = none := by
      apply firstError_eq_none.2
      intro k hk
      rw [Nat.zero_add]
      exact herr k hk
    rw [(dumpBundles_ok env certDir response w hn).1, hf, pkFilename, certFilename,
      String.append_assoc, String.append_assoc, String.append_assoc, String.append_assoc]
    rfl
  · intro i bundle hb
    have hi := hs i bundle hb
    have hlt := (List.getElem?_eq_some_iff.1 hb).1
    have hj : ∀ j, j < i → bundleError env j = none := fun j hj => herr j (hj.trans hlt)
    apply And.intro
    · rw [keystore_new hb hj hi.errors.1, hi.keystore]
    · rw [certs_new hb hj hi.errors.1 hi.errors.2.1, hi.certs]
  · intro path hp
    exact other_old hp

theorem sample_converts (index : Nat) (part : Part) (format : String) (input : Bytes) :
    Converts ((Environment.sample 0).conversion index part) format input :=
  ⟨rfl, rfl, fun h => h rfl⟩

def samplePair : Bundles := ⟨[⟨[1], [2], [3]⟩, ⟨[4], [5], [6]⟩], 1⟩

/-- Neither entry gets in the way of the other, nor of a file that was there before. -/
theorem dumpBundles_sample :
    (dumpBundles (.sample 0) "/certs" (.ok samplePair) World.sample).1 =
      ⟨"/certs/0.key", "/certs/0.cert", 1, none⟩ ∧
    ((dumpBundles (.sample 0) "/certs" (.ok samplePair) World.sample).2.files
        (pkFilename "/certs" 0) = some [2, 1] ∧
      (dumpBundles (.sample 0) "/certs" (.ok samplePair) World.sample).2.files
        (certFilename "/certs" 0) = some [3]) ∧
    ((dumpBundles (.sample 0) "/certs" (.ok samplePair) World.sample).2.files
        (pkFilename "/certs" 1) = some [5, 4] ∧
      (dumpBundles (.sample 0) "/certs" (.ok samplePair) World.sample).2.files
        (certFilename "/certs" 1) = some [6]) ∧
    (dumpBundles (.sample 0) "/certs" (.ok samplePair) World.sample).2.files
      (pkFilename "/certs" 2) = some [0] := by
  have hs : ∀ i bundle, samplePair.bundles[i]? = some bundle →
      RoundSucceeds (.sample 0) i bundle := by
    intro i bundle _
    have hc := sample_converts i
    exact ⟨hc _ _ _, hc _ _ _, hc _ _ _, rfl, rfl⟩
  have hp : ∀ i, i < 2 → pkFilename "/certs" 2 ≠ pkFilename "/certs" i ∧
      pkFilename "/certs" 2 ≠ certFilename "/certs" i := by
    intro i hi
    exact ⟨fun he => Nat.ne_of_gt hi (pkFilename_injective he), pkFilename_ne_certFilename⟩
  obtain ⟨hr, hf, ho⟩ := dumpBundles_complete "/certs" World.sample (List.cons_ne_nil _ _) hs
  exact ⟨hr, hf 0 _ rfl, hf 1 _ rfl, ho _ hp⟩

/-- What the round for an entry is to leave in its two files. -/
def newKeystore (env : Environment) (index : Nat) (bundle : WorkloadEntry) : Bytes :=
  pem (env.conversion index .svidPrivateKey) "ec" bundle.svidPrivateKey ++
    pem (env.conversion index .svid) "x509" bundle.svid

def newCerts (env : Environment) (index : Nat) (bundle : WorkloadEntry) : Bytes :=
  pem (env.conversion index .svidBundle) "x509" bundle.svidBundle

def fetchedEntry : Except GoError Bundles → Nat → Option WorkloadEntry
  | .error _, _ => none
  | .ok response, index => response.bundles[index]?

/-- The two files of an index are those from before, or those of the new response. -/
def Consistent (env : Environment) (certDir : String) (fetched : Except GoError Bundles)
    (w w' : World) (index : Nat) : Prop :=
  (w'.files (pkFilename certDir index) = w.files (pkFilename certDir index) ∧
    w'.files (certFilename certDir index) = w.files (certFilename certDir index)) ∨
  ∃ bundle, fetchedEntry fetched index = some bundle ∧
    w'.files (pkFilename certDir index) = some (newKeystore env index bundle) ∧
    w'.files (certFilename certDir index) = some (newCerts env index bundle)

/-- The error that ends the dump comes after the keystore of this entry and before its certs. -/
structure Interrupted (env : Environment) (fetched : Except GoError Bundles) (index : Nat)
    (bundle : WorkloadEntry) : Prop where
  entry : fetchedEntry fetched index = some bundle
  before : ∀ j, j < index → bundleError env j = none
  keystore : keystoreError env index = none
  certs : certsError env index ≠ none

/-- No write fails after it has changed its file. -/
def WritesWhole (env : Environment) : Prop :=
  ∀ i, (env.writeKeystore i).write = none ∧ (env.writeCerts i).write = none

theorem WritesWhole.keystore (h : WritesWhole env) :
    keystore env i bundle = newKeystore env i bundle := by
  rw [Sidecar.keystore, Writing.content, (h i).1]
  rfl

theorem WritesWhole.certs (h : WritesWhole env) : certs env i bundle = newCerts env i bundle := by
  rw [Sidecar.certs, Writing.content, (h i).2]
  rfl

theorem dumpBundles_pairs (certDir : String) (fetched : Except GoError Bundles) (w : World)
    (hw : WritesWhole env) (i : Nat) :
    ((∀ bundle, ¬ Interrupted env fetched i bundle) →
      Consistent env certDir fetched w (dumpBundles env certDir fetched w).2 i) ∧
    ∀ bundle, Interrupted env fetched i bundle →
      (dumpBundles env certDir fetched w).2.files (pkFilename certDir i) =
        some (newKeystore env i bundle) ∧
      (dumpBundles env certDir fetched w).2.files (certFilename certDir i) =
        w.files (certFilename certDir i) := by
  cases fetched with
  | error e =>
    apply And.intro
    · intro _
      exact .inl ⟨rfl, rfl⟩
    · intro bundle h
      cases h.entry
  | ok response =>
    apply And.intro
    · intro h
      by_cases hold : ∀ bundle, response.bundles[i]? = some bundle →
          (∀ j, j < i → bundleError env j = none) → keystoreError env i ≠ none
      · apply Or.inl
        apply And.intro
        · exact keystore_old hold
        · exact certs_old fun bundle hb hj he => absurd he (hold bundle hb hj)
      · push Not at hold
        obtain ⟨bundle, hb, hj, he⟩ := hold
        have hc : certsError env i = none := by
          by_contra hc
          exact h bundle ⟨hb, hj, he, hc⟩
        refine .inr ⟨bundle, hb, ?_, ?_⟩
        · rw [keystore_new hb hj he, hw.keystore]
        · rw [certs_new hb hj he hc, hw.certs]
    · intro bundle h
      apply And.intro
      · rw [keystore_new h.entry h.before h.keystore, hw.keystore]
      · exact certs_old fun _ _ _ _ => h.certs

/-- In the sample environment, the CA certs of the first entry cannot be converted. -/
def certsUnreadable : Environment where
  conversion _ part := match part with
    | .svidBundle => ⟨none, some "no space left on device", none, none, id, fun _ i => (0, i)⟩
    | _ => ⟨none, none, none, none, id, fun _ i => (0, i)⟩
  writeKeystore _ := ⟨none, none⟩
  writeCerts _ := ⟨none, none⟩

theorem certsUnreadable_interrupted :
    Interrupted certsUnreadable (.ok .sample) 0 ⟨[1], [2], [3]⟩ :=
  ⟨rfl, fun _ h => absurd h (Nat.not_lt_zero _), rfl, Option.some_ne_none _⟩

theorem pairs_sample :
    (dumpBundles certsUnreadable "/certs" (.ok .sample) World.sample).2.files
      (pkFilename "/certs" 0) = some [2, 1] ∧
    (dumpBundles certsUnreadable "/certs" (.ok .sample) World.sample).2.files
      (certFilename "/certs" 0) = some [0] := by
  have hw : WritesWhole certsUnreadable := fun _ => ⟨rfl, rfl⟩
  exact (dumpBundles_pairs "/certs" (.ok .sample) World.sample hw 0).2 _
    certsUnreadable_interrupted

theorem pair_mixed :
    ¬ ∀ (env : Environment) (certDir : String) (fetched : Except GoError Bundles) (w : World),
      WritesWhole env → (dumpBundles env certDir fetched w).1.err ≠ none →
      ∀ i, Consistent env certDir fetched w (dumpBundles env certDir fetched w).2 i := by
  intro h
  have hw : WritesWhole certsUnreadable := fun _ => ⟨rfl, rfl⟩
  have he : (dumpBundles certsUnreadable "/certs" (.ok .sample) World.sample).1.err ≠ none := by
    rw [(dumpBundles_ok certsUnreadable "/certs" .sample World.sample (List.cons_ne_nil _ _)).1]
    exact Option.some_ne_none _
  have hk := @keystore_new certsUnreadable "/certs" .sample World.sample 0 _ rfl
    certsUnreadable_interrupted.before rfl
  have hc := @certs_old certsUnreadable "/certs" .sample World.sample 0
    fun _ _ _ _ => certsUnreadable_interrupted.certs
  rcases h certsUnreadable "/certs" (.ok .sample) World.sample hw he 0 with
    ⟨hold, _⟩ | ⟨bundle, hb, _, hnew⟩
  · rw [hk] at hold
    cases hold
  · cases hb
    rw [hc] at hnew
    cases hnew

end SpiffeExample.Sidecar
