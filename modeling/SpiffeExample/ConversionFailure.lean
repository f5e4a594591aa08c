import SpiffeExample.Daemon

namespace SpiffeExample.Daemon
set_option autoImplicit true
open Sidecar

def KeystoreFails (env : Environment) (index : Nat) (bundle : WorkloadEntry) : Prop :=
  Fails (env.conversion index .svidPrivateKey) "ec" bundle.svidPrivateKey ∨
    Fails (env.conversion index .svid) "x509" bundle.svid

def CertsFail (env : Environment) (index : Nat) (bundle : WorkloadEntry) : Prop :=
  Fails (env.conversion index .svidBundle) "x509" bundle.svidBundle

/-- A renewal from `s` to `t` that ends the daemon with an error and leaves no trace of a failed
conversion in a file. -/
structure Stopped (env : Environment) (response : Bundles) (s t : Daemon) : Prop where
  returned : ∃ e, t.loop = .returned (some e)
  keystore : ∀ i bundle data, response.bundles[i]? = some bundle → KeystoreFails env i bundle →
    (pkFilename s.config.certDir i, data) ∉ t.world.written.drop s.world.written.length
  certs : ∀ i bundle data, response.bundles[i]? = some bundle → CertsFail env i bundle →
    (certFilename s.config.certDir i, data) ∉ t.world.written.drop s.world.written.length

/-- Where a conversion of this round fails, the operating system reports an error in the round
before the file is opened. -/
structure Caught (env : Environment) (index : Nat) (bundle : WorkloadEntry) : Prop where
  keystore : KeystoreFails env index bundle → keystoreError env index ≠ none
  certs : CertsFail env index bundle →
    (keystoreError env index).or (certsError env index) ≠ none

def ReportedInTime (env : Environment) (response : Bundles) : Prop :=
  ∃ j bundle, response.bundles[j]? = some bundle ∧ bundleError env j ≠ none ∧
    ∀ i b, i ≤ j → response.bundles[i]? = some b → Caught env i b

theorem dump_step (hn : response.bundles ≠ [])
    (hs : step s (.dumpBundles env (.ok response)) = some t) :
    ((∃ e, t.loop = .returned (some e)) ↔ ∃ e, firstError env 0 response.bundles = some e) ∧
      t.world.written.drop s.world.written.length =
        writesFrom env s.config.certDir 0 response.bundles := by
  obtain ⟨hd, hw⟩ := dumpBundles_ok env s.config.certDir response s.world hn
  cases step_cases hs with
  | dumped _ he hnone =>
    rw [he] at hd hw
    have herr : firstError env 0 response.bundles = none :=
      (congrArg Dump.err hd).symm.trans hnone
    apply And.intro
    · apply Iff.intro
      · intro h
        obtain ⟨_, hl⟩ := h
        cases hl
      · intro h
        obtain ⟨_, hsome⟩ := h
        cases herr.symm.trans hsome
    · rw [hw, List.drop_left]
  | @dumpFailed _ _ _ _ e _ he hsome =>
    rw [he] at hd hw
    have herr : firstError env 0 response.bundles = some e :=
      (congrArg Dump.err hd).symm.trans hsome
    apply And.intro
    · exact ⟨fun _ => ⟨e, herr⟩, fun _ => ⟨e, rfl⟩⟩
    · rw [hw, List.drop_left]

theorem Stopped.caught (h : Stopped env response s t)
    (hw : t.world.written.drop s.world.written.length =
      writesFrom env s.config.certDir 0 response.bundles)
    (hb : response.bundles[i]? = some bundle) (hj : ∀ j, j < i → bundleError env j = none) :
    Caught env i bundle := by
  apply Caught.mk
  · intro hf he
    obtain ⟨data, hd⟩ := (@keystore_written _ _ _ env s.config.certDir hb).2 ⟨hj, he⟩
    exact h.keystore i bundle data hb hf (hw ▸ hd)
  · intro hf he
    have he := Option.or_eq_none_iff.1 he
    obtain ⟨data, hd⟩ := (@certs_written _ _ _ env s.config.certDir hb).2 ⟨hj, he⟩
    exact h.certs i bundle data hb hf (hw ▸ hd)

theorem Stopped.reportedInTime (h : Stopped env response s t)
    (hw : t.world.written.drop s.world.written.length =
      writesFrom env s.config.certDir 0 response.bundles)
    (he : firstError env 0 response.bundles = some e) : ReportedInTime env response := by
  obtain ⟨j, bundle, hb, hbefore, herr⟩ := firstError_round he
  simp only [Nat.zero_add] at hbefore herr
  have hne : bundleError env j ≠ none := herr ▸ Option.some_ne_none e
  have hc : ∀ i b, i ≤ j → response.bundles[i]? = some b → Caught env i b := by
    intro i b hle hbi
    apply h.caught hw hbi
    intro k hk
    have hkj : k < j := by omega
    exact hbefore k hkj
  exact ⟨j, bundle, hb, hne, hc⟩

theorem ReportedInTime.error (h : ReportedInTime env response) :
    ∃ e, firstError env 0 response.bundles = some e := by
  obtain ⟨j, bundle, hb, hne, _⟩ := h
  apply Option.ne_none_iff_exists'.1
  intro he
  have hj := firstError_eq_none.1 he j (List.getElem?_eq_some_iff.1 hb).1
  rw [Nat.zero_add] at hj
  exact hne hj

theorem ReportedInTime.caught (h : ReportedInTime env response)
    (hb : response.bundles[i]? = some bundle) (hj : ∀ j, j < i → bundleError env j = none) :
    Caught env i bundle := by
  obtain ⟨j, _, _, hne, hc⟩ := h
  by_cases hlt : j < i
  · exact absurd (hj j hlt) hne
  · have hle : i ≤ j := by omega
    exact hc i bundle hle hb

/-- The daemon stops on a failed conversion exactly when the operating system reports an error
of its own in time; the exit status of `openssl` alone never stops it. -/
theorem stopped_iff (hf : ∃ i bundle, response.bundles[i]? = some bundle ∧
      (KeystoreFails env i bundle ∨ CertsFail env i bundle))
    (hs : step s (.dumpBundles env (.ok response)) = some t) :
    Stopped env response s t ↔ ReportedInTime env response := by
  have hn : response.bundles ≠ [] := by
    intro hnil
    obtain ⟨i, bundle, hb, _⟩ := hf
    rw [hnil] at hb
    cases hb
  obtain ⟨hreturned, hw⟩ := dump_step hn hs
  apply Iff.intro
  · intro h
    obtain ⟨e, he⟩ := hreturned.1 h.returned
    exact h.reportedInTime hw he
  · intro h
    apply Stopped.mk (hreturned.2 h.error)
    · intro i bundle data hb hf hm
      rw [hw] at hm
      obtain ⟨hj, hk⟩ := (keystore_written hb).1 ⟨data, hm⟩
      exact (h.caught hb hj).keystore hf hk
    · intro i bundle data hb hf hm
      rw [hw] at hm
      obtain ⟨hj, hkc⟩ := (certs_written hb).1 ⟨data, hm⟩
      exact (h.caught hb hj).certs hf (Option.or_eq_none_iff.2 hkc)

def fullDisk : Environment :=
  { Environment.sample 1 with writeKeystore := fun _ => ⟨some "no space left on device", none⟩ }

theorem stopped_by_write : ∃ t, Stopped fullDisk .sample sample t := by
  have hf : KeystoreFails fullDisk 0 ⟨[1], [2], [3]⟩ := .inl (Nat.succ_ne_zero 0)
  have hne : keystoreError fullDisk 0 ≠ none := Option.some_ne_none _
  have hc : ReportedInTime fullDisk .sample := by
    refine ⟨0, _, rfl, Option.some_ne_none _, ?_⟩
    intro i b hi _
    cases Nat.le_zero.1 hi
    exact ⟨fun _ => hne, fun _ => Option.some_ne_none _⟩
  obtain ⟨world, hs⟩ := @step_dump sample fullDisk .sample rfl (List.cons_ne_nil _ _)
  exact ⟨_, (stopped_iff ⟨0, _, rfl, .inl hf⟩ hs.step).2 hc⟩

theorem failures_unnoticed :
    ¬ ∀ t, step sample (.dumpBundles (.sample 1) (.ok .sample)) = some t →
      Stopped (.sample 1) .sample sample t := by
  intro h
  obtain ⟨world, hs⟩ := @step_dump sample (.sample 1) .sample rfl (List.cons_ne_nil _ _)
  obtain ⟨e, he⟩ := (h _ hs.step).returned
  cases he

end SpiffeExample.Daemon
