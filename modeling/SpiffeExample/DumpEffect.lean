import SpiffeExample.Dump

namespace SpiffeExample.Sidecar
set_option autoImplicit true

/-- The first error before the file with the keystore is opened. -/
def keystoreError (env : Environment) (index : Nat) : Option GoError :=
  (osError (env.conversion index .svidPrivateKey)).or
    ((osError (env.conversion index .svid)).or (env.writeKeystore index).openFile)

/-- The first error from then on, before the file with the CA certs is opened. -/
def certsError (env : Environment) (index : Nat) : Option GoError :=
  (env.writeKeystore index).writeError.or
    ((osError (env.conversion index .svidBundle)).or (env.writeCerts index).openFile)

def keystore (env : Environment) (index : Nat) (bundle : WorkloadEntry) : Bytes :=
  (env.writeKeystore index).content
    (pem (env.conversion index .svidPrivateKey) "ec" bundle.svidPrivateKey ++
      pem (env.conversion index .svid) "x509" bundle.svid)

def certs (env : Environment) (index : Nat) (bundle : WorkloadEntry) : Bytes :=
  (env.writeCerts index).content
    (pem (env.conversion index .svidBundle) "x509" bundle.svidBundle)

def bundleError (env : Environment) (index : Nat) : Option GoError :=
  (keystoreError env index).or ((certsError env index).or (env.writeCerts index).writeError)

def outcome : Option GoError → Except GoError Unit
  | none => .ok ()
  | some e => .error e

def afterwards : Option GoError → List (String × Bytes) → List (String × Bytes)
  | none, log => log
  | some _, _ => []

def bundleWrites (env : Environment) (certDir : String) (index : Nat) (bundle : WorkloadEntry) :
    List (String × Bytes) :=
  afterwards (keystoreError env index) ((pkFilename certDir index, keystore env index bundle) ::
    afterwards (certsError env index) [(certFilename certDir index, certs env index bundle)])

theorem fail_yields (err : Option GoError) : (Go.fail err).Yields (outcome err) [] := by
  cases err with
  | none => exact ⟨fun _ => rfl, fun w => (List.append_nil w.written).symm⟩
  | some e => exact ⟨fun _ => rfl, fun w => (List.append_nil w.written).symm⟩

theorem afterwards_or : afterwards (err.or err') log = afterwards err (afterwards err' log) := by
  cases err <;> rfl

theorem afterwards_append :
    afterwards err log ++ afterwards (err.or err') log' =
      afterwards err (log ++ afterwards err' log') := by
  cases err <;> rfl

/-- After an error nothing more is written, and the first error is the one that is returned. -/
theorem seq_yields {x y : Go Unit} (hx : x.Yields (outcome err) l)
    (hy : y.Yields (outcome err') m) :
    (x >>= fun _ => y).Yields (outcome (err.or err')) (l ++ afterwards err m) := by
  cases err with
  | none => exact hx.bind hy
  | some e =>
    rw [afterwards, List.append_nil]
    exact hx.fails

theorem convertToPem_seq {f : Bytes → Go Unit} (env : Conversion) (format : String)
    (input : Bytes) (hf : (f (pem env format input)).Yields (outcome err) m) :
    (convertToPem env format input >>= f).Yields (outcome ((osError env).or err))
      (afterwards (osError env) m) := by
  cases he : osError env with
  | none => exact (convertToPem_ok env format input he).bind hf
  | some e => exact (convertToPem_error env format input he).fails

theorem writeFile_yields (env : Writing) (filename : String) (data : Bytes) :
    (writeFile env filename data).Yields (outcome (env.openFile.or env.writeError))
      (afterwards env.openFile [(filename, env.content data)]) := by
  have ha : (Go.act (·.writeFile filename (env.content data))).Yields (outcome none)
      [(filename, env.content data)] := ⟨fun _ => rfl, fun _ => rfl⟩
  exact seq_yields (fail_yields env.openFile) (seq_yields ha (fail_yields env.writeError))

theorem bundleError_eq (env : Environment) (index : Nat) :
    bundleError env index =
      (osError (env.conversion index .svidPrivateKey)).or
        ((osError (env.conversion index .svid)).or
          (((env.writeKeystore index).openFile.or (env.writeKeystore index).writeError).or
            ((osError (env.conversion index .svidBundle)).or
              ((env.writeCerts index).openFile.or (env.writeCerts index).writeError)))) := by
  simp only [bundleError, keystoreError, certsError, Option.or_assoc]

theorem bundleWrites_eq (env : Environment) (certDir : String) (index : Nat)
    (bundle : WorkloadEntry) :
    bundleWrites env certDir index bundle =
      afterwards (osError (env.conversion index .svidPrivateKey))
        (afterwards (osError (env.conversion index .svid))
          (afterwards (env.writeKeystore index).openFile
              [(pkFilename certDir index, keystore env index bundle)] ++
            afterwards ((env.writeKeystore index).openFile.or (env.writeKeystore index).writeError)
              (afterwards (osError (env.conversion index .svidBundle))
                (afterwards (env.writeCerts index).openFile
                  [(certFilename certDir index, certs env index bundle)])))) := by
  rw [bundleWrites, afterwards_append]
  simp only [keystoreError, certsError, afterwards_or]
  rfl

/-- The first error ends a round of the loop, and what was written before that stays. -/
theorem dumpBundle_yields (env : Environment) (certDir : String) (index : Nat)
    (bundle : WorkloadEntry) :
    (dumpBundle env certDir index bundle).Yields (outcome (bundleError env index))
      (bundleWrites env certDir index bundle) := by
  rw [dumpBundle, bundleError_eq, bundleWrites_eq]
  apply convertToPem_seq
  apply convertToPem_seq
  apply seq_yields (writeFile_yields _ _ _)
  apply convertToPem_seq
  exact writeFile_yields _ _ _

def firstError (env : Environment) : Nat → List WorkloadEntry → Option GoError
  | _, [] => none
  | index, _ :: bundles => (bundleError env index).or (firstError env (index + 1) bundles)

/-- The files that the loop writes up to its first error. -/
def writesFrom (env : Environment) (certDir : String) :
    Nat → List WorkloadEntry → List (String × Bytes)
  | _, [] => []
  | index, bundle :: bundles =>
    bundleWrites env certDir index bundle ++
      afterwards (bundleError env index) (writesFrom env certDir (index + 1) bundles)

theorem dumpFrom_yields (env : Environment) (certDir : String) (index : Nat)
    (bundles : List WorkloadEntry) :
    (dumpFrom env certDir index bundles).Yields (outcome (firstError env index bundles))
      (writesFrom env certDir index bundles) := by
  induction bundles generalizing index with
  | nil => exact ⟨fun _ => rfl, fun w => (List.append_nil w.written).symm⟩
  | cons bundle bundles ih =>
    rw [dumpFrom, firstError, writesFrom]
    exact seq_yields (dumpBundle_yields env certDir index bundle) (ih (index + 1))

theorem dumpBundles_ok (env : Environment) (certDir : String) (response : Bundles) (w : World)
    (h : response.bundles ≠ []) :
    (dumpBundles env certDir (.ok response) w).1 = ⟨pkFilename certDir 0, certFilename certDir 0,
        response.ttl, firstError env 0 response.bundles⟩ ∧
      (dumpBundles env certDir (.ok response) w).2.written =
        w.written ++ writesFrom env certDir 0 response.bundles := by
  have hd := dumpFrom_yields env certDir 0 response.bundles
  have hn : response.bundles.length ≠ 0 := fun hn => h (List.eq_nil_of_length_eq_zero hn)
  apply And.intro
  · have hr := hd.result w
    rw [dumpBundles, if_neg hn]
    cases hx : dumpFrom env certDir 0 response.bundles w with
    | mk r w' =>
      rw [hx] at hr
      cases he : firstError env 0 response.bundles with
      | none =>
        rw [he] at hr
        cases hr
        rfl
      | some e =>
        rw [he] at hr
        cases hr
        rfl
  · rw [dumpBundles_snd]
    exact hd.written w

/-- The first round of several is without error, and so are those after it. -/
theorem rounds_succ : (∀ j, j < k + 1 → bundleError env (index + j) = none) ↔
    bundleError env index = none ∧ ∀ j, j < k → bundleError env (index + 1 + j) = none := by
  rw [Nat.forall_lt_succ_left]
  simp only [Nat.add_zero, Nat.add_right_comm index 1, Nat.add_assoc]

theorem firstError_eq_none : firstError env index bundles = none ↔
    ∀ k, k < bundles.length → bundleError env (index + k) = none := by
  induction bundles generalizing index with
  | nil => exact ⟨fun _ _ h => absurd h (Nat.not_lt_zero _), fun _ => rfl⟩
  | cons bundle bundles ih =>
    rw [firstError, Option.or_eq_none_iff, ih, List.length_cons, rounds_succ]

theorem firstError_round (h : firstError env index bundles = some e) :
    ∃ k bundle, bundles[k]? = some bundle ∧
      (∀ j, j < k → bundleError env (index + j) = none) ∧
      bundleError env (index + k) = some e := by
  induction bundles generalizing index with
  | nil => cases h
  | cons bundle bundles ih =>
    rw [firstError] at h
    cases he : bundleError env index with
    | some e' =>
      rw [he] at h
      exact ⟨0, bundle, rfl, fun j hj => absurd hj (Nat.not_lt_zero _), he.trans h⟩
    | none =>
      rw [he] at h
      obtain ⟨k, b, hk, hj, hs⟩ := ih h
      rw [Nat.add_right_comm] at hs
      exact ⟨k + 1, b, hk, rounds_succ.2 ⟨he, hj⟩, hs⟩

theorem mem_bundleWrites : p ∈ bundleWrites env certDir index bundle ↔
    keystoreError env index = none ∧ (p = (pkFilename certDir index, keystore env index bundle) ∨
      certsError env index = none ∧ p = (certFilename certDir index, certs env index bundle)) := by
  rw [bundleWrites]
  cases keystoreError env index with
  | some e => simp only [afterwards, List.not_mem_nil, reduceCtorEq, false_and]
  | none =>
    cases certsError env index with
    | some e => simp only [afterwards, List.mem_singleton, reduceCtorEq, false_and, or_false,
        true_and]
    | none => simp only [afterwards, List.mem_cons, List.not_mem_nil, or_false, true_and]

/-- A file is written when the rounds before its own have no error. -/
theorem mem_writesFrom : p ∈ writesFrom env certDir index bundles ↔
    ∃ k bundle, bundles[k]? = some bundle ∧
      (∀ j, j < k → bundleError env (index + j) = none) ∧
      p ∈ bundleWrites env certDir (index + k) bundle := by
  induction bundles generalizing index with
  | nil =>
    apply Iff.intro
    · intro h
      cases h
    · intro h
      obtain ⟨k, bundle, hk, _⟩ := h
      cases hk
  | cons bundle bundles ih =>
    rw [writesFrom, List.mem_append]
    apply Iff.intro
    · intro h
      rcases h with h | h
      · exact ⟨0, bundle, rfl, fun j hj => absurd hj (Nat.not_lt_zero _), h⟩
      · cases he : bundleError env index with
        | some e =>
          rw [he] at h
          cases h
        | none =>
          rw [he] at h
          obtain ⟨k, b, hk, hj, hp⟩ := ih.1 h
          rw [Nat.add_right_comm] at hp
          exact ⟨k + 1, b, hk, rounds_succ.2 ⟨he, hj⟩, hp⟩
    · intro h
      obtain ⟨k, b, hk, hj, hp⟩ := h
      cases k with
      | zero =>
        cases hk
        exact .inl hp
      | succ k =>
        obtain ⟨he, hj⟩ := rounds_succ.1 hj
        rw [← Nat.add_assoc, Nat.add_right_comm] at hp
        rw [he]
        exact .inr (ih.2 ⟨k, b, hk, hj, hp⟩)

theorem repr_injective {m n : Nat} (h : m.repr.toList = n.repr.toList) : m = n := by
  have hd := congrArg (fun ds => Nat.ofDigitChars 10 ds 0) h
  simp only [Nat.toList_repr, Nat.ofDigitChars_ten_toDigits] at hd
  exact hd

theorem pkFilename_injective (h : pkFilename certDir i = pkFilename certDir j) : i = j := by
  have hl := congrArg String.toList h
  simp only [pkFilename, String.toList_append] at hl
  exact repr_injective (List.append_cancel_left (List.append_cancel_right hl))

theorem certFilename_injective (h : certFilename certDir i = certFilename certDir j) : i = j := by
  have hl := congrArg String.toList h
  simp only [certFilename, String.toList_append] at hl
  exact repr_injective (List.append_cancel_left (List.append_cancel_right hl))

theorem pkFilename_ne_certFilename : pkFilename certDir i ≠ certFilename certDir j := by
  intro h
  have hl := congrArg (fun s => s.toList.getLast?) h
  simp only [pkFilename, certFilename, String.toList_append] at hl
  have hk : ".key".toList.getLast? = some 'y' := by decide
  have hc : ".cert".toList.getLast? = some 't' := by decide
  simp only [List.getLast?_append, hk, hc, Option.some_or] at hl
  exact absurd hl (by decide)

theorem mem_keystore : (pkFilename certDir i, data) ∈ writesFrom env certDir 0 bundles ↔
    ∃ bundle, bundles[i]? = some bundle ∧ (∀ j, j < i → bundleError env j = none) ∧
      keystoreError env i = none ∧ data = keystore env i bundle := by
  simp only [mem_writesFrom, mem_bundleWrites, Nat.zero_add]
  apply Iff.intro
  · intro h
    obtain ⟨k, bundle, hk, hj, he, hp | ⟨_, hp⟩⟩ := h
    · cases pkFilename_injective (congrArg Prod.fst hp)
      exact ⟨bundle, hk, hj, he, congrArg Prod.snd hp⟩
    · exact absurd (congrArg Prod.fst hp) pkFilename_ne_certFilename
  · intro h
    obtain ⟨bundle, hb, hj, he, rfl⟩ := h
    exact ⟨i, bundle, hb, hj, he, .inl rfl⟩

theorem mem_certs : (certFilename certDir i, data) ∈ writesFrom env certDir 0 bundles ↔
    ∃ bundle, bundles[i]? = some bundle ∧ (∀ j, j < i → bundleError env j = none) ∧
      keystoreError env i = none ∧ certsError env i = none ∧ data = certs env i bundle := by
  simp only [mem_writesFrom, mem_bundleWrites, Nat.zero_add]
  apply Iff.intro
  · intro h
    obtain ⟨k, bundle, hk, hj, he, hp | ⟨hc, hp⟩⟩ := h
    · exact absurd (congrArg Prod.fst hp).symm pkFilename_ne_certFilename
    · cases certFilename_injective (congrArg Prod.fst hp)
      exact ⟨bundle, hk, hj, he, hc, congrArg Prod.snd hp⟩
  · intro h
    obtain ⟨bundle, hb, hj, he, hc, rfl⟩ := h
    exact ⟨i, bundle, hb, hj, he, .inr ⟨hc, rfl⟩⟩

theorem keystore_written (hb : bundles[i]? = some bundle) :
    (∃ data, (pkFilename certDir i, data) ∈ writesFrom env certDir 0 bundles) ↔
      (∀ j, j < i → bundleError env j = none) ∧ keystoreError env i = none := by
  apply Iff.intro
  · intro h
    obtain ⟨data, hm⟩ := h
    obtain ⟨_, _, hj, he, _⟩ := mem_keystore.1 hm
    exact ⟨hj, he⟩
  · intro h
    obtain ⟨hj, he⟩ := h
    exact ⟨_, mem_keystore.2 ⟨bundle, hb, hj, he, rfl⟩⟩

theorem certs_written (hb : bundles[i]? = some bundle) :
    (∃ data, (certFilename certDir i, data) ∈ writesFrom env certDir 0 bundles) ↔
      (∀ j, j < i → bundleError env j = none) ∧ keystoreError env i = none ∧
        certsError env i = none := by
  apply Iff.intro
  · intro h
    obtain ⟨data, hm⟩ := h
    obtain ⟨_, _, hj, he, hc, _⟩ := mem_certs.1 hm
    exact ⟨hj, he, hc⟩
  · intro h
    obtain ⟨hj, he, hc⟩ := h
    exact ⟨_, mem_certs.2 ⟨bundle, hb, hj, he, hc, rfl⟩⟩

def Environment.sample (status : Nat) : Environment where
  conversion _ _ := ⟨none, none, none, none, id, fun _ input => (status, input)⟩
  writeKeystore _ := ⟨none, none⟩
  writeCerts _ := ⟨none, none⟩

def Bundles.sample : Bundles := ⟨[⟨[1], [2], [3]⟩], 1⟩

end SpiffeExample.Sidecar
