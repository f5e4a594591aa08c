import SpiffeExample.DumpOutcome

namespace SpiffeExample.Sidecar
set_option autoImplicit true

section
variable {Certificate : Type} {der pemBlock : Certificate → Bytes}

/-- DER encodings are self-delimiting, and a PEM block is never empty. -/
structure Encoding (der pemBlock : Certificate → Bytes) : Prop where
  selfDelimiting : ∀ {c c' rest rest'}, der c ++ rest = der c' ++ rest' → c = c'
  pemBlock_ne_nil : ∀ c, pemBlock c ≠ []

/-- The certificate at the head of the input is converted and what follows it is ignored. Where
there is none, the output file stays as empty as it was created. -/
structure ConvertsFirst (der pemBlock : Certificate → Bytes) (run : Bytes → Bytes) : Prop where
  first : ∀ c rest, run (der c ++ rest) = pemBlock c
  unreadable : ∀ input, (∀ c rest, input ≠ der c ++ rest) → run input = []

theorem Encoding.flatMap_eq_nil (h : Encoding der pemBlock) (hc : cas.flatMap pemBlock = []) :
    cas = [] := by
  cases cas with
  | nil => rfl
  | cons c cs =>
    rw [List.flatMap_cons] at hc
    exact absurd (List.append_eq_nil_iff.1 hc).1 (h.pemBlock_ne_nil c)

/-- A bundle is converted as a whole exactly when it has one certificate and is read in full. -/
theorem ConvertsFirst.whole_iff (hr : ConvertsFirst der pemBlock run) (h : Encoding der pemBlock)
    (hn : cas ≠ []) (hp : input <+: cas.flatMap der) :
    run input = cas.flatMap pemBlock ↔ cas.length = 1 ∧ input = cas.flatMap der := by
  apply Iff.intro
  · intro ho
    by_cases hi : ∀ c rest, input ≠ der c ++ rest
    · rw [hr.unreadable input hi] at ho
      exact absurd (h.flatMap_eq_nil ho.symm) hn
    · push Not at hi
      obtain ⟨c, rest, rfl⟩ := hi
      obtain ⟨unread, hu⟩ := hp
      cases cas with
      | nil => exact absurd rfl hn
      | cons c' cs =>
        rw [List.append_assoc, List.flatMap_cons] at hu
        cases h.selfDelimiting hu
        rw [hr.first, List.flatMap_cons] at ho
        have hnil : cs.flatMap pemBlock = [] :=
          List.append_cancel_left (ho.symm.trans (List.append_nil _).symm)
        cases h.flatMap_eq_nil hnil
        have hrest : rest ++ unread = [] := List.append_cancel_left hu
        apply And.intro rfl
        rw [(List.append_eq_nil_iff.1 hrest).1]
        rfl
  · intro hw
    obtain ⟨hl, rfl⟩ := hw
    obtain ⟨c, rfl⟩ := List.length_eq_one_iff.1 hl
    have hf := hr.first c []
    rw [List.flatMap_singleton, List.flatMap_singleton]
    rwa [List.append_nil] at hf

theorem dumpBundles_certs (hb : response.bundles[i]? = some bundle)
    (hs : (dumpBundles env certDir (.ok response) w).1.err = none) :
    (dumpBundles env certDir (.ok response) w).2.files (certFilename certDir i) =
      some (newCerts env i bundle) := by
  have hlt := (List.getElem?_eq_some_iff.1 hb).1
  have hn : response.bundles ≠ [] := List.ne_nil_of_length_pos (Nat.zero_lt_of_lt hlt)
  rw [(dumpBundles_ok env certDir response w hn).1] at hs
  have hj : ∀ j, j < response.bundles.length → bundleError env j = none := by
    intro j hj
    have he := firstError_eq_none.1 hs j hj
    rwa [Nat.zero_add] at he
  have hi := hj i hlt
  rw [bundleError, Option.or_eq_none_iff, Option.or_eq_none_iff] at hi
  obtain ⟨hk, hc, hw⟩ := hi
  rw [certs_new hb (fun j hji => hj j (hji.trans hlt)) hk hc, certs, Writing.content,
    Option.map_eq_none_iff.1 hw]
  rfl

/-- The dump keeps every CA certificate of a bundle exactly when the bundle has only one. -/
theorem certs_kept_iff (henc : Encoding der pemBlock)
    (hssl : ConvertsFirst der pemBlock fun input =>
      ((env.conversion i .svidBundle).openssl "x509" input).2)
    (hw : (env.conversion i .svidBundle).accepted bundle.svidBundle <+: bundle.svidBundle)
    (hs : (dumpBundles env certDir (.ok response) w).1.err = none)
    (hb : response.bundles[i]? = some bundle) (hc : bundle.svidBundle = cas.flatMap der)
    (hn : cas ≠ []) :
    (dumpBundles env certDir (.ok response) w).2.files (certFilename certDir i) =
        some (cas.flatMap pemBlock) ↔
      cas.length = 1 ∧
        (env.conversion i .svidBundle).accepted bundle.svidBundle = bundle.svidBundle := by
  have hp : (env.conversion i .svidBundle).accepted bundle.svidBundle <+: cas.flatMap der := by
    rw [← hc]
    exact hw
  have hi := hssl.whole_iff henc hn hp
  rw [← hc] at hi
  rw [dumpBundles_certs hb hs, Option.some_inj]
  exact hi

end

/-- Certificates of one byte, with one byte before it that says what follows. -/
def sampleDer (c : UInt8) : Bytes := [48, c]

def samplePem (c : UInt8) : Bytes := [45, c]

def sampleOpenssl : Bytes → Bytes
  | 48 :: c :: _ => samplePem c
  | _ => []

theorem sampleEncoding : Encoding sampleDer samplePem where
  selfDelimiting h := by
    cases h
    rfl
  pemBlock_ne_nil _ := List.cons_ne_nil _ _

theorem sampleOpenssl_convertsFirst : ConvertsFirst sampleDer samplePem sampleOpenssl where
  first _ _ := rfl
  unreadable input h := by
    rw [sampleOpenssl]
    intro c rest he
    exact h c rest he

def opensslEnvironment : Environment where
  conversion _ _ := ⟨none, none, none, none, id, fun _ input => (0, sampleOpenssl input)⟩
  writeKeystore _ := ⟨none, none⟩
  writeCerts _ := ⟨none, none⟩

def bundlesOf (cas : List UInt8) : Bundles :=
  ⟨[⟨sampleDer 1, sampleDer 2, cas.flatMap sampleDer⟩], 1⟩

theorem bundlesOf_err (cas : List UInt8) :
    (dumpBundles opensslEnvironment "/certs" (.ok (bundlesOf cas)) World.sample).1.err = none := by
  rw [(dumpBundles_ok _ "/certs" (bundlesOf cas) World.sample (List.cons_ne_nil _ _)).1]
  rfl

theorem certs_kept_sample :
    (dumpBundles opensslEnvironment "/certs" (.ok (bundlesOf [7])) World.sample).2.files
      (certFilename "/certs" 0) = some (samplePem 7) :=
  (certs_kept_iff (i := 0) sampleEncoding sampleOpenssl_convertsFirst (List.prefix_refl _)
    (bundlesOf_err [7]) rfl rfl (List.cons_ne_nil 7 [])).2 ⟨rfl, rfl⟩

theorem second_certificate_lost :
    (dumpBundles opensslEnvironment "/certs" (.ok (bundlesOf [7, 8])) World.sample).1.err = none ∧
    (dumpBundles opensslEnvironment "/certs" (.ok (bundlesOf [7, 8])) World.sample).2.files
      (certFilename "/certs" 0) ≠ some ([7, 8].flatMap samplePem) := by
  apply And.intro (bundlesOf_err [7, 8])
  have hf := dumpBundles_certs (i := 0) rfl (bundlesOf_err [7, 8])
  rw [hf]
  intro h
  cases h

end SpiffeExample.Sidecar
