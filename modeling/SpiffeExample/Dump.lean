import SpiffeExample.X509

namespace SpiffeExample
set_option autoImplicit true

abbrev GoError := String

/-- What the sidecar sees of the machine. Temporary files and their handles go by numbers that are
given out in order, and `written` has every file that was written, oldest first. -/
structure World where
  files : String → Option Bytes
  temps : Nat → Option Bytes
  handles : List Nat
  next : Nat
  written : List (String × Bytes)
  fresh : ∀ n, next ≤ n → temps n = none
  issued : ∀ n ∈ handles, n < next

namespace World

def sample : World :=
  ⟨fun _ => some [0], fun _ => none, [], 1, [], fun _ _ => rfl, fun _ h => (nomatch h)⟩

def tempFile (w : World) : World :=
  { w with
    temps := Function.update w.temps w.next (some [])
    handles := w.next :: w.handles
    next := w.next + 1
    fresh := fun n hn => by
      rw [Function.update_of_ne (Nat.ne_of_gt hn)]
      exact w.fresh n (Nat.le_of_succ_le hn)
    issued := fun n hn => by
      rcases List.mem_cons.1 hn with rfl | hn
      · exact Nat.lt_succ_self _
      · exact Nat.lt_succ_of_lt (w.issued n hn) }

def write (w : World) (name : Nat) (data : Bytes) : World :=
  { w with
    temps := Function.update w.temps name ((w.temps name).map fun _ => data)
    fresh := fun n hn => by
      by_cases he : n = name
      · subst he
        rw [Function.update_self, w.fresh n hn]
        rfl
      · rw [Function.update_of_ne he]
        exact w.fresh n hn }

def close (w : World) (name : Nat) : World :=
  { w with
    handles := w.handles.erase name
    issued := fun n hn => w.issued n (List.mem_of_mem_erase hn) }

def remove (w : World) (name : Nat) : World :=
  { w with
    temps := Function.update w.temps name none
    fresh := fun n hn => by
      by_cases he : n = name
      · subst he
        exact Function.update_self _ _ _
      · rw [Function.update_of_ne he]
        exact w.fresh n hn }

def writeFile (w : World) (filename : String) (data : Bytes) : World :=
  { w with
    files := Function.update w.files filename (some data)
    written := w.written ++ [(filename, data)] }

end World

/-- A function that returns a value or an error and acts on the machine. -/
def Go (α : Type) := World → Except GoError α × World

instance : Monad Go where
  pure a w := (.ok a, w)
  bind x f w :=
    match x w with
    | (.ok a, w) => f a w
    | (.error e, w) => (.error e, w)

namespace Go

def fail (err : Option GoError) : Go Unit := fun w =>
  match err with
  | none => (.ok (), w)
  | some e => (.error e, w)

def act (f : World → World) : Go Unit := fun w => (.ok (), f w)

/-- `defer`: the action is taken however the body ends. -/
def defer (f : World → World) (body : Go α) : Go α := fun w =>
  match body w with
  | (r, w) => (r, f w)

/-- Whatever the machine, the result is `r` and the files in `log` are written. -/
structure Yields (x : Go α) (r : Except GoError α) (log : List (String × Bytes)) : Prop where
  result : ∀ w, (x w).1 = r
  written : ∀ w, (x w).2.written = w.written ++ log

theorem bind_ok {x : Go α} {f : α → Go β} (h : (x w).1 = .ok a) :
    (x >>= f) w = f a (x w).2 := by
  change (match x w with | (.ok a, w) => f a w | (.error e, w) => (.error e, w)) = _
  rw [show x w = (.ok a, (x w).2) from Prod.ext h rfl]

theorem bind_error {x : Go α} {f : α → Go β} (h : (x w).1 = .error e) :
    (x >>= f) w = (.error e, (x w).2) := by
  change (match x w with | (.ok a, w) => f a w | (.error e, w) => (.error e, w)) = _
  rw [show x w = (.error e, (x w).2) from Prod.ext h rfl]

theorem Yields.bind {x : Go α} {f : α → Go β} (hx : x.Yields (.ok a) l) (hf : (f a).Yields r m) :
    (x >>= f).Yields r (l ++ m) where
  result w := by
    rw [bind_ok (hx.result w)]
    exact hf.result _
  written w := by
    rw [bind_ok (hx.result w), hf.written, hx.written, List.append_assoc]

theorem Yields.fails {x : Go α} {f : α → Go β} (hx : x.Yields (.error e) l) :
    (x >>= f).Yields (.error e) l where
  result w := by rw [bind_error (hx.result w)]
  written w := by
    rw [bind_error (hx.result w)]
    exact hx.written w

/-- Whatever the machine, it is related to the one that the function leaves. -/
def Takes (R : World → World → Prop) (x : Go α) : Prop := ∀ w, R w (x w).2

theorem Takes.bind {R : World → World → Prop} {x : Go α} {f : α → Go β} (hx : x.Takes R)
    (trans : ∀ {u v w}, R u v → R v w → R u w) (hf : ∀ a, (f a).Takes R) :
    (x >>= f).Takes R := by
  intro w
  cases hr : (x w).1 with
  | error e =>
    rw [bind_error hr]
    exact hx w
  | ok a =>
    rw [bind_ok hr]
    exact trans (hx w) (hf a (x w).2)

end Go

/-- What the operating system and `openssl` do in one conversion: the errors of the steps, the
bytes that reach the input file, the exit status and what it leaves in the output file. -/
structure Conversion where
  tempIn : Option GoError
  tempOut : Option GoError
  start : Option GoError
  readFile : Option GoError
  accepted : Bytes → Bytes
  openssl : String → Bytes → Nat × Bytes

namespace Sidecar

def tempFile (err : Option GoError) : Go Nat := do
  Go.fail err
  fun w => (.ok w.next, w.tempFile)

/-- The process runs to its end; its exit status is not looked at. -/
def wait (env : Conversion) (format : String) (fin fout : Nat) : Go Unit :=
  Go.act fun w => w.write fout (env.openssl format ((w.temps fin).getD [])).2

def readFile (err : Option GoError) (name : Nat) : Go Bytes := do
  Go.fail err
  fun w => (.ok ((w.temps name).getD []), w)

def convertToPem (env : Conversion) (format : String) (input : Bytes) : Go Bytes := do
  let fin ← tempFile env.tempIn
  Go.defer (·.remove fin) do
    Go.act (·.write fin (env.accepted input))
    Go.act (·.close fin)
    let fout ← tempFile env.tempOut
    Go.defer (·.remove fout) do
      Go.act (·.close fin)
      Go.fail env.start
      wait env format fin fout
      readFile env.readFile fout

def osError (env : Conversion) : Option GoError :=
  env.tempIn.or (env.tempOut.or (env.start.or env.readFile))

def Fails (env : Conversion) (format : String) (input : Bytes) : Prop :=
  (env.openssl format (env.accepted input)).1 ≠ 0

def pem (env : Conversion) (format : String) (input : Bytes) : Bytes :=
  (env.openssl format (env.accepted input)).2

/-- A conversion fails with what the operating system reports and with nothing else. -/
theorem convertToPem_fst (env : Conversion) (format : String) (input : Bytes) (w : World) :
    (convertToPem env format input w).1 =
      match osError env with
      | some e => .error e
      | none => .ok (pem env format input) := by
  have hne : w.next ≠ w.next + 1 := Nat.ne_of_lt (Nat.lt_succ_self _)
  simp only [convertToPem, tempFile, wait, readFile, bind, osError]
  cases h₁ : env.tempIn with
  | some e => rfl
  | none =>
    cases h₂ : env.tempOut with
    | some e => rfl
    | none =>
      cases h₃ : env.start with
      | some e => rfl
      | none =>
        cases h₄ : env.readFile with
        | some e => rfl
        | none =>
          simp only [Go.fail, Go.defer, Go.act, World.tempFile, World.write, World.close,
            Option.or_none, Function.update_self, Function.update_of_ne hne, Option.map_some,
            Option.getD_some, pem]

theorem convertToPem_kept (env : Conversion) (format : String) (input : Bytes) (w : World) :
    (convertToPem env format input w).2.files = w.files ∧
      (convertToPem env format input w).2.written = w.written := by
  simp only [convertToPem, tempFile, wait, readFile, bind, Go.fail, Go.defer, Go.act,
    World.tempFile, World.write, World.close, World.remove]
  cases env.tempIn with
  | some e => exact ⟨rfl, rfl⟩
  | none =>
    cases env.tempOut with
    | some e => exact ⟨rfl, rfl⟩
    | none =>
      cases env.start with
      | some e => exact ⟨rfl, rfl⟩
      | none => cases env.readFile <;> exact ⟨rfl, rfl⟩

theorem convertToPem_ok (env : Conversion) (format : String) (input : Bytes)
    (h : osError env = none) :
    (convertToPem env format input).Yields (.ok (pem env format input)) [] where
  result w := by rw [convertToPem_fst, h]
  written w := by rw [(convertToPem_kept env format input w).2, List.append_nil]

theorem convertToPem_error (env : Conversion) (format : String) (input : Bytes)
    (h : osError env = some e) : (convertToPem env format input).Yields (.error e) [] where
  result w := by rw [convertToPem_fst, h]
  written w := by rw [(convertToPem_kept env format input w).2, List.append_nil]

structure WorkloadEntry where
  svid : Bytes
  svidPrivateKey : Bytes
  svidBundle : Bytes

structure Bundles where
  bundles : List WorkloadEntry
  ttl : Int

inductive Part where
  | svidPrivateKey
  | svid
  | svidBundle
  deriving DecidableEq

/-- What the operating system does in one `ioutil.WriteFile`: the file is not opened, or it is
truncated and the write or the close fails after some bytes, or it goes well. -/
structure Writing where
  openFile : Option GoError
  write : Option (Nat × GoError)

def Writing.writeError (env : Writing) : Option GoError := env.write.map Prod.snd

def Writing.content (env : Writing) (data : Bytes) : Bytes :=
  match env.write with
  | none => data
  | some (count, _) => data.take count

structure Environment where
  conversion : Nat → Part → Conversion
  writeKeystore : Nat → Writing
  writeCerts : Nat → Writing

def pkFilename (certDir : String) (index : Nat) : String :=
  certDir ++ "/" ++ index.repr ++ ".key"

def certFilename (certDir : String) (index : Nat) : String :=
  certDir ++ "/" ++ index.repr ++ ".cert"

def writeFile (env : Writing) (filename : String) (data : Bytes) : Go Unit := do
  Go.fail env.openFile
  Go.act (·.writeFile filename (env.content data))
  Go.fail env.writeError

/-- The body of the loop of `dumpBundles`. -/
def dumpBundle (env : Environment) (certDir : String) (index : Nat) (bundle : WorkloadEntry) :
    Go Unit := do
  let svidPrivateKey ←
    convertToPem (env.conversion index .svidPrivateKey) "ec" bundle.svidPrivateKey
  let svid ← convertToPem (env.conversion index .svid) "x509" bundle.svid
  writeFile (env.writeKeystore index) (pkFilename certDir index) (svidPrivateKey ++ svid)
  let svidBundle ← convertToPem (env.conversion index .svidBundle) "x509" bundle.svidBundle
  writeFile (env.writeCerts index) (certFilename certDir index) svidBundle

def dumpFrom (env : Environment) (certDir : String) : Nat → List WorkloadEntry → Go Unit
  | _, [] => pure ()
  | index, bundle :: bundles => do
    dumpBundle env certDir index bundle
    dumpFrom env certDir (index + 1) bundles

structure Dump where
  pk : String
  crt : String
  ttl : Int
  err : Option GoError

/-- The results of `dumpBundles`, where those not yet assigned at an error are zero values. -/
def dumpBundles (env : Environment) (certDir : String) (fetched : Except GoError Bundles)
    (w : World) : Dump × World :=
  match fetched with
  | .error e => (⟨"", "", 0, some e⟩, w)
  | .ok response =>
    if response.bundles.length = 0 then (⟨"", "", 0, some "Fetched zero bundles"⟩, w)
    else
      match dumpFrom env certDir 0 response.bundles w with
      | (.ok (), w) => (⟨pkFilename certDir 0, certFilename certDir 0, response.ttl, none⟩, w)
      | (.error e, w) => (⟨pkFilename certDir 0, certFilename certDir 0, response.ttl, some e⟩, w)

theorem dumpBundles_snd (env : Environment) (certDir : String) (response : Bundles)
    (w : World) :
    (dumpBundles env certDir (.ok response) w).2 =
      (dumpFrom env certDir 0 response.bundles w).2 := by
  rw [dumpBundles]
  split
  · next h =>
    rw [List.eq_nil_of_length_eq_zero h]
    rfl
  · cases dumpFrom env certDir 0 response.bundles w with
    | mk r w' => cases r <;> rfl

/-- What a round of the loop does after its first conversion. -/
def dumpRest (env : Environment) (certDir : String) (index : Nat) (bundle : WorkloadEntry)
    (svidPrivateKey : Bytes) : Go Unit := do
  let svid ← convertToPem (env.conversion index .svid) "x509" bundle.svid
  writeFile (env.writeKeystore index) (pkFilename certDir index) (svidPrivateKey ++ svid)
  let svidBundle ← convertToPem (env.conversion index .svidBundle) "x509" bundle.svidBundle
  writeFile (env.writeCerts index) (certFilename certDir index) svidBundle

theorem dumpBundle_eq (env : Environment) (certDir : String) (index : Nat)
    (bundle : WorkloadEntry) :
    dumpBundle env certDir index bundle =
      convertToPem (env.conversion index .svidPrivateKey) "ec" bundle.svidPrivateKey >>=
        dumpRest env certDir index bundle := rfl

/-- A preorder of machines along which each conversion and each write of a file goes. -/
structure Kept (R : World → World → Prop) : Prop where
  refl : ∀ w, R w w
  trans : ∀ {u v w}, R u v → R v w → R u w
  convertToPem : ∀ env format input, (convertToPem env format input).Takes R
  write : ∀ w filename data, R w (w.writeFile filename data)

theorem Kept.fail (h : Kept R) (err : Option GoError) : (Go.fail err).Takes R := by
  cases err with
  | none => exact h.refl
  | some e => exact h.refl

theorem Kept.writeFile (h : Kept R) (env : Writing) (filename : String) (data : Bytes) :
    (writeFile env filename data).Takes R := by
  have ha : (Go.act (·.writeFile filename (env.content data))).Takes R :=
    fun w => h.write w filename (env.content data)
  apply (h.fail env.openFile).bind h.trans
  intro _
  apply ha.bind h.trans
  intro _
  exact h.fail env.writeError

theorem Kept.dumpRest (h : Kept R) (env : Environment) (certDir : String) (index : Nat)
    (bundle : WorkloadEntry) (svidPrivateKey : Bytes) :
    (dumpRest env certDir index bundle svidPrivateKey).Takes R := by
  rw [Sidecar.dumpRest]
  apply (h.convertToPem _ _ _).bind h.trans
  intro svid
  apply (h.writeFile _ _ _).bind h.trans
  intro _
  apply (h.convertToPem _ _ _).bind h.trans
  intro svidBundle
  exact h.writeFile _ _ _

theorem Kept.dumpBundle (h : Kept R) (env : Environment) (certDir : String) (index : Nat)
    (bundle : WorkloadEntry) : (dumpBundle env certDir index bundle).Takes R := by
  rw [dumpBundle_eq]
  exact (h.convertToPem _ _ _).bind h.trans (h.dumpRest env certDir index bundle)

theorem Kept.dumpFrom (h : Kept R) (env : Environment) (certDir : String) (index : Nat)
    (bundles : List WorkloadEntry) : (dumpFrom env certDir index bundles).Takes R := by
  induction bundles generalizing index with
  | nil => exact h.refl
  | cons bundle bundles ih =>
    apply (h.dumpBundle env certDir index bundle).bind h.trans
    intro _
    exact ih (index + 1)

end Sidecar
end SpiffeExample
