import SpiffeExample.GoJson
import SpiffeExample.GoUrl

namespace SpiffeExample.Registration
set_option autoImplicit true
open Json (Value)
open GoJson

structure Selector where
  type : String
  value : String
  deriving DecidableEq

/-- Pointers and slices that may be nil are options. -/
structure RegistrationEntry where
  selectors : Option (List (Option Selector))
  parentId : String
  spiffeId : String
  ttl : Int32
  fbSpiffeIds : Option (List String)
  deriving DecidableEq

structure RegistrationEntries where
  entries : Option (List (Option RegistrationEntry))

structure RegistrationEntryID where
  id : String

namespace Selector

def zero : Selector := ⟨"", ""⟩

def fields : List (StructField Selector) := [
  .of "type" Selector.type (fun type x => { x with type := type }) .string,
  .of "value" Selector.value (fun value x => { x with value := value }) .string]

def encode (x : Selector) : Value := .object [
  omitempty "type" (x.type = "") (.string x.type),
  omitempty "value" (x.value = "") (.string x.value)].flatten

end Selector

namespace RegistrationEntry

/-- An entry that is decoded into, with the arrays of its slices. -/
structure Target where
  selectors : Option (Slice (Option Selector))
  parentId : String
  spiffeId : String
  ttl : Int32
  fbSpiffeIds : Option (Slice String)

namespace Target

def zero : Target := ⟨none, "", "", 0, none⟩

def fields : List (StructField Target) := [
  .of "selectors" selectors (fun selectors x => { x with selectors := selectors })
    (.slice none (.pointer Selector.zero (.struct Selector.fields))),
  .of "parent_id" parentId (fun parentId x => { x with parentId := parentId }) .string,
  .of "spiffe_id" spiffeId (fun spiffeId x => { x with spiffeId := spiffeId }) .string,
  .of "ttl" ttl (fun ttl x => { x with ttl := ttl }) .int32,
  .of "fb_spiffe_ids" fbSpiffeIds (fun fbSpiffeIds x => { x with fbSpiffeIds := fbSpiffeIds })
    (.slice "" .string)]

def read (x : Target) : RegistrationEntry :=
  ⟨Slice.read x.selectors, x.parentId, x.spiffeId, x.ttl, Slice.read x.fbSpiffeIds⟩

end Target

def zero : RegistrationEntry := ⟨none, "", "", 0, none⟩

def encode (x : RegistrationEntry) : Value := .object [
  omitempty "selectors" (x.selectors.getD []).isEmpty
    (.array ((x.selectors.getD []).map (encodePointer Selector.encode))),
  omitempty "parent_id" (x.parentId = "") (.string x.parentId),
  omitempty "spiffe_id" (x.spiffeId = "") (.string x.spiffeId),
  omitempty "ttl" (x.ttl = 0) (encodeInt32 x.ttl),
  omitempty "fb_spiffe_ids" (x.fbSpiffeIds.getD []).isEmpty
    (.array ((x.fbSpiffeIds.getD []).map .string))].flatten

end RegistrationEntry

namespace RegistrationEntries

structure Target where
  entries : Option (Slice (Option RegistrationEntry.Target))

namespace Target

def zero : Target := ⟨none⟩

def fields : List (StructField Target) := [
  .of "entries" entries (fun entries _ => ⟨entries⟩)
    (.slice none (.pointer .zero (.struct RegistrationEntry.Target.fields)))]

def read (x : Target) : RegistrationEntries :=
  ⟨(Slice.read x.entries).map (List.map (Option.map RegistrationEntry.Target.read))⟩

end Target
end RegistrationEntries

def RegistrationEntryID.fields : List (StructField RegistrationEntryID) := [
  .of "id" RegistrationEntryID.id (fun id _ => ⟨id⟩) .string]

abbrev HttpError := String

inductive Method where
  | get
  | post

structure Request where
  method : Method
  url : GoUrl.URL
  contentType : String
  body : String

/-- What becomes of a request until its response is read, whatever the status. -/
abbrev Server (σ : Type) := σ → Request → Except HttpError String × σ

abbrev Exchange := Request × Except HttpError String

/-- The server, with the exchanges and the output of the tool so far. -/
structure Tool (σ : Type) where
  server : σ
  exchanges : List Exchange
  printed : List String

namespace Tool

def printf (w : Tool σ) (line : String) : Tool σ := { w with printed := w.printed ++ [line] }

def exchange (srv : Server σ) (req : Request) (w : Tool σ) : Except HttpError String × Tool σ :=
  ((srv w.server req).1, { w with
    server := (srv w.server req).2
    exchanges := w.exchanges ++ [(req, (srv w.server req).1)] })

end Tool

def entryURL : String := "http://spire:8080/entry"

@[irreducible] def newRequest (method : Method) (url body : String) :
    Except GoUrl.ParseError Request :=
  (GoUrl.parse (GoUrl.bytes url)).map fun url => ⟨method, url, "application/json", body⟩

/-- Errors that are returned, and the panic at a nil pointer. -/
inductive Failure where
  | url (err : GoUrl.ParseError)
  | http (err : HttpError)
  | json (err : UnmarshalError)
  | nilDereference

/-- Where the response has no `id`, the ID is empty. -/
def decodeID (respStr : String) : Except Failure String :=
  match unmarshal (.pointer ⟨""⟩ (.struct RegistrationEntryID.fields)) respStr (some ⟨""⟩) with
  | (_, some err) => .error (.json err)
  | (none, none) => .error .nilDereference
  | (some registeredEntryID, none) => .ok registeredEntryID.id

def decodeEntry (respStr : String) : Except Failure (Option RegistrationEntry) :=
  match unmarshal (.pointer .zero (.struct RegistrationEntry.Target.fields)) respStr none with
  | (_, some err) => .error (.json err)
  | (fetchedRegisteredEntry, none) =>
    .ok (fetchedRegisteredEntry.map RegistrationEntry.Target.read)

def reqStr (registeredEntry : Option RegistrationEntry) : String :=
  marshal (encodePointer RegistrationEntry.encode registeredEntry)

def createRequest (registeredEntry : Option RegistrationEntry) :
    Except GoUrl.ParseError Request :=
  newRequest .post entryURL (reqStr registeredEntry)

def fetchRequest (entityID : String) : Except GoUrl.ParseError Request :=
  newRequest .get (entryURL ++ "/" ++ entityID) ""

/-- What `createEntry` and `validateEntry` both do: the request is logged, made and sent, and the
response, when there is one, is logged and decoded. -/
def invoke (srv : Server σ) (req : Except GoUrl.ParseError Request) (invoking returned : String)
    (decode : String → Except Failure α) (w : Tool σ) : Except Failure α × Tool σ :=
  match req with
  | .error err => (.error (.url err), w.printf invoking)
  | .ok req =>
    match (w.printf invoking).exchange srv req with
    | (.error err, w) => (.error (.http err), w)
    | (.ok respStr, w) => (decode respStr, w.printf (returned ++ respStr ++ "\n"))

def createEntry (srv : Server σ) (registeredEntry : Option RegistrationEntry) (w : Tool σ) :
    Except Failure String × Tool σ :=
  invoke srv (createRequest registeredEntry)
    ("Invoking CreateEntry: " ++ reqStr registeredEntry ++ "\n")
    "CreateEntry returned: " decodeID w

/-- Deep equality tells a nil slice from an empty one, as the equality of options does. -/
def deepEqual (x y : Option RegistrationEntry) : Bool := x = y

def validateEntry (srv : Server σ) (entityID : String) (registeredEntry : Option RegistrationEntry)
    (w : Tool σ) : Except Failure Bool × Tool σ :=
  invoke srv (fetchRequest entityID) ("Invoking FetchEntry: " ++ entityID ++ "\n")
    "FetchEntry returned: "
    (fun respStr => (decodeEntry respStr).map fun fetched => deepEqual fetched registeredEntry) w

inductive Outcome where
  | returned
  | panicked
  deriving DecidableEq

/-- The loop of `main`, with what comes after it. -/
def registerFrom (srv : Server σ) :
    Nat → List (Option RegistrationEntry) → Tool σ → Outcome × Tool σ
  | _, [], w => (.returned, w.printf "All OK!\n")
  | index, registeredEntry :: entries, w =>
    match createEntry srv registeredEntry
        (w.printf ("Creating entry #" ++ (index + 1).repr ++ "...\n")) with
    | (.error _, w) => (.panicked, w)
    | (.ok entityID, w) =>
      match validateEntry srv entityID registeredEntry w with
      | (.error _, w) => (.panicked, w)
      | (.ok true, w) =>
        registerFrom srv (index + 1) entries
          (w.printf ("Fetched entity " ++ entityID ++ " is OK!\n\n"))
      | (.ok false, w) =>
        (.returned, w.printf ("Fetched entity " ++ entityID ++ " mismatch! Aborting...\n"))

def decodeFile (dat : String) : Option RegistrationEntries × Option UnmarshalError :=
  let (entries, err) :=
    unmarshal (.pointer .zero (.struct RegistrationEntries.Target.fields)) dat (some .zero)
  (entries.map RegistrationEntries.Target.read, err)

/-- The error of the decoding is dropped. -/
def main (srv : Server σ) (file : Except String String) (server : σ) : Outcome × Tool σ :=
  match file with
  | .error _ => (.panicked, ⟨server, [], []⟩)
  | .ok dat =>
    match (decodeFile dat).1 with
    | none => (.panicked, ⟨server, [], []⟩)
    | some entries => registerFrom srv 0 (entries.entries.getD []) ⟨server, [], []⟩

end SpiffeExample.Registration
