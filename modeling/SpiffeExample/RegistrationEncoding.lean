import SpiffeExample.Registration

namespace SpiffeExample.Registration
set_option autoImplicit true
open Json (Value)
open GoJson

theorem Selector.decode_encode (x : Selector) :
    Decoder.struct fields (encode x) zero = (x, none) := by
  apply (Decoder.members_scalar rfl (fun _ _ => rfl) rfl).trans
  exact (Decoder.members_scalar rfl (fun _ _ => rfl) rfl).trans rfl

theorem selectors_decode_encode (p : Option Selector) :
    Decoder.pointer Selector.zero (.struct Selector.fields)
      (encodePointer Selector.encode p) none = (p, none) :=
  Decoder.pointer_encode (fun x => ⟨Value.noConfusion, x.decode_encode⟩) p

namespace RegistrationEntry

def onWire (x : RegistrationEntry) : RegistrationEntry :=
  { x with selectors := nilIfEmpty x.selectors, fbSpiffeIds := nilIfEmpty x.fbSpiffeIds }

/-- The slices are new, with nothing behind them. -/
def Target.made (x : RegistrationEntry) : Target :=
  ⟨Slice.made x.selectors, x.parentId, x.spiffeId, x.ttl, Slice.made x.fbSpiffeIds⟩

theorem Target.read_made (x : RegistrationEntry) : (made x).read = x := by
  rw [read, made, Slice.read_made, Slice.read_made]

theorem decode_encode (x : RegistrationEntry) :
    Decoder.struct Target.fields (encode x) .zero = (.made x.onWire, none) := by
  apply (Decoder.members_slice rfl selectors_decode_encode rfl rfl).trans
  apply (Decoder.members_scalar rfl (fun _ _ => rfl) rfl).trans
  apply (Decoder.members_scalar rfl (fun _ _ => rfl) rfl).trans
  apply (Decoder.members_scalar rfl Decoder.int32_encode rfl).trans
  exact (Decoder.members_slice rfl (fun _ => rfl) rfl rfl).trans rfl

/-- With every field in place, nil and empty slices are told apart. -/
def encodeExact (x : RegistrationEntry) : Value := .object [
  ("selectors", encodeSlice (encodePointer Selector.encode) x.selectors),
  ("parent_id", .string x.parentId),
  ("spiffe_id", .string x.spiffeId),
  ("ttl", encodeInt32 x.ttl),
  ("fb_spiffe_ids", encodeSlice .string x.fbSpiffeIds)]

theorem decode_encodeExact (x : RegistrationEntry) :
    Decoder.struct Target.fields (encodeExact x) .zero = (.made x, none) := by
  rw [encodeExact, Decoder.struct]
  have hs := Decoder.slice_encodeSlice selectors_decode_encode x.selectors
  apply (Decoder.members_of rfl hs).trans
  apply (Decoder.members_of rfl rfl).trans
  apply (Decoder.members_of rfl rfl).trans
  apply (Decoder.members_of rfl (Decoder.int32_encode _ _)).trans
  exact (Decoder.members_of rfl (Decoder.slice_encodeSlice (fun _ => rfl) _)).trans rfl

end RegistrationEntry

theorem decodeEntry_marshal {v : Value} (hn : v ≠ .null)
    (hd : Decoder.struct RegistrationEntry.Target.fields v .zero = (.made x, none)) :
    decodeEntry (marshal v) = .ok (some x) := by
  rw [decodeEntry, unmarshal_marshal, Decoder.pointer_some hn hd]
  dsimp only
  rw [Option.map_some, RegistrationEntry.Target.read_made]

def RegistrationEntryID.encode (x : RegistrationEntryID) : Value :=
  .object [omitempty "id" (x.id = "") (.string x.id)].flatten

theorem decodeID_marshal (id : String) :
    decodeID (marshal (RegistrationEntryID.encode ⟨id⟩)) = .ok id := by
  have hd : Decoder.struct RegistrationEntryID.fields (RegistrationEntryID.encode ⟨id⟩) ⟨""⟩ =
      (⟨id⟩, none) := (Decoder.members_scalar rfl (fun _ _ => rfl) rfl).trans rfl
  rw [decodeID, unmarshal_marshal, Decoder.pointer_some Value.noConfusion hd]

end SpiffeExample.Registration
