import SpiffeExample.JsonRoundTrip
import SpiffeExample.JsonInteger

namespace GoJson
set_option autoImplicit true
open Json (Value parse render)

inductive UnmarshalError where
  | syntaxError
  | unmarshalTypeError (value : String)
  deriving DecidableEq

/-- A decoder fills a variable from a value. What does not fit is skipped, and the first error of
this kind is reported at the end. -/
abbrev Decoder (α : Type) := Value → α → α × Option UnmarshalError

/-- A slice that is not nil, with what its array holds after it. -/
structure Slice (α : Type) where
  elems : List α
  rest : List α

namespace Slice

def array : Option (Slice α) → List α
  | none => []
  | some x => x.elems ++ x.rest

def read (x : Option (Slice α)) : Option (List α) := x.map elems

def made (xs : Option (List α)) : Option (Slice α) := xs.map fun xs => ⟨xs, []⟩

theorem read_made (xs : Option (List α)) : read (made xs) = xs := by
  cases xs <;> rfl

end Slice

def typeError : Value → UnmarshalError
  | .null => .unmarshalTypeError "null"
  | .bool _ => .unmarshalTypeError "bool"
  | .number _ => .unmarshalTypeError "number"
  | .string _ => .unmarshalTypeError "string"
  | .array _ => .unmarshalTypeError "array"
  | .object _ => .unmarshalTypeError "object"

namespace Decoder

def string : Decoder String
  | .string s, _ => (s, none)
  | .null, x => (x, none)
  | v, x => (x, some (typeError v))

def int32 : Decoder Int32
  | .number n, x =>
    match Json.parseInt n.text with
    | some i =>
      if -2147483648 ≤ i ∧ i ≤ 2147483647 then (Int32.ofInt i, none)
      else (x, some (.unmarshalTypeError ("number " ++ String.ofList n.text)))
    | none => (x, some (.unmarshalTypeError ("number " ++ String.ofList n.text)))
  | .null, x => (x, none)
  | v, x => (x, some (typeError v))

/-- A pointer that is nil is first made to point to a new zero value. -/
def pointer (zero : α) (elem : Decoder α) : Decoder (Option α)
  | .null, _ => (none, none)
  | v, x => (some (elem v (x.getD zero)).1, (elem v (x.getD zero)).2)

/-- Each value goes into the element in its place, or into a zero one after the last. -/
def fill (zero : α) (elem : Decoder α) : List Value → List α → List α × Option UnmarshalError
  | [], _ => ([], none)
  | v :: vs, xs =>
    ((elem v (xs.head?.getD zero)).1 :: (fill zero elem vs xs.tail).1,
      (elem v (xs.head?.getD zero)).2.or (fill zero elem vs xs.tail).2)

/-- A slice that is there is decoded into, over what is left in its array from before it was cut;
only an empty one is made anew. -/
def slice (zero : α) (elem : Decoder α) : Decoder (Option (Slice α))
  | .null, _ => (none, none)
  | .array [], _ => (some ⟨[], []⟩, none)
  | .array (v :: vs), x =>
    (some ⟨(fill zero elem (v :: vs) (Slice.array x)).1, (Slice.array x).drop (vs.length + 1)⟩,
      (fill zero elem (v :: vs) (Slice.array x)).2)
  | v, x => (x, some (typeError v))

end Decoder

structure StructField (α : Type) where
  name : String
  decode : Decoder α

def StructField.of (name : String) (get : α → β) (set : β → α → α) (decode : Decoder β) :
    StructField α where
  name := name
  decode v x := (set (decode v (get x)).1 x, (decode v (get x)).2)

/-- The characters with one simple folding, over those of the field names. -/
def foldChar (c : Char) : Char :=
  if c = Char.ofNat 0x17F then 's'
  else if c = Char.ofNat 0x212A then 'k'
  else c.toLower

def equalFold (s t : String) : Bool := s.toList.map foldChar = t.toList.map foldChar

/-- The field of this name, or else the first whose name is the same but for case. -/
def findField (fields : List (StructField α)) (key : String) : Option (StructField α) :=
  (fields.find? fun f => f.name = key).or (fields.find? fun f => equalFold f.name key)

theorem findField_singleton (f : StructField α) (key : String) :
    findField [f] key = if equalFold f.name key then some f else none := by
  rw [findField, List.find?_singleton, List.find?_singleton]
  by_cases he : f.name = key
  · subst he
    have hr : equalFold f.name f.name = true := decide_eq_true rfl
    rw [hr]
    simp only [decide_true, if_true, Option.some_or]
  · simp only [he, decide_false, Bool.false_eq_true, if_false, Option.none_or]

namespace Decoder

def members (fields : List (StructField α)) :
    List (String × Value) → α → α × Option UnmarshalError
  | [], x => (x, none)
  | (key, v) :: ms, x =>
    match findField fields key with
    | none => members fields ms x
    | some f =>
      ((members fields ms (f.decode v x).1).1,
        (f.decode v x).2.or (members fields ms (f.decode v x).1).2)

def struct (fields : List (StructField α)) : Decoder α
  | .object ms, x => members fields ms x
  | .null, x => (x, none)
  | v, x => (x, some (typeError v))

end Decoder

/-- Nothing is decoded from a text that is not JSON as a whole. -/
def unmarshal (decode : Decoder α) (text : String) (x : α) : α × Option UnmarshalError :=
  match parse text.toList with
  | none => (x, some .syntaxError)
  | some v => decode v x

def marshal (v : Value) : String := String.ofList (render v)

def omitempty (name : String) (empty : Bool) (v : Value) : List (String × Value) :=
  if empty then [] else [(name, v)]

def encodePointer (encode : α → Value) : Option α → Value
  | none => .null
  | some x => encode x

/-- A slice as it comes back: an empty one is omitted, and stays nil. -/
def nilIfEmpty : Option (List α) → Option (List α)
  | some [] => none
  | xs => xs

theorem nilIfEmpty_ne {xs : Option (List α)} : nilIfEmpty xs ≠ some [] := by
  intro h
  cases xs with
  | none => cases h
  | some xs => cases xs <;> cases h

theorem nilIfEmpty_eq_self {xs : Option (List α)} : nilIfEmpty xs = xs ↔ xs ≠ some [] := by
  apply Iff.intro
  · intro h hs
    exact nilIfEmpty_ne (h.trans hs)
  · intro h
    cases xs with
    | none => rfl
    | some xs =>
      cases xs with
      | nil => exact absurd rfl h
      | cons x xs => rfl

def encodeSlice (encode : α → Value) : Option (List α) → Value
  | none => .null
  | some xs => .array (xs.map encode)

def encodeInt32 (i : Int32) : Value := .number (.ofInt i.toInt)

theorem unmarshal_marshal (decode : Decoder α) (v : Value) (x : α) :
    unmarshal decode (marshal v) x = decode v x := by
  rw [unmarshal, marshal, String.toList_ofList, Json.parse_render]

namespace Decoder

theorem int32_encode (i x : Int32) : int32 (encodeInt32 i) x = (i, none) := by
  have hr : -2147483648 ≤ i.toInt ∧ i.toInt ≤ 2147483647 :=
    ⟨i.le_toInt, Int.le_of_lt_add_one i.toInt_lt⟩
  have hp : Json.parseInt (Json.Number.ofInt i.toInt).text = some i.toInt :=
    Json.parseInt_intText i.toInt
  simp only [encodeInt32, int32, hp, if_pos hr, Int32.ofInt_toInt]

theorem pointer_some {elem : Decoder α} (hn : v ≠ .null)
    (hd : elem v (x.getD zero) = (y, none)) : pointer zero elem v x = (some y, none) := by
  rw [pointer.eq_2 _ _ _ _ hn, hd]

theorem pointer_eq_none {elem : Decoder α} (h : (pointer zero elem v x).1 = none) :
    v = .null := by
  cases v with
  | null => rfl
  | bool | number | string | array | object => cases h

theorem pointer_encode {decode : Decoder α} {encode : α → Value}
    (h : ∀ x, encode x ≠ .null ∧ decode (encode x) zero = (x, none)) (p : Option α) :
    pointer zero decode (encodePointer encode p) none = (p, none) := by
  cases p with
  | none => rfl
  | some x =>
    obtain ⟨hn, hd⟩ := h x
    exact pointer_some hn hd

theorem fill_encode {decode : Decoder α} {encode : α → Value}
    (h : ∀ x, decode (encode x) zero = (x, none)) (xs : List α) :
    fill zero decode (xs.map encode) [] = (xs, none) := by
  induction xs with
  | nil => rfl
  | cons x xs ih =>
    have hx : decode (encode x) (([] : List α).head?.getD zero) = (x, none) := h x
    rw [List.map_cons, fill, hx, List.tail_nil, ih]
    rfl

theorem slice_encode {decode : Decoder α} {encode : α → Value}
    (h : ∀ x, decode (encode x) zero = (x, none)) (xs : List α) :
    slice zero decode (.array (xs.map encode)) none = (some ⟨xs, []⟩, none) := by
  cases xs with
  | nil => rfl
  | cons x xs =>
    have hf := fill_encode h (x :: xs)
    rw [List.map_cons] at hf
    rw [List.map_cons, slice, Slice.array, hf, List.drop_nil]

theorem slice_encodeSlice {decode : Decoder α} {encode : α → Value}
    (h : ∀ x, decode (encode x) zero = (x, none)) (xs : Option (List α)) :
    slice zero decode (encodeSlice encode xs) none = (Slice.made xs, none) := by
  cases xs with
  | none => rfl
  | some xs => exact slice_encode h xs

theorem members_cons {fields : List (StructField α)} {f : StructField α}
    (hf : findField fields name = some f) (hd : f.decode v x = (y, none)) :
    members fields ((name, v) :: ms) x = members fields ms y := by
  simp only [members, hf, hd, Option.none_or]

theorem members_of {fields : List (StructField α)} {get : α → β} {set : β → α → α}
    {decode : Decoder β} (hf : findField fields name = some (.of name get set decode))
    (hd : decode v (get x) = (y, none)) :
    members fields ((name, v) :: ms) x = members fields ms (set y x) := by
  apply members_cons hf
  simp only [StructField.of, hd]

theorem members_omitempty {fields : List (StructField α)} {f : StructField α}
    (hf : findField fields name = some f)
    (he : empty = true → y = x) (hd : empty = false → f.decode v x = (y, none)) :
    members fields (omitempty name empty v ++ ms) x = members fields ms y := by
  cases empty with
  | true =>
    rw [he rfl]
    rfl
  | false => exact members_cons hf (hd rfl)

section
variable {fields : List (StructField α)} {x : α}

/-- A scalar field is omitted where it is zero, which is what it was before. -/
theorem members_scalar [DecidableEq β] {get : α → β} {set : β → α → α} {decode : Decoder β}
    {encode : β → Value} (hf : findField fields name = some (.of name get set decode))
    (h : ∀ y z, decode (encode y) z = (y, none)) (hz : set zero x = x) :
    members fields (omitempty name (y = zero) (encode y) ++ ms) x =
      members fields ms (set y x) := by
  apply members_omitempty hf
  · intro he
    rw [of_decide_eq_true he, hz]
  · intro _
    simp only [StructField.of, h]

theorem members_slice {decode : Decoder γ} {encode : γ → Value} {get : α → Option (Slice γ)}
    {set : Option (Slice γ) → α → α}
    (hf : findField fields name = some (.of name get set (.slice zero decode)))
    (h : ∀ y, decode (encode y) zero = (y, none)) (hg : get x = none) (hz : set none x = x) :
    members fields
        (omitempty name (xs.getD []).isEmpty (.array ((xs.getD []).map encode)) ++ ms) x =
      members fields ms (set (Slice.made (nilIfEmpty xs)) x) := by
  apply members_omitempty hf
  · intro he
    cases xs with
    | none => exact hz
    | some ys =>
      cases ys with
      | nil => exact hz
      | cons y ys => cases he
  · intro he
    simp only [StructField.of, hg, slice_encode h]
    cases xs with
    | none => cases he
    | some ys =>
      cases ys with
      | nil => cases he
      | cons y ys => rfl

end

end Decoder
end GoJson
