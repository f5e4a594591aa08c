import Mathlib.Data.List.Basic

namespace Json
set_option autoImplicit true

/-- How much of a number literal has been read. -/
inductive NumberState where
  | start
  | neg
  | zero
  | int
  | dot
  | frac
  | exp
  | expSign
  | expDigits
  deriving DecidableEq

namespace NumberState

def step (st : NumberState) (c : Char) : Option NumberState :=
  match st with
  | .start =>
    if c = '-' then some .neg
    else if c = '0' then some .zero
    else if c.isDigit then some .int
    else none
  | .neg => if c = '0' then some .zero else if c.isDigit then some .int else none
  | .zero => if c = '.' then some .dot else if c = 'e' ∨ c = 'E' then some .exp else none
  | .int =>
    if c.isDigit then some .int
    else if c = '.' then some .dot
    else if c = 'e' ∨ c = 'E' then some .exp
    else none
  | .dot => if c.isDigit then some .frac else none
  | .frac => if c.isDigit then some .frac else if c = 'e' ∨ c = 'E' then some .exp else none
  | .exp => if c = '+' ∨ c = '-' then some .expSign else if c.isDigit then some .expDigits else none
  | .expSign => if c.isDigit then some .expDigits else none
  | .expDigits => if c.isDigit then some .expDigits else none

def scan (st : NumberState) : List Char → Option NumberState
  | [] => some st
  | c :: cs => (st.step c).bind fun st => st.scan cs

def accepting : NumberState → Bool
  | .zero | .int | .frac | .expDigits => true
  | .start | .neg | .dot | .exp | .expSign => false

theorem scan_append {st : NumberState} :
    st.scan (cs ++ cs') = (st.scan cs).bind fun st => st.scan cs' := by
  induction cs generalizing st with
  | nil => rfl
  | cons c cs ih =>
    rw [List.cons_append, scan, scan]
    cases st.step c with
    | none => rfl
    | some st' => exact ih

end NumberState

/-- The beginning of a number literal, with where it has got to. -/
structure Numeral where
  text : List Char
  state : NumberState
  scanned : NumberState.start.scan text = some state

def Numeral.empty : Numeral := ⟨[], .start, rfl⟩

def Numeral.push (n : Numeral) (c : Char) : Option Numeral :=
  match h : n.state.step c with
  | none => none
  | some st => some {
      text := n.text ++ [c]
      state := st
      scanned := by
        rw [NumberState.scan_append, n.scanned, Option.bind_some, NumberState.scan, h]
        rfl }

structure Number extends Numeral where
  accepting : state.accepting = true

/-- The values of JSON. A number is its literal, and an object has its members in order, also
where a key occurs twice. -/
inductive Value where
  | null
  | bool (b : Bool)
  | number (n : Number)
  | string (s : String)
  | array (elems : List Value)
  | object (members : List (String × Value))

/-- What a string literal is made of: characters, and code units of `\u` escapes. -/
inductive Piece where
  | char (c : Char)
  | code (n : Nat)

def isHighSurrogate (n : Nat) : Bool := 0xD800 ≤ n && n < 0xDC00

def isLowSurrogate (n : Nat) : Bool := 0xDC00 ≤ n && n < 0xE000

/-- A pair of surrogates is one character, and a surrogate alone is replaced. -/
def unquote : List Piece → List Char
  | [] => []
  | .char c :: ps => c :: unquote ps
  | .code m :: .code n :: ps =>
    if isHighSurrogate m && isLowSurrogate n then
      Char.ofNat ((m - 0xD800) * 0x400 + (n - 0xDC00) + 0x10000) :: unquote ps
    else
      (if isHighSurrogate m || isLowSurrogate m then Char.ofNat 0xFFFD else Char.ofNat m) ::
        unquote (.code n :: ps)
  | .code m :: ps =>
    (if isHighSurrogate m || isLowSurrogate m then Char.ofNat 0xFFFD else Char.ofNat m) ::
      unquote ps

def isSpace (c : Char) : Bool := c = ' ' || c = '\t' || c = '\r' || c = '\n'

def hexVal (c : Char) : Option Nat :=
  if '0' ≤ c ∧ c ≤ '9' then some (c.toNat - '0'.toNat)
  else if 'a' ≤ c ∧ c ≤ 'f' then some (c.toNat - 'a'.toNat + 10)
  else if 'A' ≤ c ∧ c ≤ 'F' then some (c.toNat - 'A'.toNat + 10)
  else none

def escaped (c : Char) : Option Char :=
  match c with
  | '"' => some '"'
  | '\\' => some '\\'
  | '/' => some '/'
  | 'b' => some (Char.ofNat 8)
  | 'f' => some (Char.ofNat 12)
  | 'n' => some '\n'
  | 'r' => some '\r'
  | 't' => some '\t'
  | _ => none

/-- A container that is being read, with what has been read of it. -/
inductive Frame where
  | arrayValue (elems : List Value)
  | objectKey (members : List (String × Value))
  | objectValue (members : List (String × Value)) (key : String)

inductive Mode where
  | beginValue
  | beginValueOrEmpty
  | beginString
  | beginStringOrEmpty
  | inString (pieces : List Piece)
  | inStringEsc (pieces : List Piece)
  | inStringEscU (pieces : List Piece) (code left : Nat)
  | literal (next : Char) (rest : List Char) (v : Value)
  | number (n : Numeral)
  | endValue (v : Value)

/-- A scanner reads a text character by character and keeps the containers it is in. -/
structure Scanner where
  stack : List Frame
  mode : Mode

namespace Scanner

def beginValue (stack : List Frame) (c : Char) : Option Scanner :=
  match c with
  | '{' => some ⟨.objectKey [] :: stack, .beginStringOrEmpty⟩
  | '[' => some ⟨.arrayValue [] :: stack, .beginValueOrEmpty⟩
  | '"' => some ⟨stack, .inString []⟩
  | 't' => some ⟨stack, .literal 'r' ['u', 'e'] (.bool true)⟩
  | 'f' => some ⟨stack, .literal 'a' ['l', 's', 'e'] (.bool false)⟩
  | 'n' => some ⟨stack, .literal 'u' ['l', 'l'] .null⟩
  | c =>
    if isSpace c then some ⟨stack, .beginValue⟩
    else (Numeral.empty.push c).map fun n => ⟨stack, .number n⟩

def beginString (stack : List Frame) (c : Char) : Option Scanner :=
  if isSpace c then some ⟨stack, .beginString⟩
  else if c = '"' then some ⟨stack, .inString []⟩
  else none

def endValue (stack : List Frame) (v : Value) (c : Char) : Option Scanner :=
  if isSpace c then some ⟨stack, .endValue v⟩
  else
    match stack with
    | [] => none
    | .objectKey members :: stack =>
      match v with
      | .string key =>
        if c = ':' then some ⟨.objectValue members key :: stack, .beginValue⟩ else none
      | _ => none
    | .objectValue members key :: stack =>
      if c = ',' then some ⟨.objectKey (members ++ [(key, v)]) :: stack, .beginString⟩
      else if c = '}' then some ⟨stack, .endValue (.object (members ++ [(key, v)]))⟩
      else none
    | .arrayValue elems :: stack =>
      if c = ',' then some ⟨.arrayValue (elems ++ [v]) :: stack, .beginValue⟩
      else if c = ']' then some ⟨stack, .endValue (.array (elems ++ [v]))⟩
      else none

def step (s : Scanner) (c : Char) : Option Scanner :=
  match s.mode with
  | .beginValue => beginValue s.stack c
  | .beginValueOrEmpty =>
    if isSpace c then some s
    else
      match s.stack with
      | .arrayValue elems :: stack =>
        if c = ']' then some ⟨stack, .endValue (.array elems)⟩ else beginValue s.stack c
      | _ => none
  | .beginString => beginString s.stack c
  | .beginStringOrEmpty =>
    if isSpace c then some s
    else
      match s.stack with
      | .objectKey members :: stack =>
        if c = '}' then some ⟨stack, .endValue (.object members)⟩ else beginString s.stack c
      | _ => none
  | .inString pieces =>
    if c = '"' then some ⟨s.stack, .endValue (.string (String.ofList (unquote pieces)))⟩
    else if c = '\\' then some ⟨s.stack, .inStringEsc pieces⟩
    else if c < ' ' then none
    else some ⟨s.stack, .inString (pieces ++ [.char c])⟩
  | .inStringEsc pieces =>
    if c = 'u' then some ⟨s.stack, .inStringEscU pieces 0 3⟩
    else (escaped c).map fun c => ⟨s.stack, .inString (pieces ++ [.char c])⟩
  | .inStringEscU pieces code left =>
    (hexVal c).map fun digit =>
      match left with
      | 0 => ⟨s.stack, .inString (pieces ++ [.code (code * 16 + digit)])⟩
      | left + 1 => ⟨s.stack, .inStringEscU pieces (code * 16 + digit) left⟩
  | .literal next rest v =>
    if c = next then
      match rest with
      | [] => some ⟨s.stack, .endValue v⟩
      | next :: rest => some ⟨s.stack, .literal next rest v⟩
    else none
  | .number n =>
    match n.push c with
    | some n => some ⟨s.stack, .number n⟩
    | none =>
      if h : n.state.accepting = true then endValue s.stack (.number ⟨n, h⟩) c
      else none
  | .endValue v => endValue s.stack v c

def run (s : Scanner) : List Char → Option Scanner
  | [] => some s
  | c :: cs => (s.step c).bind fun s => s.run cs

theorem run_cons {s t : Scanner} (h : s.step c = some t) : s.run (c :: cs) = t.run cs := by
  rw [run, h, Option.bind_some]

end Scanner

/-- At the end of the text one more space is read, which ends a number. The characters of the text
are those the decoder sees, with U+FFFD for a byte that is not UTF-8. -/
def parse (text : List Char) : Option Value :=
  match Scanner.run ⟨[], .beginValue⟩ (text ++ [' ']) with
  | some ⟨[], .endValue v⟩ => some v
  | _ => none

def unicodeEscape (n : Nat) : List Char :=
  ['\\', 'u', (n / 4096 % 16).digitChar, (n / 256 % 16).digitChar, (n / 16 % 16).digitChar,
    (n % 16).digitChar]

def shorthand (c : Char) : Option Char :=
  match c with
  | '"' => some '"'
  | '\\' => some '\\'
  | '\n' => some 'n'
  | '\r' => some 'r'
  | '\t' => some 't'
  | _ => none

def isUnsafe (c : Char) : Bool :=
  c < ' ' || c = '<' || c = '>' || c = '&' || c = Char.ofNat 0x2028 || c = Char.ofNat 0x2029

def quoteChar (c : Char) : List Char :=
  match shorthand c with
  | some d => ['\\', d]
  | none => if isUnsafe c then unicodeEscape c.toNat else [c]

def quote (s : String) : List Char := '"' :: (s.toList.flatMap quoteChar ++ ['"'])

mutual

/-- Without blanks, and with what HTML gives a meaning escaped in strings. -/
def render : Value → List Char
  | .null => ['n', 'u', 'l', 'l']
  | .bool true => ['t', 'r', 'u', 'e']
  | .bool false => ['f', 'a', 'l', 's', 'e']
  | .number n => n.text
  | .string s => quote s
  | .array [] => ['[', ']']
  | .array (v :: vs) => '[' :: (render v ++ renderElems vs)
  | .object [] => ['{', '}']
  | .object ((key, v) :: members) =>
    '{' :: (quote key ++ ':' :: (render v ++ renderMembers members))

def renderElems : List Value → List Char
  | [] => [']']
  | v :: vs => ',' :: (render v ++ renderElems vs)

def renderMembers : List (String × Value) → List Char
  | [] => ['}']
  | (key, v) :: members => ',' :: (quote key ++ ':' :: (render v ++ renderMembers members))

end

end Json
