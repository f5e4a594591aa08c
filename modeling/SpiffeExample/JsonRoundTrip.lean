import SpiffeExample.Json

namespace Json
set_option autoImplicit true

/-- What comes after a value. -/
def Ends (c : Char) : Prop := c = ',' ∨ c = ']' ∨ c = '}' ∨ c = ' '

/-- No number literal goes on with a character that comes after a value. -/
theorem Ends.step (h : Ends c) (st : NumberState) : st.step c = none := by
  rcases h with rfl | rfl | rfl | rfl <;> cases st <;> rfl

namespace Numeral

theorem ext_text {m n : Numeral} (h : m.text = n.text) : m = n := by
  cases m with
  | mk text state scanned =>
    cases n with
    | mk text' state' scanned' =>
      cases h
      cases Option.some.inj (scanned.symm.trans scanned')
      rfl

theorem push_eq_none {n : Numeral} (h : n.state.step c = none) : n.push c = none := by
  rw [push]
  split
  · rfl
  · next st hs => cases h.symm.trans hs

theorem push_text {n : Numeral} (h : n.state.step c = some st) :
    ∃ m, n.push c = some m ∧ m.text = n.text ++ [c] := by
  rw [push]
  split
  · next hs => cases h.symm.trans hs
  · exact ⟨_, rfl, rfl⟩

end Numeral

namespace Scanner

variable {fs : List Frame}

theorem run_numeral {m n : Numeral} (h : m.text = n.text ++ cs) :
    run ⟨fs, .number n⟩ (cs ++ rest) = run ⟨fs, .number m⟩ rest := by
  induction cs generalizing n with
  | nil =>
    rw [List.append_nil] at h
    rw [Numeral.ext_text h]
    rfl
  | cons c cs ih =>
    have hs := m.scanned
    rw [h, NumberState.scan_append, n.scanned, Option.bind_some, NumberState.scan] at hs
    obtain ⟨st, hst, _⟩ := Option.bind_eq_some_iff.1 hs
    obtain ⟨n', hp, ht⟩ := Numeral.push_text hst
    have hstep : step ⟨fs, .number n⟩ c = some ⟨fs, .number n'⟩ := by
      simp only [step, hp]
    rw [List.cons_append, run_cons hstep]
    apply ih
    rw [h, ht, List.append_assoc]
    rfl

theorem run_endNumber (n : Number) (hc : Ends c) :
    run ⟨fs, .number n.toNumeral⟩ (c :: rest) = run ⟨fs, .endValue (.number n)⟩ (c :: rest) := by
  have hp := Numeral.push_eq_none (hc.step n.state)
  have hs : step ⟨fs, .number n.toNumeral⟩ c = step ⟨fs, .endValue (.number n)⟩ c := by
    simp only [step, hp, n.accepting, dite_true]
  rw [run, run, hs]

end Scanner

/-- What the quoted character is read as. -/
def piece (c : Char) : Piece :=
  if shorthand c = none ∧ isUnsafe c then .code c.toNat else .char c

theorem not_surrogate (c : Char) :
    isHighSurrogate c.toNat = false ∧ isLowSurrogate c.toNat = false := by
  have hv : c.toNat < 0xD800 ∨ 0xDFFF < c.toNat ∧ c.toNat < 0x110000 := c.valid
  simp only [isHighSurrogate, isLowSurrogate, Bool.and_eq_false_iff, decide_eq_false_iff_not]
  omega

theorem unquote_code (c : Char) : unquote (.code c.toNat :: ps) = c :: unquote ps := by
  obtain ⟨hh, hl⟩ := not_surrogate c
  cases ps with
  | nil =>
    simp only [unquote, hh, hl, Bool.or_false, Bool.false_eq_true, if_false, Char.ofNat_toNat]
  | cons p ps =>
    cases p <;>
      simp only [unquote, hh, hl, Bool.or_false, Bool.false_and, Bool.false_eq_true, if_false,
        Char.ofNat_toNat]

theorem unquote_map (cs : List Char) : unquote (cs.map piece) = cs := by
  induction cs with
  | nil => rfl
  | cons c cs ih =>
    rw [List.map_cons, piece]
    split
    · rw [unquote_code, ih]
    · rw [unquote, ih]

theorem hexVal_digitChar (h : d < 16) : hexVal d.digitChar = some d := by
  have hall : ∀ d : Fin 16, hexVal d.val.digitChar = some d.val := by decide
  exact hall ⟨d, h⟩

namespace Scanner

variable {fs : List Frame}

theorem run_unicodeEscape (h : n < 65536) :
    run ⟨fs, .inString ps⟩ (unicodeEscape n ++ rest) =
      run ⟨fs, .inString (ps ++ [.code n])⟩ rest := by
  have hd (k : Nat) : hexVal (k % 16).digitChar = some (k % 16) :=
    hexVal_digitChar (Nat.mod_lt _ (Nat.zero_lt_succ _))
  have he : (((0 * 16 + n / 4096 % 16) * 16 + n / 256 % 16) * 16 + n / 16 % 16) * 16 +
      n % 16 = n := by omega
  rw [unicodeEscape]
  simp only [List.cons_append, List.nil_append]
  rw [run_cons (t := ⟨fs, .inStringEsc ps⟩) rfl, run_cons (t := ⟨fs, .inStringEscU ps 0 3⟩) rfl]
  simp only [run, step, hd, Option.map_some, Option.bind_some, he]

theorem run_shorthand (h : shorthand c = some d) :
    run ⟨fs, .inString ps⟩ ('\\' :: d :: rest) =
      run ⟨fs, .inString (ps ++ [.char c])⟩ rest := by
  have hd : escaped d = some c ∧ d ≠ 'u' := by
    unfold shorthand at h
    split at h <;> cases h <;> decide
  rw [run_cons (t := ⟨fs, .inStringEsc ps⟩) rfl]
  apply run_cons
  simp only [step, hd.1, if_neg hd.2, Option.map_some]

theorem run_plain (hs : shorthand c = none) (hu : isUnsafe c = false) :
    run ⟨fs, .inString ps⟩ (c :: rest) = run ⟨fs, .inString (ps ++ [.char c])⟩ rest := by
  have hq : c ≠ '"' := by
    intro h
    subst h
    cases hs
  have hb : c ≠ '\\' := by
    intro h
    subst h
    cases hs
  simp only [isUnsafe, Bool.or_eq_false_iff, decide_eq_false_iff_not] at hu
  apply run_cons
  simp only [step, if_neg hq, if_neg hb, if_neg hu.1.1.1.1.1]

theorem isUnsafe_lt (h : isUnsafe c = true) : c.toNat < 65536 := by
  simp only [isUnsafe, Bool.or_eq_true, decide_eq_true_eq] at h
  rcases h with ((((h | rfl) | rfl) | rfl) | rfl) | rfl
  · exact Nat.lt_trans (UInt32.lt_iff_toNat_lt.1 h) (by decide)
  all_goals decide

/-- A quoted character is read back as one piece. -/
theorem run_quoteChar (c : Char) :
    run ⟨fs, .inString ps⟩ (quoteChar c ++ rest) =
      run ⟨fs, .inString (ps ++ [piece c])⟩ rest := by
  rw [quoteChar, piece]
  cases hs : shorthand c with
  | some d =>
    simp only [reduceCtorEq, false_and, if_false]
    exact run_shorthand hs
  | none =>
    cases hu : isUnsafe c with
    | true =>
      simp only [true_and, if_true]
      exact run_unicodeEscape (isUnsafe_lt hu)
    | false =>
      simp only [Bool.false_eq_true, and_false, if_false]
      exact run_plain hs hu

theorem run_quoteChars (cs : List Char) :
    run ⟨fs, .inString ps⟩ (cs.flatMap quoteChar ++ rest) =
      run ⟨fs, .inString (ps ++ cs.map piece)⟩ rest := by
  induction cs generalizing ps with
  | nil => rw [List.map_nil, List.append_nil, List.flatMap_nil, List.nil_append]
  | cons c cs ih =>
    rw [List.flatMap_cons, List.append_assoc, run_quoteChar, ih, List.append_assoc, List.map_cons]
    rfl

theorem run_quote (s : String) (h : step ⟨fs, m⟩ '"' = some ⟨fs, .inString []⟩) :
    run ⟨fs, m⟩ (quote s ++ rest) = run ⟨fs, .endValue (.string s)⟩ rest := by
  have he : step ⟨fs, .inString (s.toList.map piece)⟩ '"' = some ⟨fs, .endValue (.string s)⟩ := by
    simp only [step, if_true, unquote_map, String.ofList_toList]
  rw [quote, List.cons_append, run_cons h, List.append_assoc, run_quoteChars, List.nil_append,
    List.singleton_append, run_cons he]

end Scanner

theorem NumberState.start_step_ne (h : NumberState.start.step c = some st)
    (hd : NumberState.start.step d = none) : c ≠ d := by
  intro he
  subst he
  cases h.symm.trans hd

theorem NumberState.start_step_isSpace (h : NumberState.start.step c = some st) :
    isSpace c = false := by
  simp only [isSpace, Bool.or_eq_false_iff, decide_eq_false_iff_not]
  exact ⟨⟨⟨start_step_ne h rfl, start_step_ne h rfl⟩, start_step_ne h rfl⟩, start_step_ne h rfl⟩

/-- A literal begins with a character that begins a number. -/
theorem Number.text_cons (n : Number) :
    ∃ c cs st, n.text = c :: cs ∧ NumberState.start.step c = some st := by
  have hs := n.scanned
  cases ht : n.text with
  | nil =>
    rw [ht] at hs
    have ha := n.accepting
    rw [← Option.some.inj hs] at ha
    cases ha
  | cons c cs =>
    rw [ht, NumberState.scan] at hs
    obtain ⟨st, hst, _⟩ := Option.bind_eq_some_iff.1 hs
    exact ⟨c, cs, st, rfl, hst⟩

namespace Scanner

variable {fs : List Frame}

theorem beginValue_number (h : NumberState.start.step c = some st) :
    beginValue fs c = (Numeral.empty.push c).map fun n => ⟨fs, .number n⟩ := by
  have hs := NumberState.start_step_isSpace h
  unfold beginValue
  split
  iterate 6 cases h
  rw [hs]
  rfl

theorem run_number (n : Number) (hc : Ends c) :
    run ⟨fs, .beginValue⟩ (n.text ++ c :: rest) =
      run ⟨fs, .endValue (.number n)⟩ (c :: rest) := by
  obtain ⟨d, ds, st, ht, hst⟩ := n.text_cons
  obtain ⟨m, hp, hm⟩ := Numeral.push_text (n := Numeral.empty) hst
  have hs : step ⟨fs, .beginValue⟩ d = some ⟨fs, .number m⟩ := by
    simp only [step, beginValue_number hst, hp, Option.map_some]
  rw [ht, List.cons_append, run_cons hs, run_numeral (m := n.toNumeral), run_endNumber n hc]
  rw [ht, hm]
  rfl

end Scanner

/-- A rendered value is not empty, and a container that holds it does not end there. -/
theorem render_cons (v : Value) :
    ∃ c cs, render v = c :: cs ∧ isSpace c = false ∧ c ≠ ']' := by
  cases v with
  | null => exact ⟨_, _, rfl, rfl, by decide⟩
  | bool b => cases b <;> exact ⟨_, _, rfl, rfl, by decide⟩
  | number n =>
    obtain ⟨c, cs, st, ht, hst⟩ := n.text_cons
    exact ⟨c, cs, ht, NumberState.start_step_isSpace hst, NumberState.start_step_ne hst rfl⟩
  | string s => exact ⟨_, _, rfl, rfl, by decide⟩
  | array elems => cases elems <;> exact ⟨_, _, rfl, rfl, by decide⟩
  | object members => cases members <;> exact ⟨_, _, rfl, rfl, by decide⟩

theorem renderElems_cons (vs : List Value) : ∃ c cs, renderElems vs = c :: cs ∧ Ends c := by
  cases vs with
  | nil => exact ⟨_, _, rfl, .inr (.inl rfl)⟩
  | cons v vs => exact ⟨_, _, rfl, .inl rfl⟩

theorem renderMembers_cons (members : List (String × Value)) :
    ∃ c cs, renderMembers members = c :: cs ∧ Ends c := by
  cases members with
  | nil => exact ⟨_, _, rfl, .inr (.inr (.inl rfl))⟩
  | cons m members => exact ⟨_, _, rfl, .inl rfl⟩

namespace Scanner

variable {fs : List Frame}

theorem run_firstElem (v : Value) :
    run ⟨.arrayValue elems :: fs, .beginValueOrEmpty⟩ (render v ++ rest) =
      run ⟨.arrayValue elems :: fs, .beginValue⟩ (render v ++ rest) := by
  obtain ⟨c, cs, hr, hs, hc⟩ := render_cons v
  rw [hr, List.cons_append, run, run]
  simp only [step, hs, Bool.false_eq_true, if_false, if_neg hc]

theorem run_key (key : String) (h : m = .beginString ∨ m = .beginStringOrEmpty) :
    run ⟨.objectKey members :: fs, m⟩ (quote key ++ ':' :: rest) =
      run ⟨.objectValue members key :: fs, .beginValue⟩ rest := by
  have hq : step ⟨.objectKey members :: fs, m⟩ '"' =
      some ⟨.objectKey members :: fs, .inString []⟩ := by
    rcases h with rfl | rfl <;> rfl
  rw [run_quote key hq]
  exact run_cons rfl

mutual

theorem run_render (fs : List Frame) (v : Value) (hc : Ends c) :
    run ⟨fs, .beginValue⟩ (render v ++ c :: rest) = run ⟨fs, .endValue v⟩ (c :: rest) := by
  cases v with
  | null => rfl
  | bool b => cases b <;> rfl
  | number n => exact run_number n hc
  | string s => exact run_quote s rfl
  | array elems =>
    cases elems with
    | nil => rfl
    | cons v vs =>
      obtain ⟨d, ds, hr, hd⟩ := renderElems_cons vs
      have he := run_renderElems fs [] v vs (c :: rest)
      rw [hr] at he
      rw [render, List.cons_append, List.append_assoc,
        run_cons (t := ⟨.arrayValue [] :: fs, .beginValueOrEmpty⟩) rfl, run_firstElem, hr,
        List.cons_append, run_render _ v hd]
      exact he
  | object members =>
    cases members with
    | nil => rfl
    | cons m members =>
      obtain ⟨d, ds, hr, hd⟩ := renderMembers_cons members
      have he := run_renderMembers fs [] m.1 m.2 members (c :: rest)
      rw [hr] at he
      rw [render, List.cons_append, List.append_assoc, List.cons_append, List.append_assoc,
        run_cons (t := ⟨.objectKey [] :: fs, .beginStringOrEmpty⟩) rfl, run_key m.1 (.inr rfl), hr,
        List.cons_append, run_render _ m.2 hd]
      exact he

theorem run_renderElems (fs : List Frame) (elems : List Value) (v : Value) (vs : List Value)
    (rest : List Char) :
    run ⟨.arrayValue elems :: fs, .endValue v⟩ (renderElems vs ++ rest) =
      run ⟨fs, .endValue (.array (elems ++ v :: vs))⟩ rest := by
  cases vs with
  | nil => exact run_cons rfl
  | cons v' vs =>
    obtain ⟨d, ds, hr, hd⟩ := renderElems_cons vs
    have he := run_renderElems fs (elems ++ [v]) v' vs rest
    rw [hr, List.append_assoc] at he
    rw [renderElems, List.cons_append, List.append_assoc,
      run_cons (t := ⟨.arrayValue (elems ++ [v]) :: fs, .beginValue⟩) rfl, hr, List.cons_append,
      run_render _ v' hd]
    exact he

theorem run_renderMembers (fs : List Frame) (members : List (String × Value)) (key : String)
    (v : Value) (ms : List (String × Value)) (rest : List Char) :
    run ⟨.objectValue members key :: fs, .endValue v⟩ (renderMembers ms ++ rest) =
      run ⟨fs, .endValue (.object (members ++ (key, v) :: ms))⟩ rest := by
  cases ms with
  | nil => exact run_cons rfl
  | cons m ms =>
    obtain ⟨d, ds, hr, hd⟩ := renderMembers_cons ms
    have he := run_renderMembers fs (members ++ [(key, v)]) m.1 m.2 ms rest
    rw [hr, List.append_assoc] at he
    rw [renderMembers, List.cons_append, List.append_assoc, List.cons_append, List.append_assoc,
      run_cons (t := ⟨.objectKey (members ++ [(key, v)]) :: fs, .beginString⟩) rfl,
      run_key m.1 (.inl rfl), hr, List.cons_append, run_render _ m.2 hd]
    exact he

end

end Scanner

/-- Every value is read back from its text. -/
theorem parse_render (v : Value) : parse (render v) = some v := by
  have he : Ends ' ' := .inr (.inr (.inr rfl))
  rw [parse, Scanner.run_render [] v he]
  rfl

end Json
