import SpiffeExample.Json

namespace Json
set_option autoImplicit true

def digits (n : Nat) : List Char := Nat.toDigits 10 n

def intText (i : Int) : List Char :=
  if i < 0 then '-' :: digits i.natAbs else digits i.natAbs

def parseDigits (ds : List Char) : Option Nat :=
  if ds.all Char.isDigit && !ds.isEmpty then some (Nat.ofDigitChars 10 ds 0) else none

/-- An integer in base ten; a literal with a fraction or an exponent is none. -/
def parseInt : List Char → Option Int
  | '-' :: ds => (parseDigits ds).map fun n : Nat => -(n : Int)
  | ds => (parseDigits ds).map fun n : Nat => (n : Int)

theorem digits_lt_ten (h : n < 10) : digits n = [n.digitChar] :=
  Nat.toDigits_of_lt_base h

theorem digits_ten_le (h : 10 ≤ n) : digits n = digits (n / 10) ++ [(n % 10).digitChar] := by
  have hm : n % 10 < 10 := Nat.mod_lt _ (Nat.zero_lt_succ _)
  have ha := @Nat.toDigits_append_toDigits 10 (n / 10) (n % 10) (by omega) (by omega) hm
  rw [Nat.div_add_mod, Nat.toDigits_of_lt_base hm] at ha
  exact ha.symm

theorem isDigit_digits (h : c ∈ digits n) : c.isDigit = true :=
  Nat.isDigit_of_mem_toDigits (Nat.zero_lt_succ _) (Nat.le_refl _) h

theorem parseDigits_digits (n : Nat) : parseDigits (digits n) = some n := by
  have hd : (digits n).all Char.isDigit = true := by
    rw [List.all_eq_true]
    exact fun c hc => isDigit_digits hc
  have hn : (digits n).isEmpty = false := by
    rw [List.isEmpty_eq_false_iff]
    exact Nat.toDigits_ne_nil
  rw [parseDigits, hd, hn]
  exact congrArg some Nat.ofDigitChars_ten_toDigits

theorem isDigit_digitChar (h : d < 10) : d.digitChar.isDigit = true := by
  apply isDigit_digits (n := d)
  rw [digits_lt_ten h]
  exact List.mem_singleton.2 rfl

/-- The digits of a number have no zero before them. -/
theorem NumberState.scan_digits {st : NumberState} (hs : st = .start ∨ st = .neg) (hn : n ≠ 0) :
    st.scan (digits n) = some .int := by
  induction n using Nat.strongRecOn with
  | ind n ih =>
    by_cases h : n < 10
    · have hall : ∀ d : Fin 10, d.val ≠ 0 → NumberState.start.scan [d.val.digitChar] = some .int ∧
          NumberState.neg.scan [d.val.digitChar] = some .int := by decide
      rw [digits_lt_ten h]
      rcases hs with rfl | rfl
      · exact (hall ⟨n, h⟩ hn).1
      · exact (hall ⟨n, h⟩ hn).2
    · have hd := isDigit_digitChar (Nat.mod_lt n (Nat.zero_lt_succ 9))
      rw [digits_ten_le (by omega), scan_append, ih (n / 10) (by omega) (by omega),
        Option.bind_some, scan, step, if_pos hd]
      rfl

def Number.ofInt (i : Int) : Number where
  text := intText i
  state := if i = 0 then .zero else .int
  scanned := by
    by_cases h : i = 0
    · subst h
      rfl
    · rw [if_neg h, intText]
      split
      · exact NumberState.scan_digits (.inr rfl) (Int.natAbs_ne_zero.2 h)
      · exact NumberState.scan_digits (.inl rfl) (Int.natAbs_ne_zero.2 h)
  accepting := by split <;> rfl

theorem parseInt_intText (i : Int) : parseInt (intText i) = some i := by
  rw [intText]
  split
  · next h =>
    have hi : -(i.natAbs : Int) = i := by omega
    rw [parseInt, parseDigits_digits, Option.map_some, hi]
  · next h =>
    have hi : (i.natAbs : Int) = i := by omega
    unfold parseInt
    split
    · next ds he =>
      have hm : '-' ∈ digits i.natAbs := by
        rw [he]
        exact List.mem_cons_self
      cases isDigit_digits hm
    · rw [parseDigits_digits, Option.map_some, hi]

end Json
