import Mathlib.Data.List.Basic

/-! URLs as the package net/url takes them apart, over the bytes of the text. -/

namespace GoUrl
set_option autoImplicit true

abbrev Bytes := List UInt8

def bytes (s : String) : Bytes := s.toList.flatMap String.utf8EncodeChar

abbrev hash : UInt8 := 35
abbrev percent : UInt8 := 37
abbrev slash : UInt8 := 47
abbrev colon : UInt8 := 58
abbrev question : UInt8 := 63

def unhex (c : UInt8) : Option UInt8 :=
  if 48 ≤ c ∧ c ≤ 57 then some (c - 48)
  else if 97 ≤ c ∧ c ≤ 102 then some (c - 87)
  else if 65 ≤ c ∧ c ≤ 70 then some (c - 55)
  else none

/-- Each `%` must start an escape of two hexadecimal digits; what does not is the error. -/
def unescape : Bytes → Except Bytes Bytes
  | [] => .ok []
  | c :: s =>
    if c = percent then
      match s with
      | hi :: lo :: rest =>
        match unhex hi, unhex lo with
        | some h, some l => (unescape rest).map ((h * 16 + l) :: ·)
        | _, _ => .error [c, hi, lo]
      | _ => .error (c :: s)
    else (unescape s).map (c :: ·)

/-- What stands before the first `c`, and after it. -/
def cut (c : UInt8) : Bytes → Bytes × Option Bytes
  | [] => ([], none)
  | d :: s => if d = c then ([], some s) else (d :: (cut c s).1, (cut c s).2)

/-- The path as it was written, and unescaped. -/
structure URL where
  scheme : Bytes
  host : Bytes
  rawPath : Bytes
  path : Bytes
  query : Option Bytes
  fragment : Bytes

structure ParseError where
  url : Bytes
  invalid : Bytes

/-- Of an absolute URL, whose scheme and host are not checked. Neither the query nor control
characters are, in the Go of this build. -/
def parse (rawurl : Bytes) : Except ParseError URL :=
  let (u, frag) := cut hash rawurl
  let (scheme, rest) := cut colon u
  let (rest, query) := cut question (rest.getD [])
  let (host, rest) := cut slash (rest.drop 2)
  let rawPath := (rest.map (slash :: ·)).getD []
  match unescape rawPath with
  | .error invalid => .error ⟨u, invalid⟩
  | .ok path =>
    match unescape (frag.getD []) with
    | .error invalid => .error ⟨rawurl, invalid⟩
    | .ok fragment => .ok ⟨scheme, host, rawPath, path, query, fragment⟩

theorem bytes_append (s t : String) : bytes (s ++ t) = bytes s ++ bytes t := by
  rw [bytes, String.toList_append, List.flatMap_append]
  rfl

theorem bytes_injective : Function.Injective bytes := by
  intro s t h
  have hb : s.toList.utf8Encode = t.toList.utf8Encode := congrArg List.toByteArray h
  rw [String.utf8Encode_toList, String.utf8Encode_toList] at hb
  exact String.toByteArray_inj.1 hb

theorem cut_of_not_mem (h : c ∉ s) : cut c s = (s, none) := by
  induction s with
  | nil => rfl
  | cons d s ih =>
    have hd : d ≠ c := fun he => h (he ▸ List.mem_cons_self)
    rw [cut, if_neg hd, ih fun hm => h (List.mem_cons_of_mem _ hm)]

theorem cut_append (h : c ∉ s) (t : Bytes) : cut c (s ++ t) = (s ++ (cut c t).1, (cut c t).2) := by
  induction s with
  | nil => rfl
  | cons d s ih =>
    have hd : d ≠ c := fun he => h (he ▸ List.mem_cons_self)
    rw [List.cons_append, cut, if_neg hd, ih fun hm => h (List.mem_cons_of_mem _ hm)]
    rfl

theorem cut_cons_self (c : UInt8) (s : Bytes) : cut c (c :: s) = ([], some s) := if_pos rfl

theorem cut_length_le (c : UInt8) (s : Bytes) : (cut c s).1.length ≤ s.length := by
  induction s with
  | nil => exact Nat.le_refl _
  | cons d s ih =>
    rw [cut]
    by_cases hd : d = c
    · rw [if_pos hd]
      exact Nat.zero_le _
    · rw [if_neg hd]
      exact Nat.succ_le_succ ih

/-- What is cut at a byte that it has gets shorter. -/
theorem not_mem_of_length_cut (h : s.length ≤ (cut c s).1.length) : c ∉ s := by
  induction s with
  | nil => exact List.not_mem_nil
  | cons d s ih =>
    rw [cut] at h
    by_cases hd : d = c
    · rw [if_pos hd] at h
      exact absurd h (Nat.not_succ_le_zero _)
    · rw [if_neg hd] at h
      intro hm
      rcases List.mem_cons.1 hm with he | hm
      · exact hd he.symm
      · exact ih (Nat.le_of_succ_le_succ h) hm

theorem unescape_cons_of_ne (h : c ≠ percent) :
    unescape (c :: s) = (unescape s).map (c :: ·) := by
  rw [unescape.eq_def]
  exact if_neg h

theorem unescape_of_not_mem (h : percent ∉ s) : unescape s = .ok s := by
  induction s with
  | nil => rfl
  | cons c s ih =>
    have hc : c ≠ percent := fun he => h (he ▸ List.mem_cons_self)
    rw [unescape_cons_of_ne hc, ih fun hm => h (List.mem_cons_of_mem _ hm)]
    rfl

theorem map_ok {f : Bytes → Bytes} {r : Except Bytes Bytes} (h : r.map f = .ok t) :
    ∃ s, r = .ok s ∧ f s = t := by
  cases r with
  | error e => cases h
  | ok s => exact ⟨s, rfl, Except.ok.inj h⟩

/-- An escape is three bytes for one, so only what has none keeps its length. -/
theorem unescape_length (h : unescape s = .ok t) :
    t.length ≤ s.length ∧ (s.length ≤ t.length → percent ∉ s) := by
  fun_induction unescape s generalizing t with
  | case1 =>
    cases h
    exact ⟨Nat.le_refl _, fun _ => List.not_mem_nil⟩
  | case2 hi lo rest hh hl x y ih =>
    obtain ⟨u, hu, rfl⟩ := map_ok h
    obtain ⟨hle, _⟩ := ih hu
    simp only [List.length_cons]
    exact ⟨by omega, fun _ => by omega⟩
  | case3 => cases h
  | case4 => cases h
  | case5 c s hc ih =>
    obtain ⟨u, hu, rfl⟩ := map_ok h
    obtain ⟨hle, hn⟩ := ih hu
    refine ⟨Nat.succ_le_succ hle, fun hl hm => ?_⟩
    rcases List.mem_cons.1 hm with he | hm
    · exact hc he.symm
    · exact hn (Nat.le_of_succ_le_succ hl) hm

/-- A scheme and a host that the parts after them do not run into. -/
structure Authority (scheme host : Bytes) : Prop where
  scheme_hash : hash ∉ scheme
  scheme_colon : colon ∉ scheme
  host_hash : hash ∉ host
  host_question : question ∉ host
  host_slash : slash ∉ host

def absolute (scheme host p : Bytes) : Bytes :=
  scheme ++ colon :: slash :: slash :: (host ++ slash :: p)

/-- None of the bytes that mean something else in a path. -/
structure Plain (p : Bytes) : Prop where
  percent : percent ∉ p
  question : question ∉ p
  hash : hash ∉ p

section
variable {scheme host p : Bytes}

theorem cut_hash_absolute (ha : Authority scheme host) : cut hash (absolute scheme host p) =
    (absolute scheme host (cut hash p).1, (cut hash p).2) := by
  have hs : hash ∉ colon :: slash :: slash :: (host ++ [slash]) := by
    simp [ha.host_hash, hash, colon, slash]
  have he : ∀ q, absolute scheme host q =
      scheme ++ ((colon :: slash :: slash :: (host ++ [slash])) ++ q) := by
    intro q
    simp [absolute]
  rw [he, cut_append ha.scheme_hash, cut_append hs, he]

/-- Where the parts of an absolute URL are found. -/
theorem parse_absolute (ha : Authority scheme host) : parse (absolute scheme host p) =
    match unescape (slash :: (cut question (cut hash p).1).1) with
    | .error invalid => .error ⟨absolute scheme host (cut hash p).1, invalid⟩
    | .ok path =>
      match unescape ((cut hash p).2.getD []) with
      | .error invalid => .error ⟨absolute scheme host p, invalid⟩
      | .ok fragment => .ok ⟨scheme, host, slash :: (cut question (cut hash p).1).1, path,
          (cut question (cut hash p).1).2, fragment⟩ := by
  have hq : question ∉ slash :: slash :: (host ++ [slash]) := by
    simp [ha.host_question, question, slash]
  have he : ∀ q, slash :: slash :: (host ++ slash :: q) =
      (slash :: slash :: (host ++ [slash])) ++ q := by
    intro q
    simp
  have hc : ∀ q, cut colon (absolute scheme host q) =
      (scheme, some (slash :: slash :: (host ++ slash :: q))) := by
    intro q
    rw [absolute, cut_append ha.scheme_colon, cut_cons_self, List.append_nil]
  have hh : ∀ q, cut slash (host ++ slash :: q) = (host, some q) := by
    intro q
    rw [cut_append ha.host_slash, cut_cons_self, List.append_nil]
  simp only [parse, cut_hash_absolute ha, hc, Option.getD_some]
  rw [he, cut_append hq, ← he]
  simp only [List.drop_succ_cons, List.drop_zero, hh, Option.map_some, Option.getD_some]

/-- A plain path is taken as it is. -/
theorem parse_of_plain (ha : Authority scheme host) (hp : Plain p) :
    parse (absolute scheme host p) =
      .ok ⟨scheme, host, slash :: p, slash :: p, none, []⟩ := by
  have hu : unescape (slash :: p) = .ok (slash :: p) := by
    apply unescape_of_not_mem
    simp [hp.percent, percent, slash]
  rw [parse_absolute ha, cut_of_not_mem hp.hash]
  dsimp only
  rw [cut_of_not_mem hp.question, hu]
  rfl

/-- The path only is what was written where that is plain. -/
theorem plain_of_parse (ha : Authority scheme host)
    (h : parse (absolute scheme host p) = .ok url) (hpath : url.path = slash :: p) : Plain p := by
  rw [parse_absolute ha] at h
  cases hu : unescape (slash :: (cut question (cut hash p).1).1) with
  | error invalid =>
    rw [hu] at h
    cases h
  | ok path =>
    rw [hu] at h
    dsimp only at h
    cases hf : unescape ((cut hash p).2.getD []) with
    | error invalid =>
      rw [hf] at h
      cases h
    | ok fragment =>
      rw [hf] at h
      cases h
      dsimp only at hpath
      subst hpath
      obtain ⟨hle, hn⟩ := unescape_length hu
      simp only [List.length_cons] at hle hn
      have hq := cut_length_le question (cut hash p).1
      have hh := cut_length_le hash p
      have hhash : hash ∉ p := not_mem_of_length_cut (by omega)
      rw [cut_of_not_mem hhash] at hle hn hq
      dsimp only at hle hn hq
      have hquestion : question ∉ p := not_mem_of_length_cut (by omega)
      rw [cut_of_not_mem hquestion] at hn
      have hpercent := hn (Nat.le_refl _)
      exact ⟨fun hm => hpercent (List.mem_cons_of_mem _ hm), hquestion, hhash⟩

end
end GoUrl
