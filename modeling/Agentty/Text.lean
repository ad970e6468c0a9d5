/-
Text as the source's `&str` methods see it, on lists of characters.

Only the operations the modelled functions call are here. Each one is
structurally recursive, so that a run of the model on concrete text evaluates.
-/
import Mathlib.Data.List.Basic
import Mathlib.Data.List.TakeWhile

set_option autoImplicit false

namespace Agentty.Text

open List

/-- The Unicode `White_Space` property, which is what `char::is_whitespace`
tests. -/
def is_whitespace (c : Char) : Bool :=
  let n := c.toNat
  (9 ≤ n && n ≤ 13) || n == 0x20 || n == 0x85 || n == 0xA0 || n == 0x1680
    || (0x2000 ≤ n && n ≤ 0x200A) || n == 0x2028 || n == 0x2029 || n == 0x202F
    || n == 0x205F || n == 0x3000

def is_ascii_punctuation (c : Char) : Bool :=
  let n := c.toNat
  (33 ≤ n && n ≤ 47) || (58 ≤ n && n ≤ 64) || (91 ≤ n && n ≤ 96) || (123 ≤ n && n ≤ 126)

def trim_start (s : List Char) : List Char := s.dropWhile is_whitespace

/-- `str::trim_end_matches` for one character class. -/
def trim_end_matches (p : Char → Bool) (s : List Char) : List Char :=
  (s.reverse.dropWhile p).reverse

def trim (s : List Char) : List Char := trim_end_matches is_whitespace (trim_start s)

/-- `str::split_once`: around the first occurrence of a pattern. -/
def split_once (pat : List Char) : List Char → Option (List Char × List Char)
  | [] => if pat = [] then some ([], []) else none
  | c :: cs =>
    if pat.isPrefixOf (c :: cs) then some ([], (c :: cs).drop pat.length)
    else (split_once pat cs).map fun parts => (c :: parts.1, parts.2)

/-- `str::rsplit_once`: around the last occurrence of a pattern. -/
def rsplit_once (pat : List Char) : List Char → Option (List Char × List Char)
  | [] => if pat = [] then some ([], []) else none
  | c :: cs =>
    match rsplit_once pat cs with
    | some parts => some (c :: parts.1, parts.2)
    | none =>
      if pat.isPrefixOf (c :: cs) then some ([], (c :: cs).drop pat.length) else none

/-- `str::trim_start_matches` for a pattern of two characters. -/
def trim_start_pair (a b : Char) : List Char → List Char
  | x :: y :: rest => if x = a ∧ y = b then trim_start_pair a b rest else x :: y :: rest
  | rest => rest

def strip_prefix (pat s : List Char) : Option (List Char) :=
  if pat.isPrefixOf s then some (s.drop pat.length) else none

def strip_suffix (pat s : List Char) : Option (List Char) :=
  if pat.isSuffixOf s then some (s.take (s.length - pat.length)) else none

/-- `str::replace` of two characters by one. -/
def replace_pair (a b c : Char) : List Char → List Char
  | x :: y :: rest =>
    if x = a ∧ y = b then c :: replace_pair a b c rest else x :: replace_pair a b c (y :: rest)
  | rest => rest

/-- `str::replace` of one character. -/
def replace_char (a : Char) (rep s : List Char) : List Char :=
  s.flatMap fun c => if c = a then rep else [c]

/-- `usize::from_str`: digits, perhaps after a plus sign, up to a bound. -/
def parse_nat (limit : Nat) (s : List Char) : Option Nat :=
  let digits := match s with
    | '+' :: rest => rest
    | _ => s
  if digits = [] ∨ digits.any (fun c => !c.isDigit) then none
  else
    let n := Nat.ofDigitChars 10 digits 0
    if n ≤ limit then some n else none

/-- UTF-8. -/
def utf8 (s : List Char) : List UInt8 := s.flatMap String.utf8EncodeChar

def from_utf8 (bytes : List UInt8) : Option (List Char) :=
  bytes.toByteArray.utf8Decode?.map Array.toList

/-- Take at most `limit` characters and mark a cut with an ellipsis. -/
def bounded (limit : Nat) (s : List Char) : List Char :=
  if s.length ≤ limit then s else s.take limit ++ ['…']

/-! ## What the operations do -/

theorem strip_prefix_append (pat s : List Char) : strip_prefix pat (pat ++ s) = some s := by
  unfold strip_prefix
  simp

variable {c x : Char} {pat s a b : List Char}

theorem trim_start_append (hc : is_whitespace c = false) (s t : List Char) :
    trim_start (s ++ c :: t) = trim_start s ++ c :: t := by
  unfold trim_start
  induction s with
  | nil => simp [hc]
  | cons d s ih => by_cases hd : is_whitespace d = true <;> simp [hd, ih]

theorem trim_eq_nil : trim s = [] ↔ ∀ c ∈ s, is_whitespace c = true := by
  simp only [trim, trim_end_matches, trim_start, reverse_eq_nil_iff,
    dropWhile_eq_nil_iff, mem_reverse]
  constructor
  · intro h c hc
    rw [← takeWhile_append_dropWhile (p := is_whitespace) (l := s)] at hc
    rcases mem_append.mp hc with hc | hc
    · exact mem_takeWhile_imp hc
    · exact h c hc
  · exact fun h c hc => h c ((dropWhile_sublist _).subset hc)

/-- A stretch without the first character of the pattern is passed over, -/
theorem split_once_skip (h : x ∉ a) (s : List Char) :
    split_once (x :: pat) (a ++ s)
      = (split_once (x :: pat) s).map fun parts => (a ++ parts.1, parts.2) := by
  induction a with
  | nil => simp
  | cons c a ih =>
    obtain ⟨hc, ha⟩ := not_or.mp (mt mem_cons.mpr h)
    rw [cons_append, split_once, ih ha]
    simp [isPrefixOf, hc, Function.comp_def]

/-- and the pattern itself is found. -/
theorem split_once_here (h : pat ≠ []) (s : List Char) :
    split_once pat (pat ++ s) = some ([], s) := by
  cases pat with
  | nil => exact absurd rfl h
  | cons c pat => simp [split_once]

theorem split_once_eq_none (h : x ∉ a) : split_once (x :: pat) a = none := by
  have hskip : split_once (x :: pat) (a ++ []) = _ := split_once_skip h []
  rw [append_nil] at hskip
  rw [hskip]
  simp [split_once]

/-- The parts are around an occurrence, and there is none before it. -/
theorem split_once_some (hne : pat ≠ []) (h : split_once pat s = some (a, b)) :
    s = a ++ pat ++ b ∧ ¬ pat <:+: a := by
  induction s generalizing a with
  | nil => simp [split_once, hne] at h
  | cons c s ih =>
    rw [split_once] at h
    split at h
    · next hprefix =>
      obtain ⟨rest, hrest⟩ := isPrefixOf_iff_prefix.mp hprefix
      cases h
      simp [← hrest, hne]
    · next hprefix =>
      obtain ⟨⟨a', b'⟩, hsplit, heq⟩ := Option.map_eq_some_iff.mp h
      cases heq
      obtain ⟨rfl, hinfix⟩ := ih hsplit
      refine ⟨rfl, fun hmem => ?_⟩
      rcases infix_cons_iff.mp hmem with hmem | hmem
      · have hnot := mt isPrefixOf_iff_prefix.mpr hprefix
        exact hnot (hmem.trans ⟨pat ++ b', by simp⟩)
      · exact hinfix hmem

/-- Text without the first of the two characters stays as it is. -/
theorem replace_pair_of_not_mem {a b : Char} (h : a ∉ s) : replace_pair a b c s = s := by
  induction s using replace_pair.induct (a := a) (b := b) with
  | case1 x y rest hxy ih => exact absurd (hxy.1 ▸ mem_cons_self) h
  | case2 x y rest hxy ih =>
    rw [replace_pair, if_neg hxy, ih fun hmem => h (mem_cons_of_mem _ hmem)]
  | case3 rest hrest =>
    unfold replace_pair
    split
    · exact absurd rfl (hrest _ _ _)
    · rfl

theorem parse_nat_toDigits {limit n : Nat} (h : n ≤ limit) :
    parse_nat limit (Nat.toDigits 10 n) = some n := by
  have hdigit : ∀ c ∈ Nat.toDigits 10 n, c.isDigit = true :=
    fun c hc => Nat.isDigit_of_mem_toDigits (by omega) (by omega) hc
  have hplus : (match Nat.toDigits 10 n with
      | '+' :: rest => rest
      | _ => Nat.toDigits 10 n) = Nat.toDigits 10 n := by
    split
    · next rest heq =>
      have := hdigit '+' (heq ▸ mem_cons_self)
      cases this
    · rfl
  unfold parse_nat
  simp only [hplus, Nat.ofDigitChars_ten_toDigits, h, if_true]
  rw [if_neg]
  rintro (hnil | hany)
  · exact Nat.toDigits_ne_nil hnil
  · obtain ⟨c, hc, hnot⟩ := any_eq_true.mp hany
    simp [hdigit c hc] at hnot

theorem utf8_append (s t : List Char) : utf8 (s ++ t) = utf8 s ++ utf8 t := flatMap_append

theorem utf8_of_from_utf8 {bytes : List UInt8} (h : from_utf8 bytes = some s) : bytes = utf8 s := by
  obtain ⟨chars, hchars, rfl⟩ := Option.map_eq_some_iff.mp h
  have hsome : bytes.toByteArray.utf8Decode?.isSome = true := by rw [hchars]; rfl
  have hencode := ByteArray.utf8Encode_get_utf8Decode? (h := hsome)
  simp only [hchars, Option.get_some] at hencode
  have hlist := congrArg (fun b => b.data.toList) hencode
  have hutf8 : chars.toList.utf8Encode = (utf8 chars.toList).toByteArray := rfl
  rw [hutf8] at hlist
  simpa using hlist.symm

/-! ## Positions in bytes -/

/-- `str::len`. -/
def str_len (s : List Char) : Nat := (utf8 s).length

/-- `str::split_at_checked`: there is no result if the position is not a boundary of
characters. -/
def split_at_checked : Nat → List Char → Option (List Char × List Char)
  | 0, s => some ([], s)
  | _ + 1, [] => none
  | n + 1, c :: s =>
    if c.utf8Size ≤ n + 1 then
      (split_at_checked (n + 1 - c.utf8Size) s).map fun parts => (c :: parts.1, parts.2)
    else none

/-- The last boundary of characters up to a position. -/
def floor_char_boundary (s : List Char) : Nat → Nat
  | 0 => 0
  | n + 1 => if (split_at_checked (n + 1) s).isSome then n + 1 else floor_char_boundary s n

/-- `str::rfind` of a character. -/
def rfind (c : Char) : List Char → Option Nat
  | [] => none
  | d :: s =>
    match rfind c s with
    | some i => some (d.utf8Size + i)
    | none => if d = c then some 0 else none

@[simp] theorem str_len_nil : str_len [] = 0 := rfl

@[simp] theorem str_len_cons (c : Char) (s : List Char) :
    str_len (c :: s) = c.utf8Size + str_len s := by
  simp [str_len, utf8]

@[simp] theorem str_len_append (s t : List Char) : str_len (s ++ t) = str_len s + str_len t := by
  rw [str_len, utf8_append, length_append, str_len, str_len]

@[simp] theorem str_len_eq_zero : str_len s = 0 ↔ s = [] := by
  cases s with
  | nil => simp
  | cons c s =>
    have hpos := c.utf8Size_pos
    simp
    omega

theorem split_at_checked_append (s t : List Char) :
    split_at_checked (str_len s) (s ++ t) = some (s, t) := by
  induction s with
  | nil => exact split_at_checked.eq_1 t
  | cons c s ih =>
    obtain ⟨n, hn⟩ := Nat.exists_eq_succ_of_ne_zero (Nat.pos_iff_ne_zero.mp c.utf8Size_pos)
    rw [str_len_cons, cons_append, hn, Nat.succ_add, split_at_checked, if_pos (by omega)]
    rw [show n + str_len s + 1 - c.utf8Size = str_len s by omega, ih]
    rfl

theorem split_at_checked_some {n : Nat} (h : split_at_checked n s = some (a, b)) :
    s = a ++ b ∧ str_len a = n := by
  fun_induction split_at_checked n s generalizing a b with
  | case1 s =>
    cases h
    exact ⟨rfl, rfl⟩
  | case2 | case4 => cases h
  | case3 n c s hsize ih =>
    obtain ⟨⟨a', b'⟩, hcut, heq⟩ := Option.map_eq_some_iff.mp h
    cases heq
    obtain ⟨rfl, hlen⟩ := ih hcut
    refine ⟨rfl, ?_⟩
    rw [str_len_cons, hlen]
    omega

/-- No boundary up to the position is beyond the last one. -/
theorem floor_char_boundary_spec (s : List Char) (n : Nat) :
    ∃ a b, s = a ++ b ∧ str_len a = floor_char_boundary s n ∧ str_len a ≤ n ∧
      ∀ a' b', s = a' ++ b' → str_len a' ≤ n → str_len a' ≤ str_len a := by
  induction n with
  | zero => exact ⟨[], s, rfl, rfl, Nat.le_refl _, fun _ _ _ h => h⟩
  | succ n ih =>
    unfold floor_char_boundary
    cases hcut : split_at_checked (n + 1) s with
    | some parts =>
      obtain ⟨hs, hlen⟩ := split_at_checked_some hcut
      exact ⟨parts.1, parts.2, hs, hlen, Nat.le_of_eq hlen, fun _ _ _ h => hlen ▸ h⟩
    | none =>
      obtain ⟨a, b, hs, hlen, hle, hlast⟩ := ih
      refine ⟨a, b, hs, hlen, by omega, ?_⟩
      intro a' b' hs' hle'
      have hne : str_len a' ≠ n + 1 := by
        intro heq
        rw [hs', ← heq, split_at_checked_append] at hcut
        cases hcut
      exact hlast a' b' hs' (by omega)

theorem rfind_eq_some {i : Nat} (h : rfind c s = some i) :
    ∃ a b, s = a ++ c :: b ∧ str_len a = i := by
  induction s generalizing i with
  | nil => cases h
  | cons d s ih =>
    unfold rfind at h
    cases hrest : rfind c s with
    | some j =>
      obtain ⟨a, b, rfl, hlen⟩ := ih hrest
      rw [hrest] at h
      cases h
      exact ⟨d :: a, b, rfl, by rw [str_len_cons, hlen]⟩
    | none =>
      simp only [hrest, Option.ite_none_right_eq_some, Option.some.injEq] at h
      exact ⟨[], s, by rw [h.1]; rfl, h.2⟩

theorem not_mem_of_rfind (h : rfind c s = none) : c ∉ s := by
  induction s with
  | nil => simp
  | cons d s ih => grind [rfind]

end Agentty.Text
