/-
The grammar of JSON, and why an object contains no shorter copy of itself at its end.

`Json` is the grammar of RFC 8259, with a bound on how deep containers are nested. A scan
over the characters of a text keeps only the depth and whether it is in a string. A value
is scanned at any depth and leaves it as it was.

From that, two facts about the text of an object. A part of it in front is not a value,
since the object is still open there. A part of it at the end that starts with a brace is
no value either: outside the strings it would close a container it has not opened, and
inside a string its own strings would be what stands between the strings of the object,
so that they would not both be closed in the end.

A string literal denotes a text. A writer of literals that escapes one character at a time
gives no text less room than it has, and a longer text no less than a shorter one.
-/
import Mathlib.Tactic.Common
import Agentty.Text

set_option autoImplicit false

namespace Agentty.Json

open List

/-! ## The grammar -/

def Ws (text : List Char) : Prop := ∀ c ∈ text, c = ' ' ∨ c = '\t' ∨ c = '\n' ∨ c = '\r'

def Digits (text : List Char) : Prop := text ≠ [] ∧ ∀ c ∈ text, c.isDigit = true

inductive Number : List Char → Prop where
  | mk {minus int frac exp : List Char} (hminus : minus = [] ∨ minus = ['-'])
      (hint : int = ['0'] ∨ Digits int ∧ int.head? ≠ some '0')
      (hfrac : frac = [] ∨ ∃ digits, Digits digits ∧ frac = '.' :: digits)
      (hexp : exp = [] ∨ ∃ e sign digits, (e = 'e' ∨ e = 'E') ∧
        (sign = [] ∨ sign = ['+'] ∨ sign = ['-']) ∧ Digits digits ∧ exp = e :: sign ++ digits) :
      Number (minus ++ int ++ frac ++ exp)

/-- What follows a backslash, but for the digits of `\u`. -/
def escapes : List Char := ['"', '\\', '/', 'b', 'f', 'n', 'r', 't', 'u']

def is_hex (c : Char) : Bool :=
  c.isDigit || ('a' ≤ c && c ≤ 'f') || ('A' ≤ c && c ≤ 'F')

/-- The inside of a string. -/
inductive Chars : List Char → Prop where
  | nil : Chars []
  | unescaped {c : Char} {text : List Char} (hcontrol : 0x20 ≤ c.toNat) (hquote : c ≠ '"')
      (hescape : c ≠ '\\') (rest : Chars text) : Chars (c :: text)
  | escaped {c : Char} {text : List Char} (hc : c ∈ escapes) (hu : c ≠ 'u')
      (rest : Chars text) : Chars ('\\' :: c :: text)
  | unicode {hex text : List Char} (hlength : hex.length = 4)
      (hhex : ∀ c ∈ hex, is_hex c = true) (rest : Chars text) :
      Chars ('\\' :: 'u' :: (hex ++ text))

/-- The parts of the grammar. The items of an array are values, and those of an object are
members. -/
inductive Part where
  | value
  | item (object : Bool)
  | items (object : Bool)

def left (object : Bool) : Char := if object then '{' else '['

def right (object : Bool) : Char := if object then '}' else ']'

/-- The texts of a part in which containers are nested up to a depth. -/
inductive Text : Nat → Part → List Char → Prop where
  | literal {depth : Nat} {text : List Char}
      (h : text = "true".toList ∨ text = "false".toList ∨ text = "null".toList) :
      Text depth .value text
  | number {depth : Nat} {text : List Char} (h : Number text) : Text depth .value text
  | string {depth : Nat} {text : List Char} (h : Chars text) :
      Text depth .value ('"' :: text ++ ['"'])
  | empty {depth : Nat} {space : List Char} (object : Bool) (hspace : Ws space) :
      Text (depth + 1) .value (left object :: space ++ [right object])
  | container {depth : Nat} {text : List Char} (object : Bool)
      (h : Text depth (.items object) text) :
      Text (depth + 1) .value (left object :: text ++ [right object])
  | element {depth : Nat} {before value after : List Char} (hbefore : Ws before)
      (hvalue : Text depth .value value) (hafter : Ws after) :
      Text depth (.item false) (before ++ value ++ after)
  | member {depth : Nat} {before name after element : List Char} (hbefore : Ws before)
      (hname : Chars name) (hafter : Ws after) (helement : Text depth (.item false) element) :
      Text depth (.item true) (before ++ ('"' :: name ++ ['"']) ++ after ++ ':' :: element)
  | last {depth : Nat} {object : Bool} {item : List Char} (h : Text depth (.item object) item) :
      Text depth (.items object) item
  | more {depth : Nat} {object : Bool} {item items : List Char}
      (h : Text depth (.item object) item) (rest : Text depth (.items object) items) :
      Text depth (.items object) (item ++ ',' :: items)

variable {text : List Char}

theorem Chars.of_unescaped (h : text.all (fun c => 0x20 ≤ c.toNat && c ≠ '"' && c ≠ '\\') = true) :
    Chars text := by
  induction text with
  | nil => exact .nil
  | cons c text ih =>
    simp only [List.all_cons, Bool.and_eq_true, decide_eq_true_eq] at h
    exact .unescaped h.1.1.1 h.1.1.2 h.1.2 (ih h.2)

theorem Text.single {depth : Nat} {name value : List Char} (hname : Chars name)
    (hvalue : Text depth .value value) :
    Text (depth + 1) .value ('{' :: ('"' :: name ++ ['"'] ++ ':' :: value) ++ ['}']) := by
  have hws : Ws [] := fun c hc => nomatch hc
  simpa [left, right] using
    Text.container true (.last (.member hws hname hws (.element hws hvalue hws)))

/-! ## The scan -/

inductive Mode where
  | outside | inside | escape
  deriving DecidableEq

def scan_char : Mode × Nat → Char → Option (Mode × Nat)
  | (.outside, depth), c =>
    if c = '"' then some (.inside, depth)
    else if c = '{' ∨ c = '[' then some (.outside, depth + 1)
    else if c = '}' ∨ c = ']' then if depth = 0 then none else some (.outside, depth - 1)
    else if c = '\\' then none
    else some (.outside, depth)
  | (.inside, depth), c =>
    if c = '"' then some (.outside, depth)
    else if c = '\\' then some (.escape, depth)
    else some (.inside, depth)
  | (.escape, depth), c => if c ∈ escapes then some (.inside, depth) else none

def scan (s : Mode × Nat) (text : List Char) : Option (Mode × Nat) := text.foldlM scan_char s

theorem scan_append (s : Mode × Nat) (a b : List Char) :
    scan s (a ++ b) = (scan s a).bind fun s' => scan s' b := List.foldlM_append

theorem scan_cons (s : Mode × Nat) (c : Char) (text : List Char) :
    scan s (c :: text) = (scan_char s c).bind fun s' => scan s' text := List.foldlM_cons

variable {a b : List Char} {s s' : Mode × Nat}

/-- Text that the scan passes over. -/
def Plain (c : Char) : Prop := c ∉ ['"', '\\', '{', '}', '[', ']']

theorem scan_plain (h : ∀ c ∈ text, Plain c) {mode : Mode} (hmode : mode ≠ .escape) (depth : Nat) :
    scan (mode, depth) text = some (mode, depth) := by
  induction text with
  | nil => rfl
  | cons c text ih =>
    obtain ⟨hc, htext⟩ := forall_mem_cons.mp h
    simp only [Plain, mem_cons, not_mem_nil, not_or, or_false] at hc
    have hstep : scan_char (mode, depth) c = some (mode, depth) := by
      cases mode with
      | outside | inside => simp [scan_char, hc]
      | escape => exact absurd rfl hmode
    rw [scan_cons, hstep]
    exact ih htext

theorem scan_outside (h : ∀ c ∈ text, Plain c) (depth : Nat) :
    scan (.outside, depth) text = some (.outside, depth) := scan_plain h (by simp) depth

theorem Ws.plain (h : Ws text) : ∀ c ∈ text, Plain c := by
  intro c hc
  rcases h c hc with rfl | rfl | rfl | rfl <;> simp [Plain]

/-- The special characters pass no test that says `false` on each of them. -/
theorem plain_of_test (test : Char → Bool)
    (htest : ['"', '\\', '{', '}', '[', ']'].all (!test ·) = true) {c : Char}
    (h : test c = true) : Plain c := by
  intro hc
  have hnot := List.all_eq_true.mp htest c hc
  simp [h] at hnot

theorem Digits.plain (h : Digits text) : ∀ c ∈ text, Plain c :=
  fun c hc => plain_of_test Char.isDigit (by decide) (h.2 c hc)

theorem Number.plain (h : Number text) : ∀ c ∈ text, Plain c := by
  cases h with
  | mk hminus hint hfrac hexp =>
    simp only [List.forall_mem_append]
    refine ⟨⟨⟨?_, ?_⟩, ?_⟩, ?_⟩
    · rcases hminus with rfl | rfl <;> simp [Plain]
    · rcases hint with rfl | ⟨hdigits, -⟩
      · simp [Plain]
      · exact hdigits.plain
    · rcases hfrac with rfl | ⟨digits, hdigits, rfl⟩
      · simp
      · exact List.forall_mem_cons.mpr ⟨by simp [Plain], hdigits.plain⟩
    · rcases hexp with rfl | ⟨e, sign, digits, he, hsign, hdigits, rfl⟩
      · simp
      · simp only [List.cons_append, List.forall_mem_cons, List.forall_mem_append]
        refine ⟨?_, ?_, hdigits.plain⟩
        · rcases he with rfl | rfl <;> simp [Plain]
        · rcases hsign with rfl | rfl | rfl <;> simp [Plain]

theorem Chars.scan (h : Chars text) (depth : Nat) :
    scan (.inside, depth) text = some (.inside, depth) := by
  induction h with
  | nil => rfl
  | unescaped _ hquote hescape _ ih => simp [scan_cons, scan_char, hquote, hescape, ih]
  | escaped hc _ _ ih => simp [scan_cons, scan_char, hc, ih]
  | unicode _ hhex _ ih =>
    have hplain := scan_plain (fun c hc => plain_of_test is_hex (by decide) (hhex c hc))
      (show Mode.inside ≠ .escape by simp) depth
    simp [scan_cons, scan_char, escapes, scan_append, hplain, ih]

theorem Chars.scan_quoted (h : Chars text) (depth : Nat) :
    Json.scan (.outside, depth) ('"' :: text ++ ['"']) = some (.outside, depth) := by
  simp [scan_cons, scan_append, scan_char, h.scan]
  rfl

theorem scan_container (object : Bool) {depth : Nat}
    (h : scan (.outside, depth + 1) text = some (.outside, depth + 1)) :
    scan (.outside, depth) (left object :: text ++ [right object]) = some (.outside, depth) := by
  cases object <;> simp [scan_cons, scan_append, scan_char, h, left, right] <;> rfl

/-- A text of the grammar is scanned at any depth, and leaves it as it was. -/
theorem Text.scan {limit : Nat} {part : Part} (h : Text limit part text) (depth : Nat) :
    scan (.outside, depth) text = some (.outside, depth) := by
  induction h generalizing depth with
  | literal h => rcases h with rfl | rfl | rfl <;> rfl
  | number h => exact scan_outside h.plain depth
  | string h => exact h.scan_quoted depth
  | empty object hspace => exact scan_container object (scan_outside hspace.plain _)
  | container object _ ih => exact scan_container object (ih _)
  | element hbefore _ hafter ih =>
    rw [scan_append, scan_append, scan_outside hbefore.plain]
    simp [ih, scan_outside hafter.plain]
  | member hbefore hname hafter _ ih =>
    rw [scan_append, scan_append, scan_append, scan_outside hbefore.plain]
    simp only [Option.bind_some, hname.scan_quoted, scan_outside hafter.plain, scan_cons]
    exact ih depth
  | last _ ih => exact ih depth
  | more _ _ ih ih' =>
    rw [scan_append, ih, Option.bind_some, scan_cons]
    exact ih' depth

/-! ## The ends of an object -/

/-- The text of an object. -/
def Object (limit : Nat) (text : List Char) : Prop :=
  Text limit .value text ∧ text.head? = some '{'

variable {limit : Nat} {text : List Char}

theorem Object.inner (h : Object limit text) : ∃ inner, text = '{' :: inner ++ ['}'] ∧
    ∀ depth, scan (.outside, depth) inner = some (.outside, depth) := by
  obtain ⟨htext, hhead⟩ := h
  cases htext with
  | literal h => rcases h with rfl | rfl | rfl <;> simp at hhead
  | number h =>
    have hplain := h.plain '{' (List.mem_of_mem_head? hhead)
    simp [Plain] at hplain
  | string => simp at hhead
  | empty object hspace =>
    cases object with
    | true => exact ⟨_, rfl, scan_outside hspace.plain⟩
    | false => simp [left] at hhead
  | container object h =>
    cases object with
    | true => exact ⟨_, rfl, h.scan⟩
    | false => simp [left] at hhead

theorem Text.object {front : List Char} (h : Text limit .value (front ++ ['}'])) :
    Object limit (front ++ ['}']) := by
  generalize htext : front ++ ['}'] = text at h
  refine ⟨h, ?_⟩
  cases h with
  | literal h => rcases h with rfl | rfl | rfl <;> simpa using congrArg List.getLast? htext
  | number h =>
    have hplain := h.plain '}' (by simp [← htext])
    simp [Plain] at hplain
  | string => simpa using (List.append_inj' htext rfl).2
  | empty object | container object =>
    cases object with
    | true => rfl
    | false => simpa [right] using (List.append_inj' htext rfl).2

theorem Object.last (h : Object limit (a ++ b)) (hb : b ≠ []) : ∃ front, b = front ++ ['}'] := by
  obtain ⟨inner, htext, -⟩ := h.inner
  rcases b.eq_nil_or_concat with rfl | ⟨front, last, rfl⟩
  · exact absurd rfl hb
  · rw [List.concat_eq_append, ← List.append_assoc] at htext
    cases (List.append_inj' htext rfl).2
    exact ⟨front, List.concat_eq_append⟩

theorem scan_shift (k : Nat) (h : scan s text = some s') :
    scan (s.1, s.2 + k) text = some (s'.1, s'.2 + k) := by
  induction text generalizing s with
  | nil =>
    cases h
    rfl
  | cons c text ih =>
    rw [scan_cons] at h ⊢
    obtain ⟨t, hstep, hrest⟩ := Option.bind_eq_some_iff.mp h
    have hshift : scan_char (s.1, s.2 + k) c = some (t.1, t.2 + k) := by
      obtain ⟨mode, depth⟩ := s
      cases mode <;> grind [scan_char]
    rw [hshift]
    exact ih hrest

theorem Object.open (h : Object limit (a ++ b)) (ha : a ≠ []) (hb : b ≠ []) :
    ∃ mode depth, scan (.outside, 0) a = some (mode, depth + 1) := by
  obtain ⟨inner, htext, hscan⟩ := h.inner
  obtain ⟨c, a, rfl⟩ := List.exists_cons_of_ne_nil ha
  obtain ⟨b, rfl⟩ := h.last hb
  rw [List.cons_append, ← List.append_assoc, List.cons_append, List.cons.injEq] at htext
  obtain ⟨rfl, htext⟩ := htext
  obtain ⟨hinner, -⟩ := List.append_inj' htext rfl
  have hzero := hscan 0
  rw [← hinner] at hzero
  rw [scan_append] at hzero
  obtain ⟨⟨mode, depth⟩, hfront, -⟩ := Option.bind_eq_some_iff.mp hzero
  exact ⟨mode, depth, scan_shift 1 hfront⟩

/-- Two scans of which one is in a string and the other is not stay so. -/
theorem scan_opposite {d d' e e' : Nat} {m m' : Mode} (h : scan (.outside, d) text = some (m, d'))
    (h' : scan (.inside, e) text = some (m', e')) :
    m = .outside ∧ m' = .inside ∨ m = .inside ∧ m' = .outside := by
  induction text generalizing d e m m' d' e' with
  | nil =>
    cases h
    cases h'
    exact .inl ⟨rfl, rfl⟩
  | cons c text ih =>
    obtain ⟨⟨n, f⟩, hstep, hrest⟩ := Option.bind_eq_some_iff.mp h
    obtain ⟨⟨n', f'⟩, hstep', hrest'⟩ := Option.bind_eq_some_iff.mp h'
    by_cases hquote : c = '"'
    · obtain ⟨rfl, rfl⟩ : n = .inside ∧ n' = .outside := by grind [scan_char]
      exact (ih hrest' hrest).symm.imp And.symm And.symm
    · -- a backslash fails in the scan that is outside
      obtain ⟨rfl, rfl⟩ : n = .outside ∧ n' = .inside := by grind [scan_char]
      exact ih hrest hrest'

theorem Text.value_ne_nil (h : Text limit .value text) : text ≠ [] := by
  cases h with
  | literal h => rcases h with rfl | rfl | rfl <;> simp
  | number h =>
    cases h with
    | mk _ hint =>
      rcases hint with rfl | ⟨⟨hne, -⟩, -⟩
      · simp
      · simp [hne]
  | string | empty | container => simp

theorem Object.not_end (h : Object limit (a ++ b)) (ha : a ≠ []) : ¬ Object limit b := by
  intro hb
  have hne : b ≠ [] := by
    rintro rfl
    simp [Object] at hb
  obtain ⟨mode, depth, hopen⟩ := h.open ha hne
  have hwhole := h.1.scan 0
  rw [scan_append, hopen, Option.bind_some] at hwhole
  cases mode with
  | outside =>
    rw [hb.1.scan] at hwhole
    simp at hwhole
  | inside =>
    rcases scan_opposite (hb.1.scan 0) hwhole with ⟨-, h⟩ | ⟨h, -⟩ <;> cases h
  | escape =>
    obtain ⟨inner, rfl, -⟩ := hb.inner
    simp [scan_cons, scan_char, escapes] at hwhole

/-! ## String literals -/

/-- The letters behind a backslash, and the characters they stand for. -/
def escaped : List (Char × Char) :=
  [('"', '"'), ('\\', '\\'), ('/', '/'), ('b', '\x08'), ('f', '\x0c'), ('n', '\n'), ('r', '\r'),
    ('t', '\t')]

def hex_value (hex : List Char) : Nat :=
  hex.foldl (fun n c => 16 * n + if c.isDigit then c.toNat - 48 else c.toLower.toNat - 87) 0

/-- The text that the inside of a string denotes. -/
inductive Denotes : List Char → List Char → Prop where
  | nil : Denotes [] []
  | unescaped {c : Char} {text value : List Char} (hcontrol : 0x20 ≤ c.toNat) (hquote : c ≠ '"')
      (hescape : c ≠ '\\') (rest : Denotes text value) : Denotes (c :: text) (c :: value)
  | escaped {c v : Char} {text value : List Char} (hc : (c, v) ∈ escaped)
      (rest : Denotes text value) : Denotes ('\\' :: c :: text) (v :: value)
  | unicode {v : Char} {hex text value : List Char} (hlength : hex.length = 4)
      (hhex : ∀ c ∈ hex, is_hex c = true) (hvalue : hex_value hex = v.toNat)
      (rest : Denotes text value) : Denotes ('\\' :: 'u' :: (hex ++ text)) (v :: value)

def Literal (text value : List Char) : Prop :=
  ∃ inner, text = '"' :: inner ++ ['"'] ∧ Denotes inner value

open Agentty.Text

/-- A writer of literals; each character takes its own room. -/
structure Writes (write : List Char → List Char) : Prop where
  literal : ∀ s, Literal (write s) s
  append : ∀ s t, str_len (write (s ++ t)) + 2 = str_len (write s) + str_len (write t)

theorem str_len_of_hex {hex : List Char} (h : ∀ c ∈ hex, is_hex c = true) :
    str_len hex = hex.length := by
  induction hex with
  | nil => rfl
  | cons c hex ih =>
    obtain ⟨hc, hhex⟩ := List.forall_mem_cons.mp h
    have hsize : c.utf8Size = 1 := by
      rw [Char.utf8Size_eq_one_iff]
      simp only [is_hex, Char.isDigit, Bool.or_eq_true, Bool.and_eq_true, decide_eq_true_eq,
        Char.le_def, UInt32.le_iff_toNat_le] at hc ⊢
      have hlast : '9'.val.toNat ≤ 127 ∧ 'f'.val.toNat ≤ 127 ∧ 'F'.val.toNat ≤ 127 := by decide
      have hmax : (127 : UInt32).toNat = 127 := by decide
      omega
    rw [str_len_cons, List.length_cons, ih hhex, hsize, Nat.add_comm]

/-- A character takes its own room at least, and that of `\u` and four digits at most. -/
theorem Denotes.str_len_bounds {value : List Char} (h : Denotes text value) :
    str_len value ≤ str_len text ∧ str_len text ≤ 6 * value.length := by
  have hbackslash : '\\'.utf8Size = 1 := by decide
  induction h with
  | nil => decide
  | @unescaped c _ _ _ _ _ _ ih =>
    have hfour := c.utf8Size_le_four
    simp only [str_len_cons, List.length_cons]
    omega
  | @escaped c v _ _ hc _ ih =>
    have hsmall : ∀ pair ∈ Json.escaped, pair.1.utf8Size = 1 ∧ pair.2.utf8Size = 1 := by decide
    obtain ⟨hone, hone'⟩ : c.utf8Size = 1 ∧ v.utf8Size = 1 := hsmall _ hc
    simp only [str_len_cons, List.length_cons]
    omega
  | @unicode v hex _ _ hlength hhex _ _ ih =>
    have hfour := v.utf8Size_le_four
    have hu : 'u'.utf8Size = 1 := by decide
    simp only [str_len_cons, str_len_append, str_len_of_hex hhex, List.length_cons]
    omega

section

variable {write : List Char → List Char} (h : Writes write)

include h

theorem Writes.str_len_bounds (s : List Char) :
    str_len s + 2 ≤ str_len (write s) ∧ str_len (write s) ≤ 6 * s.length + 2 := by
  obtain ⟨inner, htext, hdenotes⟩ := h.literal s
  have hquote : '"'.utf8Size = 1 := by decide
  have hbounds := hdenotes.str_len_bounds
  simp only [htext, cons_append, str_len_cons, str_len_append, str_len_nil, hquote]
  omega

theorem Writes.mono {s t : List Char} (hst : s <+: t) : str_len (write s) ≤ str_len (write t) := by
  obtain ⟨r, rfl⟩ := hst
  have happend := h.append s r
  have hroom := (h.str_len_bounds r).1
  omega

end

/-- The writer that escapes what has to be escaped. -/
def escape (c : Char) : List Char :=
  if c = '"' ∨ c = '\\' then ['\\', c]
  else if c.toNat < 32 then
    ['\\', 'u', '0', '0', Nat.digitChar (c.toNat / 16), Nat.digitChar (c.toNat % 16)]
  else [c]

def write (s : List Char) : List Char := '"' :: s.flatMap escape ++ ['"']

theorem str_len_write (s : List Char) : str_len (write s) = str_len (s.flatMap escape) + 2 := by
  have hquote : '"'.utf8Size = 1 := by decide
  simp only [write, cons_append, str_len_cons, str_len_append, str_len_nil, hquote]
  omega

theorem writes_write : Writes write where
  literal s := by
    refine ⟨s.flatMap escape, rfl, ?_⟩
    induction s with
    | nil => exact .nil
    | cons c s ih =>
      rw [flatMap_cons, escape]
      split
      · next hc =>
        exact .escaped (by rcases hc with rfl | rfl <;> decide) ih
      · next hc =>
        rw [not_or] at hc
        split
        · next hcontrol =>
          have hdigits : ∀ n < 32,
              ['0', '0', Nat.digitChar (n / 16), Nat.digitChar (n % 16)].all is_hex = true ∧
              hex_value ['0', '0', Nat.digitChar (n / 16), Nat.digitChar (n % 16)] = n := by
            decide
          obtain ⟨hhex, hvalue⟩ := hdigits _ hcontrol
          refine .unicode ?_ (all_eq_true.mp hhex) hvalue ih
          rfl
        · next hcontrol => exact .unescaped (by omega) hc.1 hc.2 ih
  append s t := by
    simp only [str_len_write, flatMap_append, str_len_append]
    omega

end Agentty.Json
