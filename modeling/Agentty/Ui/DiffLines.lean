/-
The lines of a diff as they are shown, with their numbers.

`parse_diff_lines` goes by the first characters of each line alone. A removed line whose
text begins with two dashes and a blank, and an added one that begins with two plus signs
and a blank, look like file headers to it, wherever they stand. All other lines of a hunk
are shown by their markers and counted from the numbers in the header of the hunk.
-/
import Agentty.Harness.PatchRoundTrip

set_option autoImplicit false

namespace Agentty.Ui

open Text Harness List

inductive DiffLineKind where
  | FileHeader | HunkHeader | Context | Addition | Deletion
  deriving DecidableEq, Repr

structure DiffLine where
  content : List Char
  kind : DiffLineKind
  new_line : Option Nat
  old_line : Option Nat
  deriving DecidableEq, Repr

/-- `u32::MAX` -/
def u32_max : Nat := 4294967295

def parse_range (range : List Char) : Option (Nat × Nat) :=
  match split_once [','] range with
  | some (start, count) => do return (← parse_nat u32_max start, ← parse_nat u32_max count)
  | none => do return (← parse_nat u32_max range, 1)

def parse_hunk_header (line : List Char) : Option (Nat × Nat × Nat × Nat) := do
  let line ← strip_prefix "@@ -".toList line
  let (range_part, _) ← split_once " @@".toList line
  -- the first two parts of `split(" +")`
  let (old_range, rest) ← split_once " +".toList range_part
  let new_range := (split_once " +".toList rest).elim rest Prod.fst
  let (old_start, old_count) ← parse_range old_range
  let (new_start, new_count) ← parse_range new_range
  return (old_start, old_count, new_start, new_count)

/-- `old_line` and `new_line` of the loop. -/
structure Counters where
  old_line : Nat
  new_line : Nat

/-- One turn of the loop. -/
def parse_diff_line (at_line : Counters) (line : List Char) : DiffLine × Counters :=
  if ["diff ", "index ", "--- ", "+++ "].any (·.toList.isPrefixOf line) then
    (⟨line, .FileHeader, none, none⟩, at_line)
  else if "@@".toList.isPrefixOf line then
    (⟨line, .HunkHeader, none, none⟩, (parse_hunk_header line).elim at_line
      fun (old_start, _, new_start, _) => ⟨old_start, new_start⟩)
  else if line = no_newline_marker then (⟨line, .Context, none, none⟩, at_line)
  else
    let old_next := (at_line.old_line + 1) % (u32_max + 1)
    let new_next := (at_line.new_line + 1) % (u32_max + 1)
    match line with
    | '+' :: rest =>
      (⟨rest, .Addition, some at_line.new_line, none⟩, { at_line with new_line := new_next })
    | '-' :: rest =>
      (⟨rest, .Deletion, none, some at_line.old_line⟩, { at_line with old_line := old_next })
    | ' ' :: rest =>
      (⟨rest, .Context, some at_line.new_line, some at_line.old_line⟩, ⟨old_next, new_next⟩)
    | _ => (⟨line, .Context, some at_line.new_line, some at_line.old_line⟩, ⟨old_next, new_next⟩)

def parse_lines (at_line : Counters) : List (List Char) → List DiffLine
  | [] => []
  | line :: lines =>
    let (parsed, next) := parse_diff_line at_line line
    parsed :: parse_lines next lines

/-- A line without a carriage return at its end. -/
def strip_return (line : List Char) : List Char :=
  if line.getLast? = some '\r' then line.dropLast else line

/-- A carriage return belongs to the end of a line only before a newline. -/
def strip_line_end (line : List Char) : List Char :=
  if line.getLast? = some '\n' then strip_return line.dropLast else line

/-- `str::lines` -/
def str_lines (text : List Char) : List (List Char) :=
  (split_inclusive '\n' text).map strip_line_end

def parse_diff_lines (diff : List Char) : List DiffLine := parse_lines ⟨0, 0⟩ (str_lines diff)

/-! ## The lines of a hunk -/

/-- A line of a hunk, as it is to be shown. -/
def shown (old new : Nat) (line : PatchLine) : DiffLine :=
  let content := strip_return line.text.content
  match line.kind with
  | .Addition => ⟨content, .Addition, some new, none⟩
  | .Removal => ⟨content, .Deletion, none, some old⟩
  | .Context => ⟨content, .Context, some new, some old⟩

/-- The lines of a hunk, from the numbers at which they start. -/
def numbered (old new : Nat) : List PatchLine → List DiffLine
  | [] => []
  | line :: lines =>
    shown old new line
      :: (if line.text.newline then [] else [⟨no_newline_marker, .Context, none, none⟩])
      ++ numbered (old + line.old_side.toNat) (new + line.new_side.toNat) lines

/-- A line that looks like a file header. -/
def ImitatesHeader (line : PatchLine) : Prop :=
  line.kind = .Removal ∧ "-- ".toList <+: line.text.content ∨
    line.kind = .Addition ∧ "++ ".toList <+: line.text.content

theorem strip_return_cons {c : Char} (hc : c ≠ '\r') (line : List Char) :
    strip_return (c :: line) = c :: strip_return line := by
  cases line with
  | nil => simp [strip_return, hc]
  | cons d line =>
    simp only [strip_return, getLast?_cons_cons, dropLast_cons_cons]
    split <;> rfl

/-- A part that does not end with a carriage return is a part without it. -/
theorem prefix_strip_return {pat : List Char} (hpat : pat.getLast? ≠ some '\r')
    (line : List Char) : pat <+: strip_return line ↔ pat <+: line := by
  unfold strip_return
  split
  · next hlast =>
    obtain ⟨before, rfl⟩ := getLast?_eq_some_iff.mp hlast
    rw [dropLast_concat, prefix_concat_iff]
    refine ⟨.inr, fun h => h.resolve_left ?_⟩
    rintro rfl
    exact hpat getLast?_concat
  · exact Iff.rfl

theorem strip_return_of_plain {line : List Char} (h : PlainLine line) : strip_return line = line :=
  if_neg fun hlast => (h _ (mem_of_getLast? hlast)).2 rfl

/-- The lines of a diff are those that were printed. -/
theorem str_lines_ended {lines : List (List Char)} (h : ∀ line ∈ lines, '\n' ∉ line) :
    str_lines (lines.map ended_line).flatten = lines.map strip_return := by
  have hclosed : ∀ line ∈ lines.map ended_line, Closed '\n' line := by
    intro line hline
    obtain ⟨content, hcontent, rfl⟩ := mem_map.mp hline
    exact ⟨content, h content hcontent, rfl⟩
  have hlines := (Lines.append hclosed .nil).split_flatten
  rw [append_nil] at hlines
  rw [str_lines, hlines, map_map]
  exact map_congr_left fun line _ => by simp [strip_line_end, ended_line]

/-- Lines are read one after the other. -/
theorem parse_lines_append (at_line : Counters) (lines rest : List (List Char)) :
    ∃ next, parse_lines at_line (lines ++ rest)
      = parse_lines at_line lines ++ parse_lines next rest := by
  induction lines generalizing at_line with
  | nil => exact ⟨at_line, rfl⟩
  | cons line lines ih =>
    obtain ⟨next, hnext⟩ := ih (parse_diff_line at_line line).2
    exact ⟨next, by simp [parse_lines, hnext]⟩

theorem length_parse_lines (at_line : Counters) (lines : List (List Char)) :
    (parse_lines at_line lines).length = lines.length := by
  induction lines generalizing at_line with
  | nil => rfl
  | cons line lines ih => simp [parse_lines, ih]

variable {line : PatchLine} {old new : Nat}

/-- A line of a hunk begins like a file header if and only if it imitates one. -/
theorem starts_header_iff :
    ["diff ", "index ", "--- ", "+++ "].any
        (·.toList.isPrefixOf (line.kind.symbol :: strip_return line.text.content)) = true ↔
      ImitatesHeader line := by
  obtain ⟨kind, content, newline⟩ := line
  have hprefix : ∀ pat : List Char, pat.getLast? ≠ some '\r' →
      (pat.isPrefixOf (strip_return content) = true ↔ pat <+: content) := by
    intro pat hpat
    rw [← prefix_strip_return hpat content]
    exact isPrefixOf_iff_prefix
  have hminus := hprefix "-- ".toList (by decide)
  have hplus := hprefix "++ ".toList (by decide)
  cases kind with
  | Context => simp [ImitatesHeader, PatchLineKind.symbol]
  | Addition => simpa [ImitatesHeader, PatchLineKind.symbol] using hplus
  | Removal => simpa [ImitatesHeader, PatchLineKind.symbol] using hminus

/-- Any other line is shown by its marker. -/
theorem parse_diff_line_symbol (h : ¬ ImitatesHeader line)
    (hold : old + line.old_side.toNat ≤ u32_max) (hnew : new + line.new_side.toNat ≤ u32_max) :
    parse_diff_line ⟨old, new⟩ (line.kind.symbol :: strip_return line.text.content) =
      (shown old new line, ⟨old + line.old_side.toNat, new + line.new_side.toNat⟩) := by
  rw [← starts_header_iff] at h
  obtain ⟨kind, content, newline⟩ := line
  have hwrap : ∀ n, n + 1 ≤ u32_max → (n + 1) % (u32_max + 1) = n + 1 := fun n hn =>
    Nat.mod_eq_of_lt (Nat.lt_succ_of_le hn)
  have hhunk : "@@".toList.isPrefixOf (kind.symbol :: strip_return content) = false := by
    cases kind <;> rfl
  rw [parse_diff_line, if_neg h, hhunk, if_neg Bool.false_ne_true, if_neg (not_marker _ _)]
  cases kind with
  | Context => simp [PatchLineKind.symbol, shown, PatchLine.old_side, PatchLine.new_side,
      hwrap old hold, hwrap new hnew]
  | Addition => simp [PatchLineKind.symbol, shown, PatchLine.old_side, PatchLine.new_side,
      hwrap new hnew]
  | Removal => simp [PatchLineKind.symbol, shown, PatchLine.old_side, PatchLine.new_side,
      hwrap old hold]

theorem shown_kind_ne : (shown old new line).kind ≠ .FileHeader := by
  unfold shown
  split <;> simp

/-- The marker is shown without numbers, and does not count. -/
theorem parse_diff_line_marker (at_line : Counters) :
    parse_diff_line at_line (strip_return no_newline_marker)
      = (⟨no_newline_marker, .Context, none, none⟩, at_line) := rfl

/-- The lines of a hunk are read as they are to be shown exactly if none imitates a header:
the first that does is shown as one. -/
theorem parse_lines_numbered_iff {lines : List PatchLine}
    (hold : old + lines.countP PatchLine.old_side ≤ u32_max)
    (hnew : new + lines.countP PatchLine.new_side ≤ u32_max) (rest : List (List Char)) :
    (∃ later, parse_lines ⟨old, new⟩ ((lines.flatMap render_line).map strip_return ++ rest)
      = numbered old new lines ++ later) ↔ ∀ line ∈ lines, ¬ ImitatesHeader line := by
  induction lines generalizing old new with
  | nil => exact ⟨fun _ _ hline => absurd hline not_mem_nil, fun _ => ⟨_, rfl⟩⟩
  | cons line lines ih =>
    have hcons : strip_return (line.kind.symbol :: line.text.content)
        = line.kind.symbol :: strip_return line.text.content :=
      strip_return_cons (by cases line.kind <;> decide) _
    rw [forall_mem_cons]
    by_cases himitates : ImitatesHeader line
    · refine ⟨?_, fun h => absurd himitates h.1⟩
      rintro ⟨later, hlater⟩
      rw [flatMap_cons, render_line, cons_append, map_cons, cons_append, hcons, parse_lines,
        parse_diff_line, if_pos (starts_header_iff.mpr himitates), numbered, cons_append] at hlater
      have hkind := congrArg DiffLine.kind (head_eq_of_cons_eq hlater)
      exact absurd hkind.symm shown_kind_ne
    · have hside : ∀ b : Bool, (if b = true then 1 else 0) = b.toNat := fun b => by cases b <;> rfl
      rw [countP_cons, hside] at hold hnew
      have hold_next : old + line.old_side.toNat ≤ u32_max := by omega
      have hnew_next : new + line.new_side.toNat ≤ u32_max := by omega
      have hparsed := parse_diff_line_symbol himitates hold_next hnew_next
      have hnext := @ih (old + line.old_side.toNat) (new + line.new_side.toNat) (by omega)
        (by omega)
      rw [← hnext, and_iff_right himitates]
      cases hnewline : line.text.newline <;>
        simp [render_line, hcons, parse_lines, hparsed, numbered, hnewline, parse_diff_line_marker]

theorem parse_range_numbers {omit_count : Bool} {start count : Nat} (hstart : start ≤ u32_max)
    (hcount : count ≤ u32_max) :
    parse_range (render_range omit_count start count) = some (start, count) := by
  unfold parse_range
  rcases split_once_render_range omit_count start count with ⟨rfl, hrange, hsplit⟩ | hsplit
  · simp [hrange, hsplit, parse_nat_toDigits hstart]
  · simp [hsplit, parse_nat_toDigits hstart, parse_nat_toDigits hcount]

theorem parse_hunk_header_numbers {style : HunkStyle} {hunk : Hunk}
    (hold : hunk.old_start + hunk.old_count ≤ u32_max)
    (hnew : hunk.new_start + hunk.new_count ≤ u32_max) :
    parse_hunk_header (render_hunk_header style hunk)
      = some (hunk.old_start, hunk.old_count, hunk.new_start, hunk.new_count) := by
  have hold_blank : ' ' ∉ render_range style.omit_old_count hunk.old_start hunk.old_count :=
    not_mem_render_range (by decide) (by decide)
  have hnew_blank : ' ' ∉ render_range style.omit_new_count hunk.new_start hunk.new_count :=
    not_mem_render_range (by decide) (by decide)
  obtain ⟨hranges, hsides⟩ := split_once_header hold_blank hnew_blank style.heading
  have hnone : split_once " +".toList
      (render_range style.omit_new_count hunk.new_start hunk.new_count) = none :=
    split_once_eq_none hnew_blank
  rw [parse_hunk_header, render_hunk_header, strip_prefix_append]
  simp only [bind, Option.bind_some, hranges, hsides, hnone, Option.elim_none,
    parse_range_numbers ((Nat.le_add_right _ _).trans hold) ((Nat.le_add_left _ _).trans hold),
    parse_range_numbers ((Nat.le_add_right _ _).trans hnew) ((Nat.le_add_left _ _).trans hnew)]
  rfl

/-- **The lines of a hunk are shown by their markers, with their numbers**, whatever stands
before and after the hunk in the diff, exactly if none of them imitates a file header. -/
theorem hunk_lines_are_numbered (before after : List (List Char)) (style : HunkStyle) (hunk : Hunk)
    (hlines : ∀ line ∈ before ++ render_hunk (style, hunk) ++ after, '\n' ∉ line)
    (hcounts : hunk.old_count = hunk.lines.countP PatchLine.old_side ∧
      hunk.new_count = hunk.lines.countP PatchLine.new_side)
    (hbounds : hunk.old_start + hunk.old_count ≤ u32_max ∧
      hunk.new_start + hunk.new_count ≤ u32_max) :
    (∃ earlier later, earlier.length = before.length ∧
      parse_diff_lines ((before ++ render_hunk (style, hunk) ++ after).map ended_line).flatten
        = earlier ++ ⟨render_hunk_header style hunk, .HunkHeader, none, none⟩ ::
          (numbered hunk.old_start hunk.new_start hunk.lines ++ later)) ↔
      ∀ line ∈ hunk.lines, ¬ ImitatesHeader line := by
  have hheader : ∀ at_line, parse_diff_line at_line (strip_return (render_hunk_header style hunk))
      = (⟨render_hunk_header style hunk, .HunkHeader, none, none⟩,
        ⟨hunk.old_start, hunk.new_start⟩) := by
    intro at_line
    have hparsed := @parse_hunk_header_numbers style hunk hbounds.1 hbounds.2
    rw [strip_return_of_plain (plainLine_hunk_header style hunk)]
    simp only [parse_diff_line, hparsed]
    rfl
  obtain ⟨at_line, hfirst⟩ := parse_lines_append ⟨0, 0⟩ (before.map strip_return)
    ((render_hunk (style, hunk) ++ after).map strip_return)
  have hparse : parse_diff_lines
      ((before ++ render_hunk (style, hunk) ++ after).map ended_line).flatten
      = parse_lines ⟨0, 0⟩ (before.map strip_return)
        ++ ⟨render_hunk_header style hunk, .HunkHeader, none, none⟩ ::
          parse_lines ⟨hunk.old_start, hunk.new_start⟩
            ((hunk.lines.flatMap render_line).map strip_return ++ after.map strip_return) := by
    rw [parse_diff_lines, str_lines_ended hlines, append_assoc, map_append, hfirst, render_hunk,
      cons_append, map_cons, parse_lines, hheader, map_append]
  have hlength : (parse_lines ⟨0, 0⟩ (before.map strip_return)).length = before.length := by
    rw [length_parse_lines, length_map]
  rw [hparse, ← parse_lines_numbered_iff (hcounts.1 ▸ hbounds.1) (hcounts.2 ▸ hbounds.2)
    (after.map strip_return)]
  constructor
  · rintro ⟨earlier, later, hearlier, heq⟩
    obtain ⟨-, htail⟩ := append_inj heq (hlength.trans hearlier.symm)
    exact ⟨later, tail_eq_of_cons_eq htail⟩
  · rintro ⟨later, hlater⟩
    exact ⟨_, later, hlength, by rw [hlater]⟩

def bare_style : HunkStyle := ⟨true, true, [], forall_mem_of_all rfl⟩

/-- A removed line is replaced by two others. -/
theorem hunk_lines_are_numbered_replaced :
    ∃ earlier later, parse_diff_lines "--- a\n@@ -3 +3,2 @@\n-x\n+@@\n+diff \n".toList
      = earlier ++ ⟨"@@ -3 +3,2 @@".toList, .HunkHeader, none, none⟩ ::
        ([⟨['x'], .Deletion, none, some 3⟩, ⟨"@@".toList, .Addition, some 3, none⟩,
          ⟨"diff ".toList, .Addition, some 4, none⟩] ++ later) := by
  obtain ⟨earlier, later, -, heq⟩ := (hunk_lines_are_numbered ["--- a".toList] []
    bare_style ⟨[⟨.Removal, ['x'], true⟩, ⟨.Addition, "@@".toList, true⟩,
      ⟨.Addition, "diff ".toList, true⟩], 2, 3, 1, 3⟩ (by decide) (by decide) (by decide)).mpr
    (by unfold ImitatesHeader; decide)
  exact ⟨earlier, later, heq⟩

/-- A removed line that begins with two dashes and a blank is shown as a file header, and
the next one gets its number. -/
theorem removed_line_shown_as_header :
    parse_diff_lines ((render_hunk (bare_style, ⟨[⟨.Removal, "-- x".toList, true⟩,
        ⟨.Removal, ['y'], true⟩], 0, 0, 2, 1⟩)).map ended_line).flatten
      = [⟨"@@ -1,2 +0,0 @@".toList, .HunkHeader, none, none⟩,
        ⟨"--- x".toList, .FileHeader, none, none⟩, ⟨['y'], .Deletion, none, some 1⟩] := by
  decide +kernel

end Agentty.Ui
