/-
A unified diff of two texts, printed and applied, gives the second text.

The printer is that of the unified format: two file headers, then each hunk with its
ranges and its lines. What printers differ in is left open: a time stamp behind a path,
a heading behind the ranges, and whether the count of a range of one line is written.
The hunks may be any that turn the lines of the old text into those of the new one.
-/
import Agentty.Harness.PatchApply

set_option autoImplicit false

namespace Agentty.Harness

open Text List

/-! ## Printing a diff -/

/-- The path in a file header, and what stands behind it. -/
structure FileHeader where
  path : List Char
  stamp : List Char
  path_ne_nil : path ≠ []
  path_plain : ∀ c ∈ path, c ≠ '\t' ∧ c ≠ '\n' ∧ c ≠ '\r'
  stamp_start : stamp = [] ∨ stamp.head? = some '\t'
  stamp_plain : ∀ c ∈ stamp, c ≠ '\n' ∧ c ≠ '\r'

/-- How a hunk header is printed. -/
structure HunkStyle where
  omit_old_count : Bool
  omit_new_count : Bool
  heading : List Char
  heading_plain : ∀ c ∈ heading, c ≠ '\n' ∧ c ≠ '\r'

def render_range (omit_count : Bool) (start count : Nat) : List Char :=
  Nat.toDigits 10 start
    ++ if omit_count ∧ count = 1 then [] else ',' :: Nat.toDigits 10 count

def render_hunk_header (style : HunkStyle) (hunk : Hunk) : List Char :=
  "@@ -".toList ++ (render_range style.omit_old_count hunk.old_start hunk.old_count
    ++ (' ' :: '+' :: (render_range style.omit_new_count hunk.new_start hunk.new_count
      ++ (" @@".toList ++ style.heading))))

def PatchLineKind.symbol : PatchLineKind → Char
  | .Addition => '+'
  | .Context => ' '
  | .Removal => '-'

/-- A line of a hunk, with a marker behind it when it has no newline. -/
def render_line (line : PatchLine) : List (List Char) :=
  (line.kind.symbol :: line.text.content)
    :: if line.text.newline then [] else [no_newline_marker]

def render_hunk (styled : HunkStyle × Hunk) : List (List Char) :=
  render_hunk_header styled.1 styled.2 :: styled.2.lines.flatMap render_line

/-- The lines of a diff. -/
def render_lines (original modified : FileHeader) (hunks : List (HunkStyle × Hunk)) :
    List (List Char) :=
  ("--- ".toList ++ (original.path ++ original.stamp))
    :: ("+++ ".toList ++ (modified.path ++ modified.stamp)) :: hunks.flatMap render_hunk

/-- A line of a diff with its newline. -/
def ended_line (line : List Char) : List Char := line ++ ['\n']

def render_diff (original modified : FileHeader) (hunks : List (HunkStyle × Hunk)) : List Char :=
  ((render_lines original modified hunks).map ended_line).flatten

/-! ## What is printed -/

/-- A text with plain newlines that a string can hold. -/
structure LfText where
  chars : List Char
  plain : '\r' ∉ chars
  fits : chars.length ≤ usize_max

/-- Hunks that turn one text into the other, in order and without overlap: their lines
are counted, and start as the format counts lines. -/
structure Decomposes (old new : LfText) (hunks : List Hunk) : Prop where
  spliced : Spliced 0 0 (hunks.map Hunk.edit) (text_lines old.chars) (text_lines new.chars)
  counted : ∀ hunk ∈ hunks, hunk.Counted
  old_start : ∀ hunk ∈ hunks, hunk.old_count ≠ 0 → hunk.old_start ≠ 0
  new_start : ∀ hunk ∈ hunks, hunk.new_count ≠ 0 → hunk.new_start ≠ 0

/-- Only the last of some lines may have no newline. -/
def LastUnended (lines : List TextLine) : Prop := lines.Pairwise fun line _ => line.newline = true

section Text

variable (text : LfText)

theorem LfText.text_lines_eq :
    text_lines text.chars = (split_inclusive '\n' text.chars).map text_line := by
  rw [text_lines, replace_pair_of_not_mem text.plain]

theorem LfText.lastUnended : LastUnended (text_lines text.chars) := by
  rw [text.text_lines_eq]
  have hlines := lines_split_inclusive '\n' text.chars
  generalize split_inclusive '\n' text.chars = pieces at hlines ⊢
  induction hlines with
  | nil => exact List.Pairwise.nil
  | last _ => exact pairwise_singleton _ _
  | cons closed _ ih =>
    obtain ⟨content, -, rfl⟩ := closed
    exact List.Pairwise.cons (fun _ _ => by rw [text_line_closed]) ih

theorem LfText.text_plain : ∀ line ∈ text_lines text.chars, line.Plain := by
  intro line hline
  rw [text.text_lines_eq] at hline
  obtain ⟨piece, hpiece, rfl⟩ := mem_map.mp hline
  constructor
  · exact not_mem_strip_patch_newline ((lines_split_inclusive '\n' text.chars).mem hpiece)
  · intro hmem
    apply text.plain
    rw [← flatten_split_inclusive '\n' text.chars]
    exact mem_flatten_of_mem hpiece (mem_of_mem_strip_patch_newline hmem)

/-- The source lines of the applier are the lines of the text with their newlines. -/
theorem LfText.split_inclusive_eq :
    split_inclusive '\n' text.chars = (text_lines text.chars).map (TextLine.ended lf) := by
  rw [text.text_lines_eq, map_map]
  conv_lhs => rw [← map_id (split_inclusive '\n' text.chars)]
  exact (map_congr_left fun line hline =>
    ended_text_line ((lines_split_inclusive '\n' text.chars).mem hline)).symm

theorem LfText.join_text_lines : join_lines lf (text_lines text.chars) = text.chars := by
  rw [← HunkApplier.flatten_map_ended, ← text.split_inclusive_eq, flatten_split_inclusive]

theorem length_le_flatten {lines : List (List Char)} (h : ∀ line ∈ lines, line ≠ []) :
    lines.length ≤ lines.flatten.length := by
  induction lines with
  | nil => exact Nat.le_refl _
  | cons line lines ih =>
    have hline := length_pos_iff.mpr (h line mem_cons_self)
    have hrest := ih fun l hl => h l (mem_cons_of_mem _ hl)
    rw [length_cons, flatten_cons, length_append]
    omega

theorem LfText.length_text_lines : (text_lines text.chars).length ≤ usize_max := by
  have hlines := lines_split_inclusive '\n' text.chars
  have hlength := length_le_flatten fun line hline => hlines.ne_nil hline
  rw [flatten_split_inclusive] at hlength
  rw [text.text_lines_eq, length_map]
  exact hlength.trans text.fits

end Text

theorem old_lines_flatMap (hunks : List Hunk) :
    old_lines (hunks.flatMap Hunk.lines) = (hunks.map Hunk.edit).flatMap Edit.old := by
  rw [old_lines, filter_flatMap, map_flatMap, flatMap_map]
  rfl

theorem new_lines_flatMap (hunks : List Hunk) :
    new_lines (hunks.flatMap Hunk.lines) = (hunks.map Hunk.edit).flatMap Edit.new := by
  rw [new_lines, filter_flatMap, map_flatMap, flatMap_map]
  rfl

variable {lines : List PatchLine} {line : PatchLine}

theorem mem_old_lines (h : line ∈ lines) (hkind : line.kind ≠ .Addition) :
    line.text ∈ old_lines lines :=
  mem_map_of_mem (mem_filter.mpr ⟨h, by simp [PatchLine.old_side, hkind]⟩)

theorem mem_new_lines (h : line ∈ lines) (hkind : line.kind ≠ .Removal) :
    line.text ∈ new_lines lines :=
  mem_map_of_mem (mem_filter.mpr ⟨h, by simp [PatchLine.new_side, hkind]⟩)

/-- Lines end each side once when only the last one of a side has no newline. -/
theorem terminates_of_lastUnended (hold : LastUnended (old_lines lines))
    (hnew : LastUnended (new_lines lines)) : Terminates lines := by
  induction lines with
  | nil => exact List.Pairwise.nil
  | cons line lines ih =>
    rw [HunkApplier.old_lines_cons, LastUnended, pairwise_append] at hold
    rw [HunkApplier.new_lines_cons, LastUnended, pairwise_append] at hnew
    refine List.Pairwise.cons (fun later hlater => ⟨fun hends => ?_, fun hends => ?_⟩)
      (ih hold.2.1 hnew.2.1)
    · by_contra hkind
      simp only [PatchLine.ends_old, Bool.and_eq_true, Bool.not_eq_true'] at hends
      have hline : line.text ∈ old_lines [line] := by simp [old_lines, hends.1]
      have hnewline := hold.2.2 _ hline _ (mem_old_lines hlater hkind)
      rw [hends.2] at hnewline
      cases hnewline
    · by_contra hkind
      simp only [PatchLine.ends_new, Bool.and_eq_true, Bool.not_eq_true'] at hends
      have hline : line.text ∈ new_lines [line] := by simp [new_lines, hends.1]
      have hnewline := hnew.2.2 _ hline _ (mem_new_lines hlater hkind)
      rw [hends.2] at hnewline
      cases hnewline

section Decomposes

variable {old new : LfText} {hunks : List Hunk}

theorem Decomposes.terminates (h : Decomposes old new hunks) :
    Terminates (hunks.flatMap Hunk.lines) := by
  apply terminates_of_lastUnended
  · rw [old_lines_flatMap]
    exact old.lastUnended.sublist h.spliced.sublist.1
  · rw [new_lines_flatMap]
    exact new.lastUnended.sublist h.spliced.sublist.2

theorem Decomposes.plain (h : Decomposes old new hunks) :
    ∀ hunk ∈ hunks, ∀ line ∈ hunk.lines, line.text.Plain := by
  intro hunk hhunk line hline
  have hall : line ∈ hunks.flatMap Hunk.lines := mem_flatMap.mpr ⟨hunk, hhunk, hline⟩
  by_cases hkind : line.kind = .Addition
  · have hmem := mem_new_lines hall (by rw [hkind]; decide)
    rw [new_lines_flatMap] at hmem
    exact new.text_plain _ (h.spliced.sublist.2.subset hmem)
  · have hmem := mem_old_lines hall hkind
    rw [old_lines_flatMap] at hmem
    exact old.text_plain _ (h.spliced.sublist.1.subset hmem)

end Decomposes

/-! ## Reading it back -/

theorem strip_patch_newline_ended (line : List Char) :
    strip_patch_newline (ended_line line) = line :=
  congrArg TextLine.content (text_line_closed line)

theorem parse_header_ended (mark : List Char) (header : FileHeader) :
    parse_header (some (ended_line (mark ++ (header.path ++ header.stamp)))) mark
      = .ok header.path := by
  have hpath : (header.path ++ header.stamp).takeWhile (· ≠ '\t') = header.path := by
    have hall : ∀ c ∈ header.path, decide (c ≠ '\t') = true := fun c hc =>
      decide_eq_true (header.path_plain c hc).1
    rw [takeWhile_append_of_pos hall]
    rcases header.stamp_start with hstamp | hstamp
    · rw [hstamp, takeWhile_nil, append_nil]
    · cases hshape : header.stamp with
      | nil => rw [takeWhile_nil, append_nil]
      | cons c stamp =>
        rw [hshape] at hstamp
        obtain rfl : c = '\t' := Option.some.inj hstamp
        simp
  simp only [parse_header, strip_patch_newline_ended, strip_prefix_append, hpath,
    if_neg header.path_ne_nil]

variable {c : Char}

theorem not_mem_toDigits {n : Nat} (h : c.isDigit = false) : c ∉ Nat.toDigits 10 n := by
  intro hmem
  rw [Nat.isDigit_of_mem_toDigits (by omega) (by omega) hmem] at h
  cases h

variable {start count : Nat} {omit_count : Bool}

theorem not_mem_render_range (hdigit : c.isDigit = false) (hcomma : c ≠ ',') :
    c ∉ render_range omit_count start count := by
  intro hmem
  rcases mem_append.mp hmem with hmem | hmem
  · exact not_mem_toDigits hdigit hmem
  · split at hmem
    · cases hmem
    · rcases mem_cons.mp hmem with rfl | hmem
      · exact hcomma rfl
      · exact not_mem_toDigits hdigit hmem

theorem split_once_render_range (omit_count : Bool) (start count : Nat) :
    (count = 1 ∧ render_range omit_count start count = Nat.toDigits 10 start ∧
      split_once [','] (Nat.toDigits 10 start) = none) ∨
    split_once [','] (render_range omit_count start count)
      = some (Nat.toDigits 10 start, Nat.toDigits 10 count) := by
  have hcomma : ',' ∉ Nat.toDigits 10 start := not_mem_toDigits (by decide)
  by_cases hone : omit_count ∧ count = 1
  · have hrange : render_range omit_count start count = Nat.toDigits 10 start := by
      rw [render_range, if_pos hone, append_nil]
    exact .inl ⟨hone.2, hrange, split_once_eq_none hcomma⟩
  · have hrange : render_range omit_count start count
        = Nat.toDigits 10 start ++ ([','] ++ Nat.toDigits 10 count) := by
      rw [render_range, if_neg hone]
      rfl
    right
    rw [hrange, split_once_skip hcomma, split_once_here (by decide), Option.map_some,
      append_nil]

theorem parse_range_render (hstart : start ≤ usize_max) (hcount : count ≤ usize_max) :
    parse_range (render_range omit_count start count) = .ok (start, count) := by
  unfold parse_range
  rcases split_once_render_range omit_count start count with ⟨rfl, hrange, hsplit⟩ | hsplit
  · have hdigit : parse_nat usize_max ['1'] = some 1 := by decide
    simp only [hrange, hsplit, Option.getD_none, parse_nat_toDigits hstart, hdigit]
  · simp only [hsplit, Option.getD_some, parse_nat_toDigits hstart, parse_nat_toDigits hcount]

theorem split_once_header {old_range new_range : List Char} (hold : ' ' ∉ old_range)
    (hnew : ' ' ∉ new_range) (heading : List Char) :
    split_once " @@".toList (old_range ++ (' ' :: '+' :: (new_range ++ (" @@".toList ++ heading))))
        = some (old_range ++ (' ' :: '+' :: new_range), heading) ∧
      split_once " +".toList (old_range ++ (' ' :: '+' :: new_range))
        = some (old_range, new_range) := by
  have hats : " @@".toList = [' ', '@', '@'] := rfl
  have hplus : " +".toList = [' ', '+'] := rfl
  have hsides : split_once [' ', '+'] ([' ', '+'] ++ new_range) = some ([], new_range) :=
    split_once_here (by decide) _
  have hnew' : ' ' ∉ '+' :: new_range := by simpa using hnew
  rw [hats, hplus]
  constructor
  · -- the blank between the ranges is not followed by an at sign
    rw [split_once_skip hold, split_once, if_neg (by simp [isPrefixOf]), ← cons_append,
      split_once_skip hnew', split_once_here (by decide)]
    simp
  · rw [split_once_skip hold]
    simpa using hsides

variable {hunk : Hunk}

theorem parse_hunk_header_render {style : HunkStyle} (hold_start : hunk.old_start ≤ usize_max)
    (hold_count : hunk.old_count ≤ usize_max) (hnew_start : hunk.new_start ≤ usize_max)
    (hnew_count : hunk.new_count ≤ usize_max) :
    parse_hunk_header (render_hunk_header style hunk)
      = .ok (hunk.old_start, hunk.old_count, hunk.new_start, hunk.new_count) := by
  generalize holdrange : render_range style.omit_old_count hunk.old_start hunk.old_count = old_range
  generalize hnewrange : render_range style.omit_new_count hunk.new_start hunk.new_count = new_range
  obtain ⟨hranges, hsides⟩ := split_once_header
    (holdrange ▸ not_mem_render_range (by decide) (by decide))
    (hnewrange ▸ not_mem_render_range (by decide) (by decide)) style.heading
  have hold : parse_range old_range = .ok (hunk.old_start, hunk.old_count) :=
    holdrange ▸ parse_range_render hold_start hold_count
  have hnew : parse_range new_range = .ok (hunk.new_start, hunk.new_count) :=
    hnewrange ▸ parse_range_render hnew_start hnew_count
  rw [parse_hunk_header, render_hunk_header, strip_prefix_append, holdrange, hnewrange,
    Option.bind_eq_bind, Option.bind_some, hranges]
  simp only [hsides, hold, hnew, bind, Except.bind, pure, Except.pure]

theorem symbol_ne (kind : PatchLineKind) : kind.symbol ≠ '@' ∧ kind.symbol ≠ '\\' := by
  cases kind <;> decide

section

variable (kind : PatchLineKind) (content : List Char)

include kind content

theorem not_hunk_prefix : hunk_prefix.isPrefixOf (ended_line (kind.symbol :: content)) = false := by
  have hshape : hunk_prefix = ['@', '@', ' '] := rfl
  simp [hshape, ended_line, isPrefixOf, Ne.symm (symbol_ne kind).1]

theorem not_marker : kind.symbol :: content ≠ no_newline_marker := by
  intro h
  have hhead := congrArg head? h
  have hmarker : no_newline_marker.head? = some '\\' := by decide
  exact (symbol_ne kind).2 (Option.some.inj hhead)

theorem parse_patch_line_symbol :
    parse_patch_line (kind.symbol :: content) = .ok ⟨kind, content, true⟩ := by
  cases kind <;> rfl

end

section Lines

variable {earlier found : List PatchLine} {kind : PatchLineKind} {content : List Char}
  {more : List (List Char)} {marker : Bool}

theorem parse_hunk_lines_line (h : ∀ line ∈ earlier ++ found, Follows line kind) :
    parse_hunk_lines (ended_line (kind.symbol :: content) :: more) (.after (earlier ++ found)) found
        marker
      = parse_hunk_lines more (.after (earlier ++ (found ++ [⟨kind, content, true⟩])))
          (found ++ [⟨kind, content, true⟩]) false := by
  have hafter : PatchTermination.after (earlier ++ (found ++ [⟨kind, content, true⟩]))
      = .after (earlier ++ found) := by
    rw [← append_assoc, PatchTermination.after_snoc rfl]
  rw [parse_hunk_lines, not_hunk_prefix, strip_patch_newline_ended, if_neg Bool.false_ne_true,
    if_neg (not_marker kind content), parse_patch_line_symbol, hafter]
  dsimp only
  rw [PatchTermination.validate_line_after.mpr h]

/-- **The lines of a printed hunk are read back**, up to the next hunk header. -/
theorem parse_hunk_lines_render {rest : List (List Char)}
    (hterminates : Terminates (earlier ++ (found ++ lines)))
    (hrest : ∀ next ∈ rest.head?, hunk_prefix.isPrefixOf next = true) :
    parse_hunk_lines ((lines.flatMap render_line).map ended_line ++ rest)
        (.after (earlier ++ found)) found marker
      = .ok (found ++ lines, .after (earlier ++ (found ++ lines)), rest) := by
  induction lines generalizing found marker with
  | nil =>
    rw [append_nil]
    show parse_hunk_lines rest _ _ _ = _
    cases rest with
    | nil => rw [parse_hunk_lines]
    | cons next rest => rw [parse_hunk_lines, if_pos (hrest next rfl)]
  | cons line lines ih =>
    obtain ⟨kind, content, newline⟩ := line
    have hfollows : ∀ line ∈ earlier ++ found, Follows line kind := by
      intro line hline
      rw [← append_assoc] at hterminates
      exact (pairwise_append.mp hterminates).2.2 line hline _ mem_cons_self
    rw [append_cons] at hterminates ⊢
    cases newline with
    | true =>
      show parse_hunk_lines (ended_line (kind.symbol :: content) :: _) _ _ _ = _
      rw [parse_hunk_lines_line hfollows]
      exact ih hterminates
    | false =>
      show parse_hunk_lines
        (ended_line (kind.symbol :: content) :: ended_line no_newline_marker :: _) _ _ _ = _
      have hmarker : hunk_prefix.isPrefixOf (ended_line no_newline_marker) = false := by decide
      rw [parse_hunk_lines_line hfollows, parse_hunk_lines, hmarker, strip_patch_newline_ended,
        if_neg Bool.false_ne_true, if_pos rfl,
        PatchTermination.apply_marker_after earlier found rfl]
      exact ih hterminates

end Lines

variable {hunks : List Hunk}

theorem parse_hunks_cons {header : List Char} {lines rest : List (List Char)}
    {termination termination' : PatchTermination}
    (hheader : parse_hunk_header (strip_patch_newline header) =
      .ok (hunk.old_start, hunk.old_count, hunk.new_start, hunk.new_count))
    (hlines : parse_hunk_lines lines termination [] false = .ok (hunk.lines, termination', rest))
    (hcounted : hunk.Counted) :
    parse_hunks (header :: lines) termination hunks
      = parse_hunks rest termination' (hunks ++ [hunk]) := by
  have hvalid : validate_hunk_line_counts hunk.lines hunk.old_count hunk.new_count = .ok () :=
    validate_hunk_line_counts_spec.mpr ⟨hcounted.old_count, hcounted.new_count⟩
  rw [parse_hunks, hheader]
  dsimp only
  split
  · next error hread =>
    rw [hlines] at hread
    cases hread
  · next found found_termination found_rest hread =>
    rw [hlines] at hread
    obtain ⟨rfl, rfl, rfl⟩ := hread
    rw [hvalid]

/-- Numbers of a hunk that the parser can hold. -/
structure Hunk.Bounded (hunk : Hunk) : Prop where
  old_start : hunk.old_start ≤ usize_max
  old_count : hunk.old_count ≤ usize_max
  new_start : hunk.new_start ≤ usize_max
  new_count : hunk.new_count ≤ usize_max

theorem render_hunk_prefix (styled : HunkStyle × Hunk) :
    hunk_prefix.isPrefixOf (ended_line (render_hunk_header styled.1 styled.2)) = true := by
  have hshape : hunk_prefix = ['@', '@', ' '] := rfl
  have hstart : "@@ -".toList = ['@', '@', ' ', '-'] := rfl
  simp [hshape, ended_line, render_hunk_header, hstart]

/-- **Printed hunks are read back.** -/
theorem parse_hunks_render {styled : List (HunkStyle × Hunk)}
    (hbounded : ∀ style_hunk ∈ styled, style_hunk.2.Bounded)
    (hcounted : ∀ style_hunk ∈ styled, style_hunk.2.Counted)
    (hterminates : Terminates ((hunks ++ styled.map Prod.snd).flatMap Hunk.lines)) :
    parse_hunks ((styled.flatMap render_hunk).map ended_line)
        (.after (hunks.flatMap Hunk.lines)) hunks
      = .ok (hunks ++ styled.map Prod.snd) := by
  induction styled generalizing hunks with
  | nil =>
    rw [map_nil, append_nil]
    show parse_hunks [] _ _ = _
    rw [parse_hunks]
  | cons style_hunk styled ih =>
    obtain ⟨style, hunk⟩ := style_hunk
    have hbound := hbounded (style, hunk) mem_cons_self
    have hheader :
        parse_hunk_header (strip_patch_newline (ended_line (render_hunk_header style hunk)))
          = .ok (hunk.old_start, hunk.old_count, hunk.new_start, hunk.new_count) := by
      rw [strip_patch_newline_ended]
      exact parse_hunk_header_render hbound.old_start hbound.old_count hbound.new_start
        hbound.new_count
    have hnext : ∀ next ∈ ((styled.flatMap render_hunk).map ended_line).head?,
        hunk_prefix.isPrefixOf next = true := by
      intro next hmem
      cases styled with
      | nil => cases hmem
      | cons style_hunk styled =>
        obtain rfl : ended_line (render_hunk_header style_hunk.1 style_hunk.2) = next :=
          Option.some.inj hmem
        exact render_hunk_prefix style_hunk
    rw [map_cons, append_cons] at hterminates ⊢
    have hhunk : Terminates (hunks.flatMap Hunk.lines ++ ([] ++ hunk.lines)) := by
      rw [flatMap_append, flatMap_append, flatMap_singleton] at hterminates
      exact (pairwise_append.mp hterminates).1
    have hlines : parse_hunk_lines _ (.after (hunks.flatMap Hunk.lines ++ [])) [] false = _ :=
      parse_hunk_lines_render hhunk hnext
    rw [append_nil, nil_append] at hlines
    rw [flatMap_cons, map_append]
    refine (parse_hunks_cons hheader hlines (hcounted (style, hunk) mem_cons_self)).trans ?_
    have hrest := ih (fun p hp => hbounded p (mem_cons_of_mem _ hp))
      (fun p hp => hcounted p (mem_cons_of_mem _ hp)) hterminates
    rw [flatMap_append, flatMap_singleton] at hrest
    exact hrest

/-- A line of a diff has no line ending in it. -/
def PlainLine (line : List Char) : Prop := ∀ c ∈ line, c ≠ '\n' ∧ c ≠ '\r'

theorem forall_mem_of_all {p : Char → Prop} [DecidablePred p] {line : List Char}
    (h : line.all (fun c => decide (p c)) = true) : ∀ c ∈ line, p c := by
  simpa using h

theorem PlainLine.append {line line' : List Char} (h : PlainLine line) (h' : PlainLine line') :
    PlainLine (line ++ line') :=
  fun c hc => (mem_append.mp hc).elim (h c) (h' c)

theorem PlainLine.cons {line : List Char} (hc : c ≠ '\n' ∧ c ≠ '\r') (h : PlainLine line) :
    PlainLine (c :: line) :=
  forall_mem_cons.mpr ⟨hc, h⟩

theorem plainLine_render_range (omit_count : Bool) (start count : Nat) :
    PlainLine (render_range omit_count start count) := by
  intro c hc
  constructor
  · rintro rfl
    exact not_mem_render_range (by decide) (by decide) hc
  · rintro rfl
    exact not_mem_render_range (by decide) (by decide) hc

theorem plainLine_header (mark : List Char) (hmark : PlainLine mark) (header : FileHeader) :
    PlainLine (mark ++ (header.path ++ header.stamp)) :=
  hmark.append (PlainLine.append (fun c hc => (header.path_plain c hc).2) header.stamp_plain)

theorem plainLine_hunk_header (style : HunkStyle) (hunk : Hunk) :
    PlainLine (render_hunk_header style hunk) := by
  have hstart : PlainLine "@@ -".toList := forall_mem_of_all (by decide +kernel)
  have hend : PlainLine " @@".toList := forall_mem_of_all (by decide +kernel)
  exact hstart.append ((plainLine_render_range _ _ _).append
    (.cons (by decide) (.cons (by decide) ((plainLine_render_range _ _ _).append
      (hend.append style.heading_plain)))))

theorem plainLine_render_line (hplain : line.text.Plain) :
    ∀ rendered ∈ render_line line, PlainLine rendered := by
  refine forall_mem_cons.mpr ⟨.cons ?_ ?_, ?_⟩
  · cases line.kind <;> decide
  · intro c hc
    constructor
    · rintro rfl
      exact hplain.1 hc
    · rintro rfl
      exact hplain.2 hc
  · intro rendered hrendered
    split at hrendered
    · cases hrendered
    · rw [mem_singleton.mp hrendered]
      exact forall_mem_of_all (by decide +kernel)

section RoundTrip

variable {old new : LfText} {original modified : FileHeader} {styled : List (HunkStyle × Hunk)}

theorem plainLine_render_lines (h : Decomposes old new (styled.map Prod.snd)) :
    ∀ line ∈ render_lines original modified styled, PlainLine line := by
  have hminus : PlainLine "--- ".toList := forall_mem_of_all (by decide +kernel)
  have hplus : PlainLine "+++ ".toList := forall_mem_of_all (by decide +kernel)
  refine forall_mem_cons.mpr ⟨plainLine_header _ hminus original,
    forall_mem_cons.mpr ⟨plainLine_header _ hplus modified, fun line hline => ?_⟩⟩
  obtain ⟨⟨style, hunk⟩, hmem, hline⟩ := mem_flatMap.mp hline
  rcases mem_cons.mp hline with rfl | hline
  · exact plainLine_hunk_header style hunk
  · obtain ⟨patch_line, hpatch, hline⟩ := mem_flatMap.mp hline
    exact plainLine_render_line (h.plain hunk (mem_map_of_mem hmem) patch_line hpatch) line hline

theorem lines_ended {lines : List (List Char)} (h : ∀ line ∈ lines, PlainLine line) :
    Lines '\n' (lines.map ended_line) := by
  have hclosed : ∀ line ∈ lines.map ended_line, Closed '\n' line := by
    intro line hline
    obtain ⟨content, hcontent, rfl⟩ := mem_map.mp hline
    exact ⟨content, fun hmem => (h content hcontent _ hmem).1 rfl, rfl⟩
  have hlines := Lines.append hclosed .nil
  rwa [append_nil] at hlines

theorem Decomposes.bounded (h : Decomposes old new hunks) : ∀ hunk ∈ hunks, hunk.Bounded := by
  intro hunk hhunk
  have hbounds := h.spliced.bounds hunk.edit (mem_map_of_mem hhunk)
  have hold : hunk.edit.old.length = hunk.old_count := (h.counted hunk hhunk).old_count
  have hnew : hunk.edit.new.length = hunk.new_count := (h.counted hunk hhunk).new_count
  have hsource : hunk.edit.source = hunk_index hunk.old_start hunk.old_count := rfl
  have htarget : hunk.edit.target = hunk_index hunk.new_start hunk.new_count := rfl
  have hold_fits := old.length_text_lines
  have hnew_fits := new.length_text_lines
  rw [hold, hnew, hsource, htarget] at hbounds
  unfold hunk_index at hbounds
  split_ifs at hbounds <;> exact ⟨by omega, by omega, by omega, by omega⟩

theorem parse_unified_diff_render (h : Decomposes old new (styled.map Prod.snd)) :
    parse_unified_diff (render_diff original modified styled)
      = .ok ⟨styled.map Prod.snd, modified.path, original.path⟩ := by
  have hplain : ∀ line ∈ render_lines original modified styled, PlainLine line :=
    plainLine_render_lines h
  have hcr : '\r' ∉ render_diff original modified styled := by
    intro hmem
    obtain ⟨line, hline, hmem⟩ := mem_flatten.mp hmem
    obtain ⟨content, hcontent, rfl⟩ := mem_map.mp hline
    rcases mem_append.mp hmem with hmem | hmem
    · exact (hplain content hcontent _ hmem).2 rfl
    · exact absurd (mem_singleton.mp hmem) (by decide)
  have hsplit : split_inclusive '\n' (render_diff original modified styled)
      = (render_lines original modified styled).map ended_line :=
    (lines_ended hplain).split_flatten
  have hhunks : parse_hunks ((styled.flatMap render_hunk).map ended_line) .default []
      = .ok (styled.map Prod.snd) := by
    have hrender : parse_hunks _ (.after (flatMap Hunk.lines [])) [] = _ :=
      parse_hunks_render (fun p hp => h.bounded p.2 (mem_map_of_mem hp))
        (fun p hp => h.counted p.2 (mem_map_of_mem hp)) h.terminates
    exact hrender
  unfold parse_unified_diff
  rw [replace_pair_of_not_mem hcr]
  simp only [hcr, if_false, hsplit, render_lines, map_cons, getElem?_cons_zero,
    getElem?_cons_succ, parse_header_ended, drop_succ_cons, drop_zero, hhunks, bind,
    Except.bind, pure, Except.pure]

end RoundTrip

/-! ## Applying it -/

namespace HunkApplier

theorem hunk_start_ok (side : String) (h : count ≠ 0 → start ≠ 0) :
    hunk_start start count side = .ok (hunk_index start count) := by
  unfold hunk_start hunk_index
  by_cases hcount : count = 0
  · rw [if_pos hcount, if_pos hcount]
  · rw [if_neg hcount, if_neg hcount, if_neg (h hcount)]

/-- The applier with the range of a hunk noted. -/
def ranged (applier : HunkApplier) (hunk : Hunk) : HunkApplier :=
  { applier with previous_original_end := some (hunk.edit.source + hunk.old_count) }

variable {applier : HunkApplier}

theorem apply_hunk_ok {kept rest : List (List Char)} (hfits : Fits applier kept hunk rest)
    (hend : applier.AtEnd) (hold_start : hunk.old_count ≠ 0 → hunk.old_start ≠ 0)
    (hnew_start : hunk.new_count ≠ 0 → hunk.new_start ≠ 0)
    (hbound : hunk.edit.source + hunk.old_count ≤ usize_max)
    (hplain : ∀ line ∈ hunk.lines, line.text.Plain) :
    applier.apply_hunk hunk = .ok (applier.after_hunk kept hunk rest) := by
  have hsource : hunk_index hunk.old_start hunk.old_count = applier.source_index + kept.length :=
    hfits.source
  have htarget : hunk_index hunk.new_start hunk.new_count = applier.output_index + kept.length :=
    hfits.target
  have hbound' : ¬usize_max < hunk_index hunk.old_start hunk.old_count + hunk.old_count :=
    Nat.not_lt.mpr hbound
  have hbehind : applier.previous_original_end.any
      (fun limit => hunk_index hunk.old_start hunk.old_count < limit) = false := by
    rcases hend with hend | ⟨hend, -⟩
    · rw [hend]
      simp [hsource]
    · rw [hend]
      rfl
  have hvalidate : applier.validate_original_range (hunk_index hunk.old_start hunk.old_count)
      hunk.old_count = .ok (applier.ranged hunk) := by
    rw [validate_original_range, hbehind, if_neg Bool.false_ne_true, if_neg hbound']
    rfl
  have hcopy : (applier.ranged hunk).copy_source
      (hunk_index hunk.old_start hunk.old_count - (applier.ranged hunk).source_index)
      = .ok ((applier.ranged hunk).copied kept
          ((old_lines hunk.lines).map (TextLine.ended lf) ++ rest)) := by
    have hlength : hunk_index hunk.old_start hunk.old_count - (applier.ranged hunk).source_index
        = kept.length := by
      rw [hsource]
      exact Nat.add_sub_cancel_left _ _
    rw [hlength]
    exact copy_source_ok hfits.lines hfits.unterminated
  unfold apply_hunk copy_source_until
  simp only [hunk_start_ok _ hold_start, hunk_start_ok _ hnew_start, hvalidate, hcopy, bind,
    Except.bind]
  refine (if_neg (not_not.mpr htarget)).trans ?_
  exact apply_lines_ok (fun line hline => (hplain line hline).1) rfl

/-- **Hunks that edit the lines that remain are applied, and give the edited lines.** By
induction on the hunks. Behind a line without a newline nothing remains to be put out,
since it is the last line of the new text. -/
theorem apply_each_ok {source result : List TextLine}
    (hspliced : Spliced applier.source_index applier.output_index
      (hunks.map Hunk.edit) source result)
    (hlines : applier.source_lines = source.map (TextLine.ended lf)) (hlast : LastUnended result)
    (hterminated : applier.new_side_terminated = true → result = []) (hend : applier.AtEnd)
    (hbound : applier.source_index + source.length ≤ usize_max)
    (hcounted : ∀ hunk ∈ hunks, hunk.Counted)
    (hplain : ∀ hunk ∈ hunks, ∀ line ∈ hunk.lines, line.text.Plain)
    (hold_start : ∀ hunk ∈ hunks, hunk.old_count ≠ 0 → hunk.old_start ≠ 0)
    (hnew_start : ∀ hunk ∈ hunks, hunk.new_count ≠ 0 → hunk.new_start ≠ 0) :
    (applier.apply_each hunks >>= finish) = .ok (applier.output ++ join_lines lf result) := by
  induction hunks generalizing applier source result with
  | nil =>
    cases hspliced
    have hfinish : ¬(applier.new_side_terminated = true ∧ applier.source_lines ≠ []) := by
      rintro ⟨hend, hne⟩
      rw [hlines, hterminated hend] at hne
      exact hne rfl
    show applier.finish = _
    rw [finish, if_neg hfinish, hlines, flatten_map_ended]
  | cons hunk hunks ih =>
    generalize hedits : (hunk :: hunks).map Hunk.edit = edits at hspliced
    cases hspliced with
    | done => cases hedits
    | @edit _ _ edits rest result kept e hsource htarget later =>
      cases hedits
      have hcount := hcounted hunk mem_cons_self
      have hfits : Fits applier (kept.map (TextLine.ended lf)) hunk
          (rest.map (TextLine.ended lf)) := by
        refine ⟨by rw [length_map, hsource], by rw [length_map, htarget], ?_, ?_⟩
        · rw [hlines, map_append, map_append, append_assoc]
          rfl
        · intro hne
          rw [← Bool.not_eq_true]
          intro hend
          have hnil := hterminated hend
          rw [append_assoc] at hnil
          rw [(append_eq_nil_iff.mp hnil).1] at hne
          exact hne rfl
      have hold : hunk.edit.old.length = hunk.old_count := hcount.old_count
      have hsize : hunk.edit.source + hunk.edit.old.length + rest.length ≤ usize_max := by
        rw [length_append, length_append] at hbound
        omega
      have hhunk := apply_hunk_ok hfits hend (hold_start hunk mem_cons_self)
        (hnew_start hunk mem_cons_self) (by omega) (hplain hunk mem_cons_self)
      have hindex : (applier.after_hunk (kept.map (TextLine.ended lf)) hunk
          (rest.map (TextLine.ended lf))).source_index
          = hunk.edit.source + hunk.edit.old.length := by
        rw [hsource, ← length_map (f := TextLine.ended lf)]
        rfl
      have hindex' : (applier.after_hunk (kept.map (TextLine.ended lf)) hunk
          (rest.map (TextLine.ended lf))).output_index
          = hunk.edit.target + hunk.edit.new.length := by
        rw [htarget, ← length_map (f := TextLine.ended lf)]
        rfl
      rw [← hindex, ← hindex'] at later
      have hlast' := pairwise_append.mp hlast
      have hnext := ih later rfl hlast'.2.1 ?_ (.inl ?_) (by rw [hindex]; exact hsize)
        (fun p hp => hcounted p (mem_cons_of_mem _ hp))
        (fun p hp => hplain p (mem_cons_of_mem _ hp))
        (fun p hp => hold_start p (mem_cons_of_mem _ hp))
        (fun p hp => hnew_start p (mem_cons_of_mem _ hp))
      · rw [apply_each, hhunk]
        refine hnext.trans ?_
        show Except.ok (applier.output ++ (kept.map (TextLine.ended lf)).flatten
          ++ join_lines lf (new_lines hunk.lines) ++ join_lines lf result) = _
        simp only [flatten_map_ended, join_lines, flatMap_append, append_assoc]
        rfl
      · intro hterm
        rcases of_terminated_by hterm with hbefore | ⟨line, hline, hends⟩
        · exact (append_eq_nil_iff.mp (hterminated hbefore)).2
        · simp only [PatchLine.ends_new, Bool.and_eq_true, Bool.not_eq_true'] at hends
          have hmem : line.text ∈ kept ++ hunk.edit.new :=
            mem_append_right _
              (mem_map_of_mem (mem_filter.mpr ⟨hline, hends.1⟩))
          rw [eq_nil_iff_forall_not_mem]
          intro later' hlater
          have hnewline := hlast'.2.2 _ hmem _ hlater
          rw [hends.2] at hnewline
          cases hnewline
      · rw [hindex, hold]
        rfl

end HunkApplier

/-- **A printed diff, read and applied, gives the new text.** For every pair of texts with
plain newlines, every list of hunks that turns one into the other, and every way of
printing them. -/
theorem patch_round_trip (old new : LfText) (original modified : FileHeader)
    (styled : List (HunkStyle × Hunk)) (h : Decomposes old new (styled.map Prod.snd)) :
    ∃ diff, parse_unified_diff (render_diff original modified styled) = .ok diff
      ∧ apply_hunks old.chars diff.hunks = .ok new.chars := by
  refine ⟨_, parse_unified_diff_render h, ?_⟩
  have hbound : 0 + (text_lines old.chars).length ≤ usize_max := by
    rw [Nat.zero_add]
    exact old.length_text_lines
  have happly : ((HunkApplier.new old.chars).apply_each _ >>= HunkApplier.finish) = .ok _ :=
    HunkApplier.apply_each_ok h.spliced old.split_inclusive_eq new.lastUnended
      (fun hterminated => nomatch hterminated) (.inr ⟨rfl, rfl⟩) hbound h.counted h.plain
      h.old_start h.new_start
  rw [new.join_text_lines] at happly
  exact happly

/-- Two texts without a final newline. -/
def sample_old : LfText := ⟨"a\nb".toList, by decide +kernel, by decide +kernel⟩
def sample_new : LfText := ⟨"a\nc\nd".toList, by decide +kernel, by decide +kernel⟩

def sample_header : FileHeader :=
  ⟨"a/f".toList, "\t2026".toList, by decide +kernel, forall_mem_of_all (by decide +kernel),
    by decide +kernel, forall_mem_of_all (by decide +kernel)⟩

def sample_style : HunkStyle := ⟨true, false, " fn".toList, forall_mem_of_all (by decide +kernel)⟩

theorem patch_round_trip_replacement :
    ∃ diff, parse_unified_diff
        (render_diff sample_header sample_header [(sample_style, sample_replacement)]) = .ok diff
      ∧ apply_hunks "a\nb".toList diff.hunks = .ok "a\nc\nd".toList := by
  have hspliced : Spliced 0 0 [sample_replacement.edit] (text_lines "a\nb".toList)
      (text_lines "a\nc\nd".toList) :=
    Spliced.edit [] sample_replacement.edit rfl rfl (.done [])
  have hdecomposes : Decomposes sample_old sample_new [sample_replacement] := by
    refine ⟨hspliced, ?_, by decide, by decide⟩
    intro hunk hhunk
    rw [mem_singleton.mp hhunk]
    exact ⟨rfl, rfl⟩
  exact patch_round_trip sample_old sample_new sample_header sample_header
    [(sample_style, sample_replacement)] hdecomposes

end Agentty.Harness
