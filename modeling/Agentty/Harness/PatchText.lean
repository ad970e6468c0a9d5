/-
The lines of a text, and what is read of a patch.

A text is its list of lines, each with its content and whether a newline ends it; the
line ending of the file, with or without a carriage return, is the same throughout. What
`parse_unified_diff` accepts has hunks whose counts are right, and ends each side of the
file at most once.
-/
import Agentty.Query
import Agentty.Harness.Patch

set_option autoImplicit false

namespace Agentty.Harness

open Text List

/-! ## The lines of a text -/

/-- A line of a text with plain newlines. -/
def text_line (line : List Char) : TextLine := ⟨strip_patch_newline line, ends_with_newline line⟩

/-- The lines of a text with plain newlines or with carriage returns before them. -/
def text_lines (text : List Char) : List TextLine :=
  (split_inclusive '\n' (replace_pair '\r' '\n' '\n' text)).map text_line

/-- A line with the line ending of its file. -/
def TextLine.ended (ending : List Char) (line : TextLine) : List Char :=
  line.content ++ if line.newline then ending else []

def join_lines (ending : List Char) (lines : List TextLine) : List Char :=
  lines.flatMap (TextLine.ended ending)

/-- The content of a line has no line ending in it. -/
def TextLine.Plain (line : TextLine) : Prop := '\n' ∉ line.content ∧ '\r' ∉ line.content

theorem text_line_closed (content : List Char) :
    text_line (content ++ ['\n']) = ⟨content, true⟩ := by
  simp [text_line, strip_patch_newline, ends_with_newline]

variable {line : List Char}

theorem text_line_unclosed (h : '\n' ∉ line) : text_line line = ⟨line, false⟩ := by
  have hlast : ends_with_newline line = false :=
    decide_eq_false fun hlast => h (mem_of_getLast? hlast)
  simp [text_line, strip_patch_newline, hlast]

theorem text_line_ended {line : TextLine} (h : '\n' ∉ line.content) :
    text_line (line.ended lf) = line := by
  obtain ⟨content, newline⟩ := line
  cases newline with
  | true => exact text_line_closed content
  | false =>
    have hended : TextLine.ended lf ⟨content, false⟩ = content := append_nil _
    rw [hended]
    exact text_line_unclosed h

theorem ended_text_line (h : Closed '\n' line ∨ Unclosed '\n' line) :
    (text_line line).ended lf = line := by
  rcases h with ⟨content, -, rfl⟩ | ⟨-, hmem⟩
  · rw [text_line_closed]; rfl
  · rw [text_line_unclosed hmem]; exact append_nil _

theorem source_line_matches_iff {source : List Char} {expected : TextLine} :
    source_line_matches source expected = true ↔ text_line source = expected := by
  obtain ⟨content, newline⟩ := expected
  simp [source_line_matches, text_line, and_comm]

/-! ## Line endings -/

theorem has_lone_cr_cons (x y : Char) (rest : List Char) :
    has_lone_cr (x :: y :: rest) = (decide (x = '\r' ∧ y ≠ '\n') || has_lone_cr (y :: rest)) := by
  simp [has_lone_cr]

theorem has_lone_cr_singleton (x : Char) : has_lone_cr [x] = decide (x = '\r') := by
  simp [has_lone_cr]

theorem has_crlf_cons (x y : Char) (rest : List Char) :
    has_crlf (x :: y :: rest) = (decide (x = '\r' ∧ y = '\n') || has_crlf (y :: rest)) := by
  simp [has_crlf]

/-- `has_bare_lf` behind a character. -/
def bare_lf_after (previous : Option Char) (text : List Char) : Bool :=
  (text.zip (previous :: text.map some)).any fun pair => pair.1 = '\n' ∧ pair.2 ≠ some '\r'

theorem bare_lf_after_cons (previous : Option Char) (x : Char) (rest : List Char) :
    bare_lf_after previous (x :: rest)
      = (decide (x = '\n' ∧ previous ≠ some '\r') || bare_lf_after (some x) rest) := by
  simp [bare_lf_after]

variable {text : List Char}

theorem not_mem_replace_pair (h : has_lone_cr text = false) :
    '\r' ∉ replace_pair '\r' '\n' '\n' text := by
  induction text using replace_pair.induct (a := '\r') (b := '\n') with
  | case1 x y rest hxy ih =>
    obtain ⟨rfl, rfl⟩ := hxy
    have hrest : has_lone_cr rest = false := by
      cases rest with
      | nil => rfl
      | cons z rest =>
        rw [has_lone_cr_cons, has_lone_cr_cons] at h
        simpa using h
    simpa [replace_pair] using ih hrest
  | case2 x y rest hxy ih =>
    rw [has_lone_cr_cons, Bool.or_eq_false_iff, decide_eq_false_iff_not] at h
    have hx : '\r' ≠ x := by
      rintro rfl
      exact hxy ⟨rfl, by_contra fun hy => h.1 ⟨rfl, hy⟩⟩
    rw [replace_pair, if_neg hxy]
    simpa [hx] using ih h.2
  | case3 rest hrest =>
    rcases rest with _ | ⟨x, _ | ⟨y, rest⟩⟩
    · exact not_mem_nil
    · rw [has_lone_cr_singleton, decide_eq_false_iff_not] at h
      simpa [replace_pair] using Ne.symm h
    · exact absurd rfl (hrest x y rest)

theorem not_mem_of_no_crlf (hlone : has_lone_cr text = false) (hcrlf : has_crlf text = false) :
    '\r' ∉ text := by
  induction text with
  | nil => exact not_mem_nil
  | cons x text ih =>
    cases text with
    | nil =>
      rw [has_lone_cr_singleton, decide_eq_false_iff_not] at hlone
      simpa using Ne.symm hlone
    | cons y rest =>
      rw [has_lone_cr_cons, Bool.or_eq_false_iff, decide_eq_false_iff_not] at hlone
      rw [has_crlf_cons, Bool.or_eq_false_iff, decide_eq_false_iff_not] at hcrlf
      have hx : '\r' ≠ x := by
        rintro rfl
        by_cases hy : y = '\n'
        · exact hcrlf.1 ⟨rfl, hy⟩
        · exact hlone.1 ⟨rfl, hy⟩
      exact fun hmem => (mem_cons.mp hmem).elim hx (ih hlone.2 hcrlf.2)

theorem replace_char_cons (a c : Char) (rep s : List Char) :
    replace_char a rep (c :: s) = (if c = a then rep else [c]) ++ replace_char a rep s := rfl

theorem replace_char_replace_pair {previous : Option Char} (hprevious : previous ≠ some '\r')
    (hlone : has_lone_cr text = false) (hbare : bare_lf_after previous text = false) :
    replace_char '\n' crlf (replace_pair '\r' '\n' '\n' text) = text := by
  induction text using replace_pair.induct (a := '\r') (b := '\n') generalizing previous with
  | case1 x y rest hxy ih =>
    obtain ⟨rfl, rfl⟩ := hxy
    rw [bare_lf_after_cons, bare_lf_after_cons, Bool.or_eq_false_iff, Bool.or_eq_false_iff] at hbare
    have hrest : has_lone_cr rest = false := by
      cases rest with
      | nil => rfl
      | cons z rest =>
        rw [has_lone_cr_cons, has_lone_cr_cons] at hlone
        simpa using hlone
    rw [replace_pair, if_pos ⟨rfl, rfl⟩, replace_char_cons, if_pos rfl,
      ih (by decide) hrest hbare.2.2]
    rfl
  | case2 x y rest hxy ih =>
    rw [has_lone_cr_cons, Bool.or_eq_false_iff, decide_eq_false_iff_not] at hlone
    rw [bare_lf_after_cons, Bool.or_eq_false_iff, decide_eq_false_iff_not] at hbare
    have hcr : x ≠ '\r' := by
      rintro rfl
      exact hxy ⟨rfl, by_contra fun hy => hlone.1 ⟨rfl, hy⟩⟩
    have hlf : x ≠ '\n' := fun hx => hbare.1 ⟨hx, hprevious⟩
    rw [replace_pair, if_neg hxy, replace_char_cons, if_neg hlf,
      ih (by simpa using hcr) hlone.2 hbare.2]
    rfl
  | case3 rest hrest =>
    rcases rest with _ | ⟨x, _ | ⟨y, rest⟩⟩
    · rfl
    · rw [bare_lf_after_cons, Bool.or_eq_false_iff, decide_eq_false_iff_not] at hbare
      have hlf : x ≠ '\n' := fun hx => hbare.1 ⟨hx, hprevious⟩
      simp [replace_pair, replace_char, hlf]
    · exact absurd rfl (hrest x y rest)

theorem replace_pair_replace_char (h : '\r' ∉ text) :
    replace_pair '\r' '\n' '\n' (replace_char '\n' crlf text) = text := by
  induction text with
  | nil => rfl
  | cons c text ih =>
    obtain ⟨hc, htext⟩ := not_or.mp (mt mem_cons.mpr h)
    rw [replace_char_cons]
    by_cases hlf : c = '\n'
    · rw [if_pos hlf, hlf]
      show replace_pair '\r' '\n' '\n' ('\r' :: '\n' :: replace_char '\n' crlf text) = _
      rw [replace_pair, if_pos ⟨rfl, rfl⟩, ih htext]
    · rw [if_neg hlf]
      show replace_pair '\r' '\n' '\n' (c :: replace_char '\n' crlf text) = _
      cases hrest : replace_char '\n' crlf text with
      | nil =>
        rw [hrest] at ih
        rw [← ih htext]
        rfl
      | cons d rest =>
        rw [hrest] at ih
        rw [replace_pair, if_neg fun hpair => hc hpair.1.symm, ih htext]

/-- The text a file gets back with its line ending. -/
def with_ending (ending output : List Char) : List Char :=
  if ending = crlf then replace_char '\n' crlf output else output

theorem replace_char_append (a : Char) (rep s t : List Char) :
    replace_char a rep (s ++ t) = replace_char a rep s ++ replace_char a rep t :=
  flatMap_append

theorem replace_char_of_not_mem {a : Char} {rep s : List Char} (h : a ∉ s) :
    replace_char a rep s = s := by
  induction s with
  | nil => rfl
  | cons c s ih =>
    obtain ⟨hc, hs⟩ := not_or.mp (mt mem_cons.mpr h)
    rw [replace_char_cons, if_neg (Ne.symm hc), ih hs]
    rfl

theorem ended_crlf (h : Closed '\n' line ∨ Unclosed '\n' line) :
    (text_line line).ended crlf = replace_char '\n' crlf line := by
  rcases h with ⟨content, hmem, rfl⟩ | ⟨-, hmem⟩
  · rw [text_line_closed, replace_char_append, replace_char_of_not_mem hmem]
    rfl
  · rw [text_line_unclosed hmem, replace_char_of_not_mem hmem]
    exact append_nil _

/-- **Lines with an ending give the text with that ending, and are its lines.** -/
theorem text_lines_with_ending {ending : List Char} {pieces : List (List Char)}
    (hending : ending = lf ∨ ending = crlf) (hlines : Lines '\n' pieces)
    (hplain : '\r' ∉ pieces.flatten) :
    text_lines (with_ending ending pieces.flatten) = pieces.map text_line
    ∧ with_ending ending pieces.flatten = join_lines ending (pieces.map text_line) := by
  have hne : lf ≠ crlf := by decide
  have heach : ∀ line ∈ pieces, Closed '\n' line ∨ Unclosed '\n' line := fun _ hline =>
      hlines.mem hline
  rcases hending with rfl | rfl
  · rw [with_ending, if_neg hne]
    constructor
    · rw [text_lines, replace_pair_of_not_mem hplain, hlines.split_flatten]
    · rw [join_lines, flatMap_map, flatMap_congr fun line hline =>
      ended_text_line (heach line hline)]
      exact flatMap_id.symm
  · rw [with_ending, if_pos rfl]
    constructor
    · rw [text_lines, replace_pair_replace_char hplain, hlines.split_flatten]
    · rw [join_lines, flatMap_map, flatMap_congr fun line hline =>
      ended_crlf (heach line hline)]
      clear hplain hlines heach
      induction pieces with
      | nil => rfl
      | cons line pieces ih =>
        rw [flatten_cons, replace_char_append, ih, flatMap_cons]

theorem normalize_line_endings_spec {path ending normalized : List Char}
    (h : normalize_line_endings path text = .ok (ending, normalized)) :
    (ending = lf ∨ ending = crlf) ∧ '\r' ∉ normalized ∧ text = with_ending ending normalized := by
  unfold normalize_line_endings at h
  split at h
  · cases h
  rename_i hmixed
  have hlone : has_lone_cr text = false := by
    rw [← Bool.not_eq_true]
    exact fun hlone => hmixed (.inl hlone)
  split at h
  · next hcrlf =>
    have hbare : has_bare_lf text = false := by
      rw [← Bool.not_eq_true]
      exact fun hbare => hmixed (.inr ⟨hcrlf, hbare⟩)
    obtain ⟨rfl, rfl⟩ := h
    refine ⟨.inr rfl, not_mem_replace_pair hlone, ?_⟩
    exact (replace_char_replace_pair (by simp) hlone hbare).symm
  · next hcrlf =>
    obtain ⟨rfl, rfl⟩ := h
    exact ⟨.inl rfl, not_mem_of_no_crlf hlone (Bool.not_eq_true _ ▸ hcrlf), rfl⟩

/-! ## What is read of a patch -/

/-- The lines of the two sides of a hunk. -/
def old_lines (lines : List PatchLine) : List TextLine :=
  (lines.filter PatchLine.old_side).map PatchLine.text

def new_lines (lines : List PatchLine) : List TextLine :=
  (lines.filter PatchLine.new_side).map PatchLine.text

/-- The position of a hunk on one side. -/
def hunk_index (start count : Nat) : Nat := if count = 0 then start else start - 1

/-- A hunk as an edit of the lines of the file. -/
def Hunk.edit (hunk : Hunk) : Edit TextLine where
  source := hunk_index hunk.old_start hunk.old_count
  target := hunk_index hunk.new_start hunk.new_count
  old := old_lines hunk.lines
  new := new_lines hunk.lines

/-- The counts of a hunk are those of its lines. -/
structure Hunk.Counted (hunk : Hunk) : Prop where
  old_count : (old_lines hunk.lines).length = hunk.old_count
  new_count : (new_lines hunk.lines).length = hunk.new_count

/-- Lines that a marker has ended. -/
def PatchLine.ends_old (line : PatchLine) : Bool := line.old_side && !line.text.newline
def PatchLine.ends_new (line : PatchLine) : Bool := line.new_side && !line.text.newline

/-- After a line without a newline, its side of the file has no more lines. -/
def Follows (line : PatchLine) (kind : PatchLineKind) : Prop :=
  (line.ends_old = true → kind = .Addition) ∧ (line.ends_new = true → kind = .Removal)

/-- The lines of a patch end each side of the file at most once. -/
def Terminates (lines : List PatchLine) : Prop :=
  lines.Pairwise fun line later => Follows line later.kind

/-- The sides that lines have ended. -/
def PatchTermination.after (lines : List PatchLine) : PatchTermination where
  new_side := lines.any PatchLine.ends_new
  old_side := lines.any PatchLine.ends_old

theorem PatchTermination.after_snoc {line : PatchLine} (h : line.text.newline = true)
    (lines : List PatchLine) : after (lines ++ [line]) = after lines := by
  simp [after, PatchLine.ends_new, PatchLine.ends_old, h]

theorem PatchTermination.validate_line_after {lines : List PatchLine} {kind : PatchLineKind} :
    (after lines).validate_line kind = .ok () ↔ ∀ line ∈ lines, Follows line kind := by
  unfold validate_line
  rw [ite_eq_right_iff]
  constructor
  · intro h line hline
    constructor
    · intro hends
      by_contra hkind
      exact nomatch h (.inl ⟨any_eq_true.mpr ⟨line, hline, hends⟩, hkind⟩)
    · intro hends
      by_contra hkind
      exact nomatch h (.inr ⟨any_eq_true.mpr ⟨line, hline, hends⟩, hkind⟩)
  · rintro h (⟨hside, hkind⟩ | ⟨hside, hkind⟩)
    · obtain ⟨line, hline, hends⟩ := any_eq_true.mp hside
      exact absurd ((h line hline).1 hends) hkind
    · obtain ⟨line, hline, hends⟩ := any_eq_true.mp hside
      exact absurd ((h line hline).2 hends) hkind

/-- A line whose newline a marker has taken. -/
def PatchLine.unended (line : PatchLine) : PatchLine :=
  { line with text := { line.text with newline := false } }

/-- A marker ends the side, or the sides, of the line before it. -/
theorem PatchTermination.apply_marker_after (earlier init : List PatchLine) {line : PatchLine}
    (hnewline : line.text.newline = true) :
    (after (earlier ++ (init ++ [line]))).apply_marker (init ++ [line]) false
      = .ok (after (earlier ++ (init ++ [line.unended])), init ++ [line.unended]) := by
  obtain ⟨kind, content, newline⟩ := line
  cases kind <;>
    simp [apply_marker, after, PatchLine.unended, PatchLine.ends_new, PatchLine.ends_old,
      PatchLine.new_side, PatchLine.old_side]

/-- What has been read of the lines of a hunk. -/
structure Read (earlier found : List PatchLine) (termination : PatchTermination) : Prop where
  termination : termination = .after (earlier ++ found)
  terminates : Terminates (earlier ++ found)
  plain : ∀ line ∈ found, line.text.Plain

variable {earlier : List PatchLine} {termination : PatchTermination}

theorem Read.snoc {found : List PatchLine} (h : Read earlier found termination) {line : PatchLine}
    (hplain : line.text.Plain) (hnewline : line.text.newline = true)
    (hvalid : termination.validate_line line.kind = .ok ()) :
    Read earlier (found ++ [line]) termination := by
  rw [h.termination, PatchTermination.validate_line_after] at hvalid
  refine ⟨?_, ?_, ?_⟩
  · rw [h.termination, ← append_assoc, PatchTermination.after_snoc hnewline]
  · rw [Terminates, ← append_assoc, pairwise_append]
    refine ⟨h.terminates, pairwise_singleton _ _, fun earlier' hearlier later hlater => ?_⟩
    rw [mem_singleton.mp hlater]
    exact hvalid earlier' hearlier
  · intro line' hline'
    rcases mem_append.mp hline' with hline' | hline'
    · exact h.plain line' hline'
    · rw [mem_singleton.mp hline']
      exact hplain

theorem Read.marked {init : List PatchLine} {line : PatchLine}
    (h : Read earlier (init ++ [line]) termination) :
    Read earlier (init ++ [line.unended]) (.after (earlier ++ (init ++ [line.unended]))) := by
  refine ⟨rfl, ?_, ?_⟩
  · have hterminates := h.terminates
    rw [Terminates, ← append_assoc, pairwise_append] at hterminates ⊢
    refine ⟨hterminates.1, pairwise_singleton _ _, fun earlier' hearlier later hlater => ?_⟩
    rw [mem_singleton.mp hlater]
    exact hterminates.2.2 earlier' hearlier line (mem_singleton_self _)
  · intro line' hline'
    rcases mem_append.mp hline' with hline' | hline'
    · exact h.plain line' (mem_append_left _ hline')
    · rw [mem_singleton.mp hline']
      exact h.plain line (mem_append_right _ (mem_singleton_self _))

variable {patch_line : PatchLine}

theorem parse_patch_line_spec (h : parse_patch_line line = .ok patch_line) :
    patch_line.text.newline = true ∧ ∀ c ∈ patch_line.text.content, c ∈ line := by
  unfold parse_patch_line at h
  split at h
  · cases h
  rename_i c content
  have hcontent : ∀ d ∈ content, d ∈ c :: content := fun d hd => mem_cons_of_mem _ hd
  split_ifs at h
  all_goals cases h
  all_goals exact ⟨rfl, hcontent⟩

theorem not_mem_strip_patch_newline (h : Closed '\n' line ∨ Unclosed '\n' line) :
    '\n' ∉ strip_patch_newline line := by
  rcases h with ⟨content, hmem, rfl⟩ | ⟨-, hmem⟩
  · have hcontent : strip_patch_newline (content ++ ['\n']) = content :=
      congrArg TextLine.content (text_line_closed content)
    rwa [hcontent]
  · have hcontent : strip_patch_newline line = line :=
      congrArg TextLine.content (text_line_unclosed hmem)
    rwa [hcontent]

theorem mem_of_mem_strip_patch_newline {c : Char} (h : c ∈ strip_patch_newline line) :
    c ∈ line := by
  unfold strip_patch_newline at h
  split at h
  · exact mem_of_mem_dropLast h
  · exact h

/-- Lines of a patch, as `split_inclusive` gives them. -/
structure PatchText (lines : List (List Char)) : Prop where
  each : ∀ line ∈ lines, Closed '\n' line ∨ Unclosed '\n' line
  plain : ∀ line ∈ lines, '\r' ∉ line

variable {lines : List (List Char)}

theorem PatchText.tail (h : PatchText (line :: lines)) : PatchText lines :=
  ⟨fun l hl => h.each l (mem_cons_of_mem _ hl), fun l hl => h.plain l (mem_cons_of_mem _ hl)⟩

theorem PatchText.head (h : PatchText (line :: lines))
    (hparse : parse_patch_line (strip_patch_newline line) = .ok patch_line) :
    patch_line.text.Plain := by
  have hcontent := (parse_patch_line_spec hparse).2
  constructor
  · intro hmem
    exact not_mem_strip_patch_newline (h.each line mem_cons_self) (hcontent _ hmem)
  · intro hmem
    exact h.plain line mem_cons_self (mem_of_mem_strip_patch_newline (hcontent _ hmem))

/-- The lines of a hunk, read behind earlier lines of the patch. -/
theorem parse_hunk_lines_spec {hunk_lines found : List PatchLine} {rest : List (List Char)}
    {last : PatchTermination} {marker : Bool}
    (h : parse_hunk_lines lines termination hunk_lines marker = .ok (found, last, rest))
    (hread : Read earlier hunk_lines termination)
    (hmarker : marker = false → ∀ line ∈ hunk_lines.getLast?, line.text.newline = true)
    (htext : PatchText lines) : Read earlier found last ∧ PatchText rest := by
  fun_induction parse_hunk_lines lines termination hunk_lines marker with
  | case1 | case2 =>
    obtain ⟨rfl, rfl, rfl⟩ := h
    exact ⟨hread, htext⟩
  | case3 | case5 | case6 => cases h
  | case4 next lines termination hunk_lines marker hhunk hmark termination' hunk_lines' happly ih =>
    -- a marker after a line that has its newline
    cases hmarked : marker with
    | true =>
      rw [hmarked] at happly
      cases happly
    | false =>
      rw [hmarked] at happly
      rcases eq_nil_or_concat' hunk_lines with rfl | ⟨init, line, rfl⟩
      · cases marker <;> cases happly
      · have hnewline : line.text.newline = true := hmarker hmarked line (by simp)
        rw [hread.termination, PatchTermination.apply_marker_after earlier init hnewline] at happly
        obtain ⟨rfl, rfl⟩ := happly
        exact ih h hread.marked (by simp) htext.tail
  | case7 next lines termination hunk_lines marker hhunk hmark patch_line hparse hvalid ih =>
    have hnewline := (parse_patch_line_spec hparse).1
    refine ih h (hread.snoc (htext.head hparse) hnewline hvalid) ?_ htext.tail
    intro _ line hline
    obtain rfl : patch_line = line := by simpa using hline
    exact hnewline

/-- What is known of the hunks of a patch. -/
structure Wellformed (hunks : List Hunk) : Prop where
  counted : ∀ hunk ∈ hunks, hunk.Counted
  terminates : Terminates (hunks.flatMap Hunk.lines)
  plain : ∀ hunk ∈ hunks, ∀ line ∈ hunk.lines, line.text.Plain

theorem validate_hunk_line_counts_spec {lines : List PatchLine} {old_count new_count : Nat} :
    validate_hunk_line_counts lines old_count new_count = .ok ()
      ↔ (old_lines lines).length = old_count ∧ (new_lines lines).length = new_count := by
  unfold validate_hunk_line_counts
  simp only [old_lines, new_lines, length_map]
  split
  · next h =>
    constructor
    · exact fun h => nomatch h
    · rintro ⟨hold, hnew⟩
      exact absurd h (by simp [hold, hnew])
  · next h => simpa [not_or] using h

theorem parse_hunks_spec {hunks found : List Hunk}
    (h : parse_hunks lines termination hunks = .ok found)
    (htermination : termination = .after (hunks.flatMap Hunk.lines)) (hhunks : Wellformed hunks)
    (htext : PatchText lines) : Wellformed found := by
  fun_induction parse_hunks lines termination hunks with
  | case1 termination hunks =>
    obtain rfl : hunks = found := by simpa using h
    exact hhunks
  | case2 | case3 | case4 => cases h
  | case5 termination hunks header lines old_start old_count new_start new_count hheader hunk_lines
      termination' rest hparse hvalid ih =>
      have hempty : Read (hunks.flatMap Hunk.lines) [] termination :=
        ⟨by rw [htermination, append_nil], by simpa using hhunks.terminates,
          fun _ hmem => nomatch hmem⟩
      obtain ⟨hread, hrest⟩ :=
        parse_hunk_lines_spec hparse hempty (fun _ _ hmem => nomatch hmem) htext.tail
      obtain ⟨hold, hnew⟩ := validate_hunk_line_counts_spec.mp hvalid
      refine ih h ?_ ⟨?_, ?_, ?_⟩ hrest
      · rw [hread.termination, flatMap_append, flatMap_singleton]
      · intro hunk hhunk
        rcases mem_append.mp hhunk with hhunk | hhunk
        · exact hhunks.counted hunk hhunk
        · rw [mem_singleton.mp hhunk]
          exact ⟨hold, hnew⟩
      · rw [flatMap_append, flatMap_singleton]
        exact hread.terminates
      · intro hunk hhunk
        rcases mem_append.mp hhunk with hhunk | hhunk
        · exact hhunks.plain hunk hhunk
        · rw [mem_singleton.mp hhunk]
          exact hread.plain

/-- **A patch that is read has counted hunks, and ends each side of the file once.** -/
theorem parse_unified_diff_wellformed {patch : List Char} {diff : UnifiedDiff}
    (h : parse_unified_diff patch = .ok diff) : Wellformed diff.hunks := by
  unfold parse_unified_diff at h
  dsimp only at h
  split at h
  · cases h
  rename_i hplain
  obtain ⟨original_path, -, h⟩ := Query.bind_eq_ok.mp h
  obtain ⟨modified_path, -, h⟩ := Query.bind_eq_ok.mp h
  obtain ⟨hunks, hhunks, h⟩ := Query.bind_eq_ok.mp h
  obtain rfl : UnifiedDiff.mk hunks modified_path original_path = diff := by
    simpa [pure, Except.pure] using h
  have hlines := lines_split_inclusive '\n' (replace_pair '\r' '\n' '\n' patch)
  refine parse_hunks_spec hhunks rfl ⟨fun _ hmem => (nomatch hmem), List.Pairwise.nil,
    fun _ hmem => (nomatch hmem)⟩ ⟨fun line hline => ?_, fun line hline hmem => ?_⟩
  · exact hlines.mem (mem_of_mem_drop hline)
  · apply hplain
    rw [← flatten_split_inclusive '\n' (replace_pair '\r' '\n' '\n' patch)]
    exact mem_flatten_of_mem (mem_of_mem_drop hline) hmem

end Agentty.Harness
