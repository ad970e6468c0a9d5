/-
What applying a patch does to the lines of a file.

A hunk is an edit of the lines of the file: its old side at the original position becomes
its new side at the modified position. When `apply_unified_diff` succeeds, the lines of the
result are the lines of the source with the edits of the hunks.

Two things stand in the way of this in general. The applier copies a last source line
without a newline like any other, so that a hunk that only adds lines behind it appends
to that line; and an added line without text and without a newline leaves no trace in
the result. `Separated` leaves the two out, and no more.
-/
import Agentty.Harness.PatchText

set_option autoImplicit false

namespace Agentty.Harness

open Text List

/-- The old side of a hunk ends with the given line of the source. -/
def Hunk.Takes (hunk : Hunk) (n : Nat) : Prop :=
  hunk.old_count ≠ 0 ∧ hunk.edit.source + hunk.old_count = n

/-! ## What the applier does -/

namespace HunkApplier

/-- The applier after copying lines, with those that remain. -/
def copied (applier : HunkApplier) (kept rest : List (List Char)) : HunkApplier :=
  { applier with
    output := applier.output ++ kept.flatten
    output_index := applier.output_index + kept.length
    source_index := applier.source_index + kept.length
    source_lines := rest }

theorem copied_nil (applier : HunkApplier) : applier.copied [] applier.source_lines = applier := by
  simp [copied]

theorem copied_cons (applier : HunkApplier) (line : List Char) (kept rest : List (List Char)) :
    applier.copied (line :: kept) rest
      = (applier.copied [line] (kept ++ rest)).copied kept rest := by
  simp [copied, Nat.add_assoc, Nat.add_comm 1]

variable {applier : HunkApplier}

theorem copy_source_succ {line : List Char} {lines : List (List Char)}
    (hterminated : applier.new_side_terminated = false)
    (hlines : applier.source_lines = line :: lines) (n : Nat) :
    applier.copy_source (n + 1) = (applier.copied [line] lines).copy_source n := by
  rw [copy_source, hterminated, hlines]
  simp [copied, hterminated]

variable {rest : List (List Char)}

/-- Copying takes the next lines, -/
theorem copy_source_ok {kept : List (List Char)} (hsource : applier.source_lines = kept ++ rest)
    (hterminated : kept ≠ [] → applier.new_side_terminated = false) :
    applier.copy_source kept.length = .ok (applier.copied kept rest) := by
  induction kept generalizing applier with
  | nil =>
    rw [nil_append] at hsource
    rw [← hsource, copied_nil]
    rfl
  | cons line kept ih =>
    have hopen := hterminated (by simp)
    have hnext : applier.source_lines = line :: (kept ++ rest) := hsource
    have hcopy : (applier.copied [line] (kept ++ rest)).copy_source kept.length = _ :=
      ih rfl fun _ => hopen
    rw [length_cons, copy_source_succ hopen hnext, hcopy, ← copied_cons]

variable {applier' : HunkApplier}

/-- and fails when there are too few, or behind a line that ends the file. -/
theorem of_copy_source {n : Nat} (h : applier.copy_source n = .ok applier') :
    ∃ kept rest, kept.length = n ∧ applier.source_lines = kept ++ rest
      ∧ (kept ≠ [] → applier.new_side_terminated = false) ∧
        applier' = applier.copied kept rest := by
  induction n generalizing applier with
  | zero =>
    obtain rfl : applier = applier' := by simpa [copy_source] using h
    exact ⟨[], applier.source_lines, rfl, rfl, fun hne => absurd rfl hne, (copied_nil applier).symm⟩
  | succ n ih =>
    cases hterminated : applier.new_side_terminated with
    | true =>
      rw [copy_source, hterminated] at h
      cases h
    | false =>
      cases hlines : applier.source_lines with
      | nil =>
        rw [copy_source, hterminated, hlines] at h
        cases h
      | cons line lines =>
        rw [copy_source_succ hterminated hlines] at h
        obtain ⟨kept, rest, hlength, hsource, -, rfl⟩ := ih h
        obtain rfl : lines = kept ++ rest := hsource
        exact ⟨line :: kept, rest, by rw [length_cons, hlength], rfl, fun _ => rfl,
          (copied_cons applier line kept rest).symm⟩

/-- Whether the new side ends with one of the lines. -/
def terminated_by (terminated : Bool) (lines : List PatchLine) : Bool :=
  lines.foldl (fun terminated line => if line.new_side then !line.text.newline else terminated)
    terminated

/-- The applier after the lines of a hunk, with the source lines that remain. -/
def advanced (applier : HunkApplier) (lines : List PatchLine) (rest : List (List Char)) :
    HunkApplier :=
  { applier with
    new_side_terminated := terminated_by applier.new_side_terminated lines
    output := applier.output ++ join_lines lf (new_lines lines)
    output_index := applier.output_index + (new_lines lines).length
    source_index := applier.source_index + (old_lines lines).length
    source_lines := rest }

theorem advanced_nil (applier : HunkApplier) :
    applier.advanced [] applier.source_lines = applier := by
  simp [advanced, terminated_by, new_lines, old_lines, join_lines]

theorem advanced_cons (applier : HunkApplier) (line : PatchLine) (lines : List PatchLine)
    (between rest : List (List Char)) :
    applier.advanced (line :: lines) rest
      = (applier.advanced [line] between).advanced lines rest := by
  obtain ⟨kind, text⟩ := line
  cases kind <;>
    simp [advanced, terminated_by, new_lines, old_lines, join_lines, PatchLine.new_side,
      PatchLine.old_side, Nat.add_assoc, Nat.add_comm 1]

variable {line : PatchLine}

theorem apply_line_ok (hplain : '\n' ∉ line.text.content)
    (hsource : applier.source_lines = (old_lines [line]).map (TextLine.ended lf) ++ rest) :
    applier.apply_line line = .ok (applier.advanced [line] rest) := by
  obtain ⟨kind, text⟩ := line
  cases kind with
  | Addition =>
    obtain rfl : applier.source_lines = rest := hsource
    simp [apply_line, push_text_line, TextLine.ended, lf, advanced, terminated_by, new_lines,
      old_lines, join_lines, PatchLine.new_side, PatchLine.old_side]
  | Context | Removal =>
    have hmatches : source_line_matches (text.ended lf) text = true :=
      source_line_matches_iff.mpr (text_line_ended hplain)
    have hnext : applier.source_lines = text.ended lf :: rest := hsource
    simp [apply_line, next_matching_source_line, hnext, hmatches, bind, Except.bind, pure,
      Except.pure, advanced, terminated_by, new_lines, old_lines, join_lines, PatchLine.new_side,
      PatchLine.old_side]

theorem of_next_matching_source_line {expected : TextLine} {error : String} {line : List Char}
    (h : applier.next_matching_source_line expected error = .ok (line, applier'))
    (heach : ∀ line ∈ applier.source_lines, Closed '\n' line ∨ Unclosed '\n' line) :
    ∃ rest, applier.source_lines = expected.ended lf :: rest ∧ '\n' ∉ expected.content := by
  unfold next_matching_source_line at h
  split at h
  · cases h
  rename_i source rest hlines
  split at h
  · next hmatches =>
    have hsource := heach source (hlines ▸ mem_cons_self)
    rw [← source_line_matches_iff.mp hmatches, ended_text_line hsource]
    exact ⟨rest, hlines, not_mem_strip_patch_newline hsource⟩
  · cases h

theorem of_apply_line (h : applier.apply_line line = .ok applier')
    (heach : ∀ line ∈ applier.source_lines, Closed '\n' line ∨ Unclosed '\n' line)
    (hplain : '\n' ∉ line.text.content) :
    ∃ rest, applier.source_lines = (old_lines [line]).map (TextLine.ended lf) ++ rest
      ∧ applier' = applier.advanced [line] rest := by
  obtain ⟨rest, hsource⟩ :
      ∃ rest, applier.source_lines = (old_lines [line]).map (TextLine.ended lf) ++ rest := by
    obtain ⟨kind, text⟩ := line
    cases kind with
    | Addition => exact ⟨applier.source_lines, rfl⟩
    | Context | Removal =>
      obtain ⟨⟨source, applier₁⟩, hnext, -⟩ := Query.bind_eq_ok.mp h
      obtain ⟨rest, hrest, -⟩ := of_next_matching_source_line hnext heach
      exact ⟨rest, hrest⟩
  refine ⟨rest, hsource, ?_⟩
  rw [apply_line_ok hplain hsource] at h
  exact (Except.ok.inj h).symm

theorem old_lines_cons (line : PatchLine) (lines : List PatchLine) :
    old_lines (line :: lines) = old_lines [line] ++ old_lines lines := by
  rw [← singleton_append, old_lines, filter_append, map_append]
  rfl

theorem new_lines_cons (line : PatchLine) (lines : List PatchLine) :
    new_lines (line :: lines) = new_lines [line] ++ new_lines lines := by
  rw [← singleton_append, new_lines, filter_append, map_append]
  rfl

variable {lines : List PatchLine}

/-- The lines of a hunk are applied when the source has those of the old side next, -/
theorem apply_lines_ok (hplain : ∀ line ∈ lines, '\n' ∉ line.text.content)
    (hsource : applier.source_lines = (old_lines lines).map (TextLine.ended lf) ++ rest) :
    applier.apply_lines lines = .ok (applier.advanced lines rest) := by
  induction lines generalizing applier with
  | nil =>
    obtain rfl : applier.source_lines = rest := hsource
    rw [advanced_nil]
    rfl
  | cons line lines ih =>
    rw [old_lines_cons, map_append, append_assoc] at hsource
    rw [apply_lines, apply_line_ok (hplain line mem_cons_self) hsource,
      advanced_cons applier line lines ((old_lines lines).map (TextLine.ended lf) ++ rest)]
    exact ih (fun l hl => hplain l (mem_cons_of_mem _ hl)) rfl

/-- and only then. -/
theorem of_apply_lines (h : applier.apply_lines lines = .ok applier')
    (heach : ∀ line ∈ applier.source_lines, Closed '\n' line ∨ Unclosed '\n' line)
    (hplain : ∀ line ∈ lines, '\n' ∉ line.text.content) :
    ∃ rest, applier.source_lines = (old_lines lines).map (TextLine.ended lf) ++ rest
      ∧ applier' = applier.advanced lines rest := by
  induction lines generalizing applier with
  | nil =>
    obtain rfl : applier = applier' := by simpa [apply_lines] using h
    exact ⟨applier.source_lines, rfl, (advanced_nil applier).symm⟩
  | cons line lines ih =>
    obtain ⟨applier₁, hline, h⟩ := Query.bind_eq_ok.mp h
    obtain ⟨between, hsource, rfl⟩ :=
      of_apply_line hline heach (hplain line mem_cons_self)
    have heach₁ : ∀ line ∈ between, Closed '\n' line ∨ Unclosed '\n' line := fun l hl =>
      heach l (hsource ▸ mem_append_right _ hl)
    obtain ⟨rest, hrest, rfl⟩ := ih h heach₁ fun l hl => hplain l (mem_cons_of_mem _ hl)
    refine ⟨rest, ?_, (advanced_cons applier line lines between rest).symm⟩
    obtain rfl : between = (old_lines lines).map (TextLine.ended lf) ++ rest := hrest
    rw [hsource, old_lines_cons line lines, map_append, append_assoc]

/-- Between hunks the end of the last one is where the applier is in the source. -/
def AtEnd (applier : HunkApplier) : Prop :=
  applier.previous_original_end = some applier.source_index
    ∨ (applier.previous_original_end = none ∧ applier.source_index = 0)

def after_hunk (applier : HunkApplier) (kept : List (List Char)) (hunk : Hunk)
    (rest : List (List Char)) : HunkApplier :=
  { (applier.copied kept ((old_lines hunk.lines).map (TextLine.ended lf) ++ rest)).advanced
      hunk.lines rest with
    previous_original_end := some (hunk.edit.source + hunk.old_count) }

/-- What a hunk that is applied says about the file. -/
structure Fits (applier : HunkApplier) (kept : List (List Char)) (hunk : Hunk)
    (rest : List (List Char)) : Prop where
  source : hunk.edit.source = applier.source_index + kept.length
  target : hunk.edit.target = applier.output_index + kept.length
  lines : applier.source_lines = kept ++ ((old_lines hunk.lines).map (TextLine.ended lf) ++ rest)
  unterminated : kept ≠ [] → applier.new_side_terminated = false

theorem of_hunk_start {start count index : Nat} {side : String}
    (h : hunk_start start count side = .ok index) : index = hunk_index start count := by
  unfold hunk_start at h
  unfold hunk_index
  split at h
  · next hcount => rw [if_pos hcount]; exact (Except.ok.inj h).symm
  rename_i hcount
  rw [if_neg hcount]
  split at h
  · cases h
  · exact (Except.ok.inj h).symm

theorem of_apply_hunk {hunk : Hunk} (h : applier.apply_hunk hunk = .ok applier')
    (hend : applier.AtEnd)
    (heach : ∀ line ∈ applier.source_lines, Closed '\n' line ∨ Unclosed '\n' line)
    (hplain : ∀ line ∈ hunk.lines, '\n' ∉ line.text.content) :
    ∃ kept rest, Fits applier kept hunk rest ∧ applier' = applier.after_hunk kept hunk rest := by
  obtain ⟨original_index, horiginal, h⟩ := Query.bind_eq_ok.mp h
  obtain ⟨modified_index, hmodified, h⟩ := Query.bind_eq_ok.mp h
  obtain ⟨applier₁, hrange, h⟩ := Query.bind_eq_ok.mp h
  obtain ⟨applier₂, hcopy, h⟩ := Query.bind_eq_ok.mp h
  obtain rfl := of_hunk_start horiginal
  obtain rfl := of_hunk_start hmodified
  unfold validate_original_range at hrange
  split_ifs at hrange with hbelow hoverflow
  cases hrange
  -- the hunk starts behind the previous one
  have hstart : applier.source_index ≤ hunk_index hunk.old_start hunk.old_count := by
    rcases hend with hend | ⟨-, hzero⟩
    · rw [hend] at hbelow
      simpa using hbelow
    · omega
  obtain ⟨kept, rest₁, hlength, hsource, hterminated, rfl⟩ := of_copy_source hcopy
  split at h
  · cases h
  rename_i hmodified
  have heach₁ : ∀ line ∈ rest₁, Closed '\n' line ∨ Unclosed '\n' line := fun l hl =>
    heach l (by rw [show applier.source_lines = kept ++ rest₁ from hsource]
                exact mem_append_right _ hl)
  obtain ⟨rest, hrest, rfl⟩ := of_apply_lines h heach₁ hplain
  obtain rfl : rest₁ = (old_lines hunk.lines).map (TextLine.ended lf) ++ rest := hrest
  refine ⟨kept, rest, ⟨?_, ?_, hsource, hterminated⟩, rfl⟩
  · show hunk_index _ _ = _
    dsimp only at hlength
    omega
  · exact not_not.mp hmodified

/-- Lines that may still come: none behind a line that ends the file. -/
structure Ahead (applier : HunkApplier) (result : List (List Char)) : Prop where
  lines : Lines '\n' result
  plain : '\r' ∉ result.flatten
  terminated : applier.new_side_terminated = true → result = []

variable {line : TextLine}

theorem closed_ended (hplain : line.Plain) (hnewline : line.newline = true) :
    Closed '\n' (line.ended lf) := by
  refine ⟨line.content, hplain.1, ?_⟩
  rw [TextLine.ended, hnewline]
  rfl

theorem unclosed_ended (hplain : line.Plain) (hnewline : line.newline = false)
    (hcontent : line.content ≠ []) : Unclosed '\n' (line.ended lf) := by
  have hended : line.ended lf = line.content := by
    rw [TextLine.ended, hnewline]
    exact append_nil _
  rw [hended]
  exact ⟨hcontent, hplain.1⟩

theorem not_mem_ended (hplain : line.Plain) : '\r' ∉ line.ended lf := by
  intro hmem
  rcases mem_append.mp hmem with hmem | hmem
  · exact hplain.2 hmem
  · split at hmem
    · exact absurd hmem (by decide)
    · cases hmem

variable {result : List (List Char)}

/-- The lines a hunk puts out, before those that come after it. A line without a newline
is the last one: the patch has no other line for the new side, and the applier copies
nothing behind it. -/
theorem Ahead.hunk_lines {earlier : List PatchLine} (h : Ahead (applier.advanced lines rest) result)
    (hearlier : applier.new_side_terminated = true → ∃ line ∈ earlier, line.ends_new = true)
    (hterminates : Terminates (earlier ++ lines)) (hplain : ∀ line ∈ lines, line.text.Plain)
    (hcontent : ∀ line ∈ lines, line.ends_new = true → line.text.content ≠ []) :
    Ahead applier ((new_lines lines).map (TextLine.ended lf) ++ result) := by
  induction lines generalizing applier earlier with
  | nil => exact ⟨h.lines, h.plain, h.terminated⟩
  | cons line lines ih =>
    rw [advanced_cons applier line lines rest] at h
    have hfollows : ∀ earlier' ∈ earlier, Follows earlier' line.kind := fun earlier' hmem =>
      (pairwise_append.mp hterminates).2.2 earlier' hmem line mem_cons_self
    rw [append_cons] at hterminates
    have hplain' : ∀ line ∈ lines, line.text.Plain := fun l hl =>
      hplain l (mem_cons_of_mem _ hl)
    have hcontent' : ∀ line ∈ lines, line.ends_new = true → line.text.content ≠ [] := fun l hl =>
      hcontent l (mem_cons_of_mem _ hl)
    cases hside : line.new_side with
    | false =>
      have hnone : new_lines [line] = [] := by simp [new_lines, hside]
      have hsame : (applier.advanced [line] rest).new_side_terminated
          = applier.new_side_terminated := by
        simp [advanced, terminated_by, hside]
      have hahead := ih h (fun hterminated => by
        rw [hsame] at hterminated
        obtain ⟨ender, hender, hends⟩ := hearlier hterminated
        exact ⟨ender, mem_append_left _ hender, hends⟩) hterminates hplain' hcontent'
      rw [new_lines_cons, hnone, nil_append]
      exact ⟨hahead.lines, hahead.plain, fun hterminated =>
        hahead.terminated (hsame.trans hterminated)⟩
    | true =>
      have hone : new_lines [line] = [line.text] := by simp [new_lines, hside]
      have hflag : (applier.advanced [line] rest).new_side_terminated = !line.text.newline := by
        simp [advanced, terminated_by, hside]
      have hends : line.ends_new = !line.text.newline := by simp [PatchLine.ends_new, hside]
      have hline := hplain line mem_cons_self
      have hahead := ih h (fun hterminated => by
        rw [hflag] at hterminated
        exact ⟨line, by simp, hends.trans hterminated⟩) hterminates hplain' hcontent'
      rw [new_lines_cons, hone, singleton_append, map_cons, cons_append]
      refine ⟨?_, ?_, ?_⟩
      · cases hnewline : line.text.newline with
        | true => exact .cons (closed_ended hline hnewline) hahead.lines
        | false =>
          rw [hnewline] at hflag hends
          rw [hahead.terminated hflag]
          exact .last (unclosed_ended hline hnewline (hcontent line mem_cons_self hends))
      · rw [flatten_cons]
        intro hmem
        exact (mem_append.mp hmem).elim (not_mem_ended hline) hahead.plain
      · -- a line on the new side cannot follow one that ends it
        intro hterminated
        obtain ⟨ender, hender, hends'⟩ := hearlier hterminated
        have hkind := (hfollows ender hender).2 hends'
        simp [PatchLine.new_side, hkind] at hside

theorem of_terminated_by {terminated : Bool} (h : terminated_by terminated lines = true) :
    terminated = true ∨ ∃ line ∈ lines, line.ends_new = true := by
  induction lines generalizing terminated with
  | nil => exact .inl h
  | cons line lines ih =>
    rcases ih h with hline | ⟨later, hlater, hends⟩
    · dsimp only at hline
      split at hline
      · next hside =>
        exact .inr ⟨line, mem_cons_self, by rw [PatchLine.ends_new, hside, hline]; rfl⟩
      · exact .inl hline
    · exact .inr ⟨later, mem_cons_of_mem _ hlater, hends⟩

/-- An applier before the hunks that remain. `unended` says that the last line of the
source has no newline; the source has `n` lines. -/
structure Ready (unended : Prop) (n : Nat) (applier : HunkApplier) (earlier : List PatchLine)
    (hunks : List Hunk) : Prop where
  at_end : applier.AtEnd
  lines : Lines '\n' applier.source_lines
  plain : '\r' ∉ applier.source_lines.flatten
  index : applier.source_index + applier.source_lines.length = n
  closed : ¬unended → ∀ line ∈ applier.source_lines, Closed '\n' line
  counted : ∀ hunk ∈ hunks, hunk.Counted
  text : ∀ hunk ∈ hunks, ∀ line ∈ hunk.lines, line.text.Plain
  terminates : Terminates (earlier ++ hunks.flatMap Hunk.lines)
  terminated : applier.new_side_terminated = true → ∃ line ∈ earlier, line.ends_new = true
  insertions : unended → applier.source_lines ≠ [] → ∀ hunk ∈ hunks, hunk.old_count = 0 →
    hunk.new_count ≠ 0 → hunk.old_start = n → ∃ other ∈ hunks, other.Takes n
  additions : ∀ hunk ∈ hunks, ∀ line ∈ hunk.lines, line.kind = .Addition →
    line.text.newline = false → line.text.content ≠ []

section Run

variable {unended : Prop} {n : Nat} {applier : HunkApplier} {earlier : List PatchLine} {hunk : Hunk}
  {hunks : List Hunk} {kept rest : List (List Char)}

theorem Ready.each (h : Ready unended n applier earlier hunks) :
    ∀ line ∈ applier.source_lines, Closed '\n' line ∨ Unclosed '\n' line :=
  fun _ hline => h.lines.mem hline

theorem Fits.rest_mem (h : Fits applier kept hunk rest) {line : List Char} (hline : line ∈ rest) :
    line ∈ applier.source_lines := by
  rw [h.lines]
  exact mem_append_right _ (mem_append_right _ hline)

section

variable (h : Ready unended n applier earlier (hunk :: hunks)) (hfits : Fits applier kept hunk rest)

include h hfits

theorem Ready.next :
    Ready unended n (applier.after_hunk kept hunk rest) (earlier ++ hunk.lines) hunks where
  at_end := by
    refine .inl (congrArg some ?_)
    show hunk.edit.source + hunk.old_count
      = applier.source_index + kept.length + (old_lines hunk.lines).length
    rw [hfits.source, (h.counted hunk mem_cons_self).old_count]
  lines := by
    have hlines := h.lines
    rw [hfits.lines, ← append_assoc] at hlines
    exact hlines.of_append.1
  plain := by
    intro hmem
    obtain ⟨line, hline, hmem⟩ := mem_flatten.mp hmem
    exact h.plain (mem_flatten_of_mem (hfits.rest_mem hline) hmem)
  index := by
    have hindex := h.index
    rw [hfits.lines, length_append, length_append, length_map] at hindex
    show applier.source_index + kept.length + (old_lines hunk.lines).length + rest.length = n
    omega
  closed hnot line hline := h.closed hnot line (hfits.rest_mem hline)
  counted hunk' hhunk := h.counted hunk' (mem_cons_of_mem _ hhunk)
  text hunk' hhunk := h.text hunk' (mem_cons_of_mem _ hhunk)
  terminates := by
    rw [append_assoc]
    exact h.terminates
  terminated hterminated := by
    rcases of_terminated_by hterminated with hbefore | ⟨line, hline, hends⟩
    · obtain ⟨line, hline, hends⟩ := h.terminated hbefore
      exact ⟨line, mem_append_left _ hline, hends⟩
    · exact ⟨line, mem_append_right _ hline, hends⟩
  insertions hunended hne hunk' hhunk hold hnew hstart := by
    have hindex := h.index
    have hcount := (h.counted hunk mem_cons_self).old_count
    have hpos := length_pos_iff.mpr hne
    rw [hfits.lines, length_append, length_append, length_map] at hindex
    obtain ⟨other, hother, htakes⟩ := h.insertions hunended
      (fun hnil => by simp [hfits.lines, show rest ≠ [] from hne] at hnil) hunk'
      (mem_cons_of_mem _ hhunk) hold hnew hstart
    rcases mem_cons.mp hother with rfl | hother
    · have hends := htakes.2
      rw [hfits.source] at hends
      change 0 < rest.length at hpos
      omega
    · exact ⟨other, hother, htakes⟩
  additions hunk' hhunk := h.additions hunk' (mem_cons_of_mem _ hhunk)

/-- Lines of a hunk without a newline have text: those it adds by assumption, the others
since the source has them. -/
theorem Ready.content : ∀ line ∈ hunk.lines, line.ends_new = true → line.text.content ≠ [] := by
  intro line hline hends
  have hnewline : line.text.newline = false := by
    simp only [PatchLine.ends_new, Bool.and_eq_true, Bool.not_eq_true'] at hends
    exact hends.2
  by_cases hkind : line.kind = .Addition
  · exact h.additions hunk mem_cons_self line hline hkind hnewline
  intro hempty
  have hold : line.text ∈ old_lines hunk.lines :=
    mem_map_of_mem (mem_filter.mpr ⟨hline, by simp [PatchLine.old_side, hkind]⟩)
  have hmem : line.text.ended lf ∈ applier.source_lines := by
    rw [hfits.lines]
    exact mem_append_right _ (mem_append_left _ (mem_map_of_mem hold))
  exact h.lines.ne_nil hmem (by simp [TextLine.ended, hempty, hnewline])

/-- Where a last source line without a newline is copied, nothing is put out behind it. -/
theorem Ready.nothing_behind (hunended : unended) (hkept : kept ≠ [])
    (hmore : (old_lines hunk.lines).map (TextLine.ended lf) ++ rest = [])
    (hspliced : Spliced (hunk.edit.source + hunk.edit.old.length)
      (hunk.edit.target + hunk.edit.new.length) (hunks.map Hunk.edit) (rest.map text_line)
      (result.map text_line)) :
    new_lines hunk.lines = [] ∧ result = [] := by
  obtain ⟨hold, rfl⟩ := append_eq_nil_iff.mp hmore
  have hold := map_eq_nil_iff.mp hold
  have hindex := h.index
  have hlines := hfits.lines
  rw [hold, map_nil, append_nil, append_nil] at hlines
  rw [hlines] at hindex
  obtain ⟨hresult, hlater⟩ := hspliced.of_nil rfl
  have hsource : hunk.edit.source = n := hfits.source.trans hindex
  -- the hunk and all later ones only add lines, at the end of the source
  have hends : ∀ hunk' ∈ hunk :: hunks, hunk'.edit.old = [] ∧ hunk'.edit.source = n := by
    rw [forall_mem_cons]
    refine ⟨⟨hold, hsource⟩, fun hunk' hmem => ?_⟩
    obtain ⟨hold', hsource'⟩ := hlater _ (mem_map_of_mem hmem)
    rw [show hunk.edit.old = [] from hold, length_nil, Nat.add_zero, hsource] at hsource'
    exact ⟨hold', hsource'⟩
  have hzero : ∀ hunk' ∈ hunk :: hunks, hunk'.old_count = 0 := fun hunk' hmem => by
    rw [← (h.counted hunk' hmem).old_count]
    exact length_eq_zero_iff.mpr (hends hunk' hmem).1
  have hnone : ∀ hunk' ∈ hunk :: hunks, hunk'.edit.new = [] := by
    intro hunk' hmem
    by_contra hnew
    have hstart := (hends hunk' hmem).2
    change hunk_index hunk'.old_start hunk'.old_count = n at hstart
    rw [hunk_index, if_pos (hzero hunk' hmem)] at hstart
    obtain ⟨other, hother, htakes⟩ := h.insertions hunended (hlines ▸ hkept) hunk' hmem
      (hzero hunk' hmem) (by
        rw [← (h.counted hunk' hmem).new_count]
        exact fun hlength => hnew (eq_nil_of_length_eq_zero hlength)) hstart
    exact htakes.1 (hzero other hother)
  refine ⟨hnone hunk mem_cons_self, ?_⟩
  rw [← map_eq_nil_iff (f := text_line), hresult, flatMap_eq_nil_iff]
  rintro edit hedit
  obtain ⟨hunk', hmem, rfl⟩ := mem_map.mp hedit
  exact hnone hunk' (mem_cons_of_mem _ hmem)

/-- **The lines of a hunk, and the copied lines before it, come before what follows.** -/
theorem Ready.ahead (hahead : Ahead (applier.after_hunk kept hunk rest) result)
    (hspliced : Spliced (hunk.edit.source + hunk.edit.old.length)
      (hunk.edit.target + hunk.edit.new.length) (hunks.map Hunk.edit) (rest.map text_line)
      (result.map text_line)) :
    Ahead applier (kept ++ ((new_lines hunk.lines).map (TextLine.ended lf) ++ result)) := by
  have hterminates : Terminates (earlier ++ hunk.lines) := by
    have hall := h.terminates
    rw [flatMap_cons, ← append_assoc] at hall
    exact (pairwise_append.mp hall).1
  have hadvanced : Ahead (applier.advanced hunk.lines rest) result :=
    ⟨hahead.lines, hahead.plain, hahead.terminated⟩
  have htail : Ahead applier ((new_lines hunk.lines).map (TextLine.ended lf) ++ result) :=
    hadvanced.hunk_lines h.terminated hterminates (h.text hunk mem_cons_self)
      (h.content hfits)
  have hsource : Lines '\n' (kept ++ ((old_lines hunk.lines).map (TextLine.ended lf) ++ rest)) :=
    hfits.lines ▸ h.lines
  refine ⟨?_, ?_, ?_⟩
  · by_cases hmore : (old_lines hunk.lines).map (TextLine.ended lf) ++ rest = []
    · -- the copied lines are the last ones of the source
      by_cases hunended : unended
      · by_cases hkept : kept = []
        · rw [hkept]
          exact htail.lines
        · obtain ⟨hnew, rfl⟩ := h.nothing_behind hfits hunended hkept hmore hspliced
          rw [hnew, map_nil, nil_append, append_nil]
          exact hsource.initial
      · refine Lines.append (fun line hline => h.closed hunended line ?_) htail.lines
        rw [hfits.lines]
        exact mem_append_left _ hline
    · exact Lines.append (hsource.of_append.2 hmore) htail.lines
  · rw [flatten_append]
    intro hmem
    rcases mem_append.mp hmem with hmem | hmem
    · refine h.plain ?_
      rw [hfits.lines, flatten_append]
      exact mem_append_left _ hmem
    · exact htail.plain hmem
  · intro hterminated
    have hkept : kept = [] := by
      by_contra hne
      rw [hfits.unterminated hne] at hterminated
      cases hterminated
    rw [hkept, htail.terminated hterminated]
    rfl

end

theorem flatten_map_ended (lines : List TextLine) :
    (lines.map (TextLine.ended lf)).flatten = join_lines lf lines := rfl

theorem map_text_line_ended {lines : List TextLine} (h : ∀ line ∈ lines, line.Plain) :
    (lines.map (TextLine.ended lf)).map text_line = lines := by
  rw [map_map]
  conv_rhs => rw [← map_id lines]
  exact map_congr_left fun line hline => text_line_ended (h line hline).1

/-- **The hunks that remain, applied, edit the lines that remain.** By induction on the
hunks; what is put out is known from its end, so that a line without a newline is seen
to be the last one. -/
theorem Ready.spliced {output : List Char} (h : Ready unended n applier earlier hunks)
    (happly : applier.apply_each hunks = .ok applier') (hfinish : applier'.finish = .ok output) :
    ∃ result, output = applier.output ++ result.flatten
      ∧ Spliced applier.source_index applier.output_index (hunks.map Hunk.edit)
          (applier.source_lines.map text_line) (result.map text_line)
      ∧ Ahead applier result := by
  induction hunks generalizing applier earlier with
  | nil =>
    obtain rfl : applier = applier' := by simpa [apply_each] using happly
    unfold finish at hfinish
    split at hfinish
    · cases hfinish
    · next hterminated =>
      refine ⟨applier.source_lines, (Except.ok.inj hfinish).symm, .done _,
        ⟨h.lines, h.plain, fun hend => ?_⟩⟩
      exact by_contra fun hne => hterminated ⟨hend, hne⟩
  | cons hunk hunks ih =>
    obtain ⟨applier₁, hhunk, happly⟩ := Query.bind_eq_ok.mp happly
    have hplain : ∀ line ∈ hunk.lines, line.text.Plain := h.text hunk mem_cons_self
    obtain ⟨kept, rest, hfits, rfl⟩ :=
      of_apply_hunk hhunk h.at_end h.each fun line hline => (hplain line hline).1
    obtain ⟨result, rfl, hspliced, hahead⟩ := ih (h.next hfits) happly
    have hlater : Spliced (hunk.edit.source + hunk.edit.old.length)
        (hunk.edit.target + hunk.edit.new.length) (hunks.map Hunk.edit)
        (rest.map text_line) (result.map text_line) := by
      rw [hfits.source, hfits.target]
      exact hspliced
    refine ⟨kept ++ ((new_lines hunk.lines).map (TextLine.ended lf) ++ result), ?_, ?_,
      h.ahead hfits hahead hlater⟩
    · show applier.output ++ kept.flatten ++ join_lines lf (new_lines hunk.lines) ++ _ = _
      simp only [flatten_append, flatten_map_ended, append_assoc]
    · have hold : ((old_lines hunk.lines).map (TextLine.ended lf)).map text_line
          = hunk.edit.old := by
        refine map_text_line_ended fun line hline => ?_
        obtain ⟨patch_line, hmem, rfl⟩ := mem_map.mp hline
        exact hplain patch_line (mem_filter.mp hmem).1
      have hnew : ((new_lines hunk.lines).map (TextLine.ended lf)).map text_line
          = hunk.edit.new := by
        refine map_text_line_ended fun line hline => ?_
        obtain ⟨patch_line, hmem, rfl⟩ := mem_map.mp hline
        exact hplain patch_line (mem_filter.mp hmem).1
      have hedit := Spliced.edit (kept.map text_line) hunk.edit
        (by rw [length_map, hfits.source]) (by rw [length_map, hfits.target]) hlater
      rw [hfits.lines, map_append, map_append, map_append, map_append, hold,
        hnew, ← append_assoc, ← append_assoc]
      exact hedit

end Run

end HunkApplier

/-! ## The whole file -/

/-- A hunk that only adds lines stands behind a last source line without a newline only if
the old side of another hunk has that line, and no added line is without text and newline. -/
structure Separated (text : List Char) (hunks : List Hunk) : Prop where
  insertions : (∃ line ∈ text_lines text, line.newline = false) →
    ∀ hunk ∈ hunks, hunk.old_count = 0 → hunk.new_count ≠ 0 →
      hunk.old_start = (text_lines text).length →
        ∃ other ∈ hunks, other.Takes (text_lines text).length
  additions : ∀ hunk ∈ hunks, ∀ line ∈ hunk.lines, line.kind = .Addition →
    line.text.newline = false → line.text.content ≠ []

/-- In a text, a line without a newline has text and is the last one. -/
theorem text_lines_unended {text : List Char} {before after : List TextLine} {line : TextLine}
    (h : text_lines text = before ++ line :: after) (hnewline : line.newline = false) :
    line.content ≠ [] ∧ after = [] := by
  have hlines := lines_split_inclusive '\n' (replace_pair '\r' '\n' '\n' text)
  obtain ⟨initial, pieces, hsplit, -, hpieces⟩ := map_eq_append_iff.mp h
  obtain ⟨piece, rest, rfl, rfl, rfl⟩ := map_eq_cons_iff.mp hpieces
  rw [hsplit] at hlines
  have hpiece : Unclosed '\n' piece := by
    refine (hlines.of_append.1.mem mem_cons_self).resolve_left ?_
    rintro ⟨content, -, rfl⟩
    rw [text_line_closed] at hnewline
    cases hnewline
  refine ⟨by rw [text_line_unclosed hpiece.2]; exact hpiece.1, ?_⟩
  rw [append_cons] at hlines
  rw [map_eq_nil_iff]
  by_contra hne
  obtain ⟨content, -, rfl⟩ := hlines.of_append.2 hne piece (by simp)
  exact hpiece.2 (by simp)

/-- **The condition is needed**: where it fails, the lines of no text are the spliced ones. -/
theorem separated_of_spliced {text text' : List Char} {hunks : List Hunk}
    (hcounted : ∀ hunk ∈ hunks, hunk.Counted)
    (h : Spliced 0 0 (hunks.map Hunk.edit) (text_lines text) (text_lines text')) :
    Separated text hunks where
  insertions := by
    rintro ⟨line, hline, hnewline⟩ hunk hhunk hold hnew hstart
    by_contra hother
    obtain ⟨initial, rest, hsplit⟩ := append_of_mem hline
    obtain rfl := (text_lines_unended hsplit hnewline).2
    have hlength : (text_lines text).length = initial.length + 1 := by rw [hsplit]; simp
    rw [hsplit] at h
    have hnone : ∀ edit ∈ hunks.map Hunk.edit, edit.old ≠ [] →
        edit.source + edit.old.length ≠ 0 + initial.length + 1 := by
      intro edit hedit hne hends
      obtain ⟨other, hmem, rfl⟩ := mem_map.mp hedit
      have hcount : other.edit.old.length = other.old_count := (hcounted other hmem).old_count
      refine hother ⟨other, hmem, ?_, by omega⟩
      rw [← hcount]
      exact fun hzero => hne (eq_nil_of_length_eq_zero hzero)
    have hsource : hunk.edit.source = 0 + initial.length + 1 := by
      show hunk_index hunk.old_start hunk.old_count = _
      rw [hunk_index, if_pos hold]
      omega
    have hadds : hunk.edit.new ≠ [] := by
      intro hnil
      rw [← (hcounted hunk hhunk).new_count] at hnew
      exact hnew (congrArg length hnil)
    obtain ⟨before, after, hresult, hafter⟩ :=
      h.behind_last hnone (mem_map_of_mem hhunk) hsource hadds
    exact hafter (text_lines_unended hresult hnewline).2
  additions hunk hhunk line hline hkind hnewline := by
    have hmem : line.text ∈ text_lines text' := by
      refine h.sublist.2.subset (mem_flatMap.mpr ⟨_, mem_map_of_mem hhunk, ?_⟩)
      exact mem_map_of_mem (mem_filter.mpr ⟨hline, by simp [PatchLine.new_side, hkind]⟩)
    obtain ⟨before, after, hsplit⟩ := append_of_mem hmem
    exact (text_lines_unended hsplit hnewline).1

theorem decode_text_spec {path : List Char} {bytes bom : Bytes} {text : List Char}
    (h : decode_text path bytes = .ok (bom, text)) : bytes = bom ++ utf8 text := by
  unfold decode_text at h
  split at h
  next found encoded hfound =>
    split at h
    · cases h
    rename_i decoded hdecoded
    obtain ⟨rfl, rfl⟩ : found = bom ∧ decoded = text := by simpa using h
    rw [← utf8_of_from_utf8 hdecoded]
    split at hfound
    · next hbom =>
      obtain ⟨rfl, rfl⟩ := hfound
      obtain ⟨tail, rfl⟩ := isPrefixOf_iff_prefix.mp hbom
      simp
    · obtain ⟨rfl, rfl⟩ := hfound
      rfl

/-- **A patch that applies replaces the old side of each hunk by its new side**, exactly
when the hunks are separated from a last line without a newline. The result then has the
byte order mark and the line ending of the source, and its lines are those of the source with
the edits of the hunks, each at its stated position. -/
theorem apply_unified_diff_splices {path patch text : List Char} {current : Option Bytes}
    {result bom : Bytes} {diff : UnifiedDiff} (hparse : parse_unified_diff patch = .ok diff)
    (hdecode : decode_text path (current.getD []) = .ok (bom, text))
    (h : apply_unified_diff path current patch = .ok result) :
    (∃ ending text', current.getD [] = bom ++ utf8 text ∧ result = bom ++ utf8 text'
      ∧ text = join_lines ending (text_lines text) ∧ text' = join_lines ending (text_lines text')
      ∧ Spliced 0 0 (diff.hunks.map Hunk.edit) (text_lines text) (text_lines text'))
    ↔ Separated text diff.hunks := by
  have hwellformed := parse_unified_diff_wellformed hparse
  refine ⟨fun ⟨_, _, _, _, _, _, hspliced⟩ => separated_of_spliced hwellformed.counted hspliced,
    fun hseparated => ?_⟩
  obtain ⟨diff', hparse', h⟩ := Query.bind_eq_ok.mp h
  obtain rfl : diff = diff' := Except.ok.inj (hparse.symm.trans hparse')
  obtain ⟨-, -, h⟩ := Query.bind_eq_ok.mp h
  obtain ⟨⟨bom', decoded⟩, hdecode', h⟩ := Query.bind_eq_ok.mp h
  obtain ⟨rfl, rfl⟩ : bom = bom' ∧ text = decoded := by
    simpa using hdecode.symm.trans hdecode'
  obtain ⟨⟨ending, normalized⟩, hnormalize, h⟩ := Query.bind_eq_ok.mp h
  obtain ⟨output, happly, h⟩ := Query.bind_eq_ok.mp h
  obtain ⟨applier, hhunks, hfinish⟩ := Query.bind_eq_ok.mp happly
  obtain ⟨hending, hplain, htext⟩ := normalize_line_endings_spec hnormalize
  have hlines := lines_split_inclusive '\n' normalized
  have hflatten := flatten_split_inclusive '\n' normalized
  have hplain' : '\r' ∉ (split_inclusive '\n' normalized).flatten := by rwa [hflatten]
  obtain ⟨hsource, hjoined⟩ := text_lines_with_ending hending hlines hplain'
  rw [hflatten, ← htext] at hsource hjoined
  have hready : HunkApplier.Ready (∃ line ∈ text_lines text, line.newline = false)
      (text_lines text).length (HunkApplier.new normalized) [] diff.hunks :=
    { at_end := .inr ⟨rfl, rfl⟩
      lines := hlines
      plain := hplain'
      index := by
        rw [hsource, length_map]
        exact Nat.zero_add _
      closed := by
        intro hclosed line hline
        rcases hlines.mem hline with hclosed' | hunclosed
        · exact hclosed'
        · refine absurd ⟨text_line line, ?_, by rw [text_line_unclosed hunclosed.2]⟩ hclosed
          rw [hsource]
          exact mem_map_of_mem hline
      counted := hwellformed.counted
      text := hwellformed.plain
      terminates := hwellformed.terminates
      terminated := fun hterminated => nomatch hterminated
      insertions := fun hunended _ => hseparated.insertions hunended
      additions := hseparated.additions }
  obtain ⟨pieces, rfl, hspliced, hahead⟩ := hready.spliced hhunks hfinish
  obtain ⟨htarget, hjoined'⟩ := text_lines_with_ending hending hahead.lines hahead.plain
  refine ⟨ending, with_ending ending pieces.flatten, decode_text_spec hdecode,
    (Except.ok.inj h).symm, ?_, ?_, ?_⟩
  · rw [hsource]
    exact hjoined
  · rw [htarget]
    exact hjoined'
  · rw [hsource, htarget]
    exact hspliced

section Samples

def sample_patch (hunk : String) : List Char := ("--- a/f\n+++ b/f\n" ++ hunk).toList

def sample_replacement : Hunk where
  lines := [⟨.Context, "a".toList, true⟩, ⟨.Removal, "b".toList, false⟩,
    ⟨.Addition, "c".toList, true⟩, ⟨.Addition, "d".toList, false⟩]
  new_count := 3
  new_start := 1
  old_count := 2
  old_start := 1

def sample_insertion : Hunk where
  lines := [⟨.Addition, "def".toList, true⟩]
  new_count := 1
  new_start := 2
  old_count := 0
  old_start := 1

def sample_empty_line : Hunk where
  lines := [⟨.Context, "a".toList, true⟩, ⟨.Addition, [], false⟩]
  new_count := 2
  new_start := 1
  old_count := 1
  old_start := 1

def sample_diff (hunk : Hunk) : UnifiedDiff := ⟨[hunk], "b/f".toList, "a/f".toList⟩

def replacement_patch : List Char :=
  sample_patch ("@@ -1,2 +1,3 @@\n a\n-b\n\\ No newline at end of file\n"
    ++ "+c\n+d\n\\ No newline at end of file\n")

def insertion_patch : List Char := sample_patch "@@ -1,0 +2 @@\n+def\n"

theorem apply_unified_diff_splices_replacement :
    ∃ ending text', utf8 "a\nb".toList = [] ++ utf8 "a\nb".toList
      ∧ utf8 "a\nc\nd".toList = [] ++ utf8 text'
      ∧ "a\nb".toList = join_lines ending (text_lines "a\nb".toList)
      ∧ text' = join_lines ending (text_lines text')
      ∧ Spliced 0 0 [sample_replacement.edit] (text_lines "a\nb".toList) (text_lines text') := by
  have hseparated : Separated "a\nb".toList [sample_replacement] := by
    have hold : ∀ hunk ∈ [sample_replacement], hunk.old_count ≠ 0 := by decide
    exact ⟨fun _ hunk hmem hzero => absurd hzero (hold hunk hmem), by decide +kernel⟩
  have hparse : parse_unified_diff replacement_patch = .ok (sample_diff sample_replacement) := by
    decide +kernel
  have hdecode : decode_text ['f'] ((some (utf8 "a\nb".toList)).getD [])
      = .ok ([], "a\nb".toList) := by
    decide +kernel
  have happly : apply_unified_diff ['f'] (some (utf8 "a\nb".toList)) replacement_patch
      = .ok (utf8 "a\nc\nd".toList) := by
    decide +kernel
  exact (apply_unified_diff_splices hparse hdecode happly).mpr hseparated

/-- A line added behind a last line without a newline is joined with it. -/
theorem insertion_joins_last_line :
    parse_unified_diff insertion_patch = .ok (sample_diff sample_insertion)
    ∧ apply_unified_diff ['f'] (some (utf8 "abc".toList)) insertion_patch
        = .ok (utf8 "abcdef\n".toList)
    ∧ ¬Spliced 0 0 [sample_insertion.edit] (text_lines "abc".toList)
        (text_lines "abcdef\n".toList) := by
  refine ⟨by decide +kernel, by decide +kernel, fun hspliced => ?_⟩
  exact absurd hspliced.length_eq (by decide +kernel)

/-- An added line without text and without a newline is lost. -/
theorem empty_addition_is_lost :
    apply_unified_diff ['f'] (some (utf8 "a\n".toList))
        (sample_patch "@@ -1 +1,2 @@\n a\n+\n\\ No newline at end of file\n")
        = .ok (utf8 "a\n".toList)
    ∧ ¬Spliced 0 0 [sample_empty_line.edit]
        (text_lines "a\n".toList) (text_lines "a\n".toList) := by
  refine ⟨by decide +kernel, fun hspliced => ?_⟩
  exact absurd hspliced.length_eq (by decide +kernel)

end Samples

end Agentty.Harness
