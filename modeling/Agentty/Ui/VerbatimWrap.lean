/-
Verbatim text wrapped at word boundaries.

Styled spans are wrapped in one pass. The characters of a word wait until the word ends;
it then goes to the current line, or to the next one when it would reach the edge. A
character that does not fit breaks the line before it. Only a word that is wider than a
line is broken that way.

The width of a character is a parameter, and a line is as wide as its characters are
together. A line is the list of its spans.
-/
import Mathlib.Data.List.DropRight
import Mathlib.Algebra.GroupWithZero.Nat
import Agentty.Text

set_option autoImplicit false

namespace Agentty.Ui

open Text List

class DisplayWidth where
  character_display_width : Char → Nat

export DisplayWidth (character_display_width)

structure Span (S : Type) where
  content : List Char
  style : S
  deriving DecidableEq, Repr

structure Lines (S : Type) where
  wrapped_lines : List (List (Span S))
  current_spans : List (Span S)
  current_width : Nat

structure Wrapping (S : Type) extends Lines S where
  pending_word_spans : List (Span S)
  pending_word_width : Nat

variable {S : Type}

/-- `wrapped_lines.push(Line::from(std::mem::take(current_spans)))` -/
def Lines.break_line (w : Lines S) : Lines S := ⟨w.wrapped_lines ++ [w.current_spans], [], 0⟩

/-- The loop over spans, and in it the one over the characters of a span. -/
def for_characters {α : Type} (f : α → S → Char → α) (a : α) (spans : List (Span S)) : α :=
  spans.foldl (fun a span => span.content.foldl (fun a c => f a span.style c) a) a

section Code

variable [DecidableEq S]

def push_verbatim_span_character (spans : List (Span S)) (style : S) (character : Char) :
    List (Span S) :=
  match spans.getLast? with
  | some last_span =>
    if last_span.style = style then
      spans.dropLast ++ [{ last_span with content := last_span.content ++ [character] }]
    else spans ++ [⟨[character], style⟩]
  | none => spans ++ [⟨[character], style⟩]

variable [DisplayWidth] (width : Nat)

def push_character_with_hard_wrap (w : Lines S) (style : S) (character : Char) : Lines S :=
  let character_width := character_display_width character
  let w :=
    if 0 < w.current_width ∧ 0 < character_width ∧ width < w.current_width + character_width then
      w.break_line
    else w
  ⟨w.wrapped_lines, push_verbatim_span_character w.current_spans style character,
    w.current_width + character_width⟩

def flush_pending_word_with_wrap (w : Wrapping S) : Wrapping S :=
  if w.pending_word_spans = [] then w
  else
    let lines :=
      if 0 < w.current_width ∧ width ≤ w.current_width + w.pending_word_width then
        w.break_line
      else w.toLines
    ⟨for_characters (push_character_with_hard_wrap width) lines w.pending_word_spans, [], 0⟩

/-- The body of the loop over the characters. -/
def take_character (w : Wrapping S) (style : S) (character : Char) : Wrapping S :=
  if is_whitespace character then
    let w := flush_pending_word_with_wrap width w
    { w with toLines := push_character_with_hard_wrap width w.toLines style character }
  else
    { w with
      pending_word_spans := push_verbatim_span_character w.pending_word_spans style character
      pending_word_width := w.pending_word_width + character_display_width character }

def wrap_verbatim_spans_with_word_boundaries (spans : List (Span S)) : List (List (Span S)) :=
  if width = 0 then [spans]
  else
    let w := flush_pending_word_with_wrap width
      (for_characters (take_character width) ⟨⟨[], [], 0⟩, [], 0⟩ spans)
    -- `has_characters` is false
    if spans.all fun span => span.content = [] then [[]]
    else
      let wrapped_lines :=
        if w.current_spans = [] then w.wrapped_lines else w.wrapped_lines ++ [w.current_spans]
      if wrapped_lines = [] then [[]] else wrapped_lines

end Code

/-! ## Characters with their styles -/

abbrev Cell (S : Type) : Type := Char × S

def cells (spans : List (Span S)) : List (Cell S) :=
  spans.flatMap fun span => span.content.map (·, span.style)

/-- What the lines show so far. -/
def Lines.laid (w : Lines S) : List (Cell S) := (w.wrapped_lines ++ [w.current_spans]).flatMap cells

def in_word (x : Cell S) : Bool := !is_whitespace x.1

theorem for_characters_eq {α : Type} (f : α → S → Char → α) (a : α) (spans : List (Span S)) :
    for_characters f a spans = (cells spans).foldl (fun a x => f a x.2 x.1) a := by
  induction spans generalizing a with
  | nil => rfl
  | cons span spans ih =>
    simp only [for_characters, cells, foldl_cons, flatMap_cons, foldl_append,
      foldl_map] at ih ⊢
    exact ih _

theorem cells_push [DecidableEq S] (spans : List (Span S)) (style : S) (c : Char) :
    cells (push_verbatim_span_character spans style c) = cells spans ++ [(c, style)] := by
  unfold push_verbatim_span_character
  cases spans using reverseRecOn with
  | nil => rfl
  | append_singleton spans last =>
    rw [getLast?_concat]
    dsimp only
    split
    · next hstyle => simp [cells, hstyle]
    · simp [cells]

section Proofs

variable [DisplayWidth]

def line_width (line : List (Cell S)) : Nat := (line.map fun x => character_display_width x.1).sum

@[simp] theorem line_width_append (a b : List (Cell S)) :
    line_width (a ++ b) = line_width a + line_width b := by
  simp [line_width]

@[simp] theorem line_width_cons (x : Cell S) (a : List (Cell S)) :
    line_width (x :: a) = character_display_width x.1 + line_width a := rfl

/-- A line within the width, or one character that is wider among some without a width. -/
def Fits (width : Nat) (line : List (Cell S)) : Prop :=
  line_width line ≤ width ∨ ∃ a x b, line = a ++ x :: b ∧ width < character_display_width x.1
    ∧ ∀ y ∈ a ++ b, character_display_width y.1 = 0

/-- A break does not split a word, unless the word is too wide for a line. -/
def Whole (width : Nat) (left right : List (Cell S)) : Prop :=
  left.rtakeWhile in_word = [] ∨ right.takeWhile in_word = []
    ∨ width < line_width (left.rtakeWhile in_word ++ right.takeWhile in_word)

/-- What the lines of a text are to be. -/
structure Wrapped (width : Nat) (text : List (Cell S)) (lines : List (List (Span S))) : Prop where
  text : lines.flatMap cells = text
  fits : ∀ line ∈ lines, Fits width (cells line)
  whole : ∀ before after, lines = before ++ after →
    Whole width (before.flatMap cells) (after.flatMap cells)

/-! ## Pushing characters -/

/-- The lines so far are the text up to some rest, they fit, and their breaks split no word
of the text. -/
structure Laid (width : Nat) (text : List (Cell S)) (w : Lines S) (rest : List (Cell S)) :
    Prop where
  text : w.laid ++ rest = text
  current : w.current_width = line_width (cells w.current_spans)
  fits : ∀ line ∈ w.wrapped_lines ++ [w.current_spans], Fits width (cells line)
  whole : ∀ before after, w.wrapped_lines = before ++ after →
    Whole width (before.flatMap cells) ((after ++ [w.current_spans]).flatMap cells ++ rest)

variable {width : Nat} {text rest : List (Cell S)} {w : Lines S} {x : Cell S}

theorem Laid.break_line (h : Laid width text w rest) (hwhole : Whole width w.laid rest) :
    Laid width text w.break_line rest := by
  refine ⟨?_, rfl, ?_, ?_⟩
  · rw [← h.text]
    simp [Lines.break_line, Lines.laid, cells]
  · intro line hline
    rcases mem_append.mp hline with hline | hline
    · exact h.fits line hline
    · rw [mem_singleton.mp hline]
      exact .inl (Nat.zero_le _)
  · intro before after hlines
    cases after using reverseRecOn with
    | nil =>
      have hlaid : before.flatMap cells = w.laid := by
        rw [← append_nil before, ← hlines]
        rfl
      rw [hlaid]
      exact hwhole
    | append_singleton after last =>
      rw [← append_assoc] at hlines
      obtain ⟨hlines', hlast⟩ := append_inj' hlines rfl
      have hright := h.whole before after hlines'
      rw [singleton_inj.mp hlast] at hright
      simpa [Lines.break_line, cells] using hright

theorem Laid.laid_eq {w' : Lines S} (h : Laid width text w (x :: rest))
    (h' : Laid width text w' rest) : w'.laid = w.laid ++ [x] := by
  have htext : w'.laid ++ rest = w.laid ++ [x] ++ rest := by
    rw [h'.text, ← h.text, append_cons]
  exact append_cancel_right htext

theorem Laid.wrapped (h : Laid width text w []) (hnone : w.current_spans = []) :
    Wrapped width text w.wrapped_lines := by
  obtain ⟨htext, -, hfits, hwhole⟩ := h
  rw [Lines.laid] at htext
  rw [hnone] at htext hfits hwhole
  refine ⟨by simpa [cells] using htext, fun line hline => hfits line (by simp [hline]), ?_⟩
  intro before after hlines
  simpa [cells] using hwhole before after hlines

variable [DecidableEq S]

/-- A character is added to a line that has no width yet, or room for it. -/
theorem Laid.add (h : Laid width text w (x :: rest))
    (hroom : w.current_width = 0 ∨ character_display_width x.1 = 0 ∨
      w.current_width + character_display_width x.1 ≤ width) :
    Laid width text ⟨w.wrapped_lines, push_verbatim_span_character w.current_spans x.2 x.1,
      w.current_width + character_display_width x.1⟩ rest := by
  have hwidth := h.current
  have hsum : line_width (cells w.current_spans ++ [x])
      = w.current_width + character_display_width x.1 := by
    rw [line_width_append, hwidth]
    rfl
  refine ⟨?_, ?_, ?_, ?_⟩
  · rw [← h.text]
    simp [Lines.laid, cells_push]
  · rw [cells_push, hsum]
  · intro line hline
    rcases mem_append.mp hline with hline | hline
    · exact h.fits line (mem_append_left _ hline)
    rw [mem_singleton.mp hline, cells_push]
    change Fits width (cells w.current_spans ++ [x])
    by_cases hle : w.current_width + character_display_width x.1 ≤ width
    · exact .inl (by omega)
    by_cases hnone : character_display_width x.1 = 0
    · rcases h.fits w.current_spans (by simp) with hfits | ⟨a, y, b, hcells, hwide, hzero⟩
      · exact .inl (by omega)
      · refine .inr ⟨a, y, b ++ [x], by simp [hcells], hwide, ?_⟩
        intro z hz
        rw [← append_assoc, mem_append, mem_singleton] at hz
        rcases hz with hz | rfl
        · exact hzero z hz
        · exact hnone
    · -- the line has no width, so the character alone is too wide
      have hempty : line_width (cells w.current_spans) = 0 := by omega
      refine .inr ⟨cells w.current_spans, x, [], rfl, by omega, ?_⟩
      intro y hy
      obtain ⟨a, b, hab⟩ := append_of_mem (append_nil _ ▸ hy)
      rw [hab, line_width_append, line_width_cons] at hempty
      omega
  · intro before after hlines
    have hright := h.whole before after hlines
    simpa [cells_push] using hright

theorem Laid.push (h : Laid width text w (x :: rest))
    (hwhole : width < w.current_width + character_display_width x.1 →
      Whole width w.laid (x :: rest)) :
    Laid width text (push_character_with_hard_wrap width w x.2 x.1) rest := by
  dsimp only [push_character_with_hard_wrap]
  split
  · next hbreak => exact (h.break_line (hwhole hbreak.2.2)).add (.inl rfl)
  · exact h.add (by omega)

/-- A word is pushed; a part of it was before. -/
theorem Laid.push_word {done u v : List (Cell S)} (h : Laid width text w (v ++ rest))
    (hlaid : w.laid = done ++ u) (hdone : done.rtakeWhile in_word = [])
    (hrest : rest.takeWhile in_word = []) (hword : ∀ x ∈ u ++ v, in_word x = true)
    (hshort : line_width (u ++ v) ≤ width → w.current_width + line_width v ≤ width) :
    Laid width text (v.foldl (fun w x => push_character_with_hard_wrap width w x.2 x.1) w)
      rest := by
  induction v generalizing w u with
  | nil => exact h
  | cons x v ih =>
    rw [cons_append] at h
    have hpush : Laid width text (push_character_with_hard_wrap width w x.2 x.1) (v ++ rest) := by
      apply h.push
      intro hwide
      have hleft : (done ++ u).rtakeWhile in_word = u := by
        rw [rtakeWhile, reverse_append, takeWhile_append_of_pos, reverse_append,
          ← rtakeWhile, hdone, reverse_reverse, nil_append]
        exact fun y hy => hword y (mem_append_left _ (mem_reverse.mp hy))
      have hright : (x :: (v ++ rest)).takeWhile in_word = x :: v := by
        rw [← cons_append, takeWhile_append_of_pos, hrest, append_nil]
        exact fun y hy => hword y (mem_append_right u hy)
      right; right
      rw [hlaid, hleft, hright]
      by_contra hle
      have hfits := hshort (by omega)
      rw [line_width_cons] at hfits
      omega
    rw [append_cons] at hword hshort
    refine ih hpush (by rw [h.laid_eq hpush, hlaid, append_assoc]) hword fun hle => ?_
    have hfits := hshort hle
    rw [line_width_cons] at hfits
    dsimp only [push_character_with_hard_wrap]
    rw [if_neg (by omega)]
    omega

/-! ## The loop -/

/-- Between two characters: the pending word is the start of a word of the text. -/
structure Waiting (width : Nat) (text : List (Cell S)) (w : Wrapping S) (rest : List (Cell S)) :
    Prop where
  laid : Laid width text w.toLines (cells w.pending_word_spans ++ rest)
  pending : w.pending_word_width = line_width (cells w.pending_word_spans)
  word : ∀ x ∈ cells w.pending_word_spans, in_word x = true
  boundary : w.laid.rtakeWhile in_word = []

variable {w : Wrapping S}

theorem Waiting.flush (h : Waiting width text w rest) (hrest : rest.takeWhile in_word = []) :
    Laid width text (flush_pending_word_with_wrap width w).toLines rest
    ∧ (flush_pending_word_with_wrap width w).pending_word_spans = []
    ∧ (flush_pending_word_with_wrap width w).pending_word_width = 0 := by
  have hlaid := h.laid
  have hwidth := h.pending
  unfold flush_pending_word_with_wrap
  split
  · next hnil =>
    rw [hnil] at hlaid hwidth
    exact ⟨hlaid, hnil, hwidth⟩
  refine ⟨?_, rfl, rfl⟩
  dsimp only
  rw [for_characters_eq]
  -- the line is broken before the word or not
  split
  · have hbroken := hlaid.break_line (.inl h.boundary)
    refine Laid.push_word (u := []) hbroken ?_ h.boundary hrest h.word fun hle => ?_
    · rw [append_nil, append_cancel_right (hbroken.text.trans hlaid.text.symm)]
    · simpa [Lines.break_line] using hle
  · exact hlaid.push_word (append_nil _).symm h.boundary hrest h.word (by
      rw [nil_append]
      omega)

theorem Waiting.take (h : Waiting width text w (x :: rest)) :
    Waiting width text (take_character width w x.2 x.1) rest := by
  unfold take_character
  split
  · next hspace =>
    have hx : in_word x = false := by rw [in_word, hspace]; rfl
    have hnone : (x :: rest).takeWhile in_word = [] := by simp [hx]
    obtain ⟨hlaid, hpending, hwidth⟩ := h.flush hnone
    have hpush := hlaid.push fun _ => .inr (.inl hnone)
    refine ⟨?_, ?_, ?_, ?_⟩
    · dsimp only
      rw [hpending]
      exact hpush
    · rw [hwidth, hpending]
      rfl
    · rw [hpending]
      exact nofun
    · rw [hlaid.laid_eq hpush, rtakeWhile_concat, if_neg (Bool.eq_false_iff.mp hx)]
  · next hspace =>
    have hlaid := h.laid
    rw [append_cons, ← cells_push] at hlaid
    refine ⟨hlaid, ?_, ?_, h.boundary⟩
    · rw [cells_push, line_width_append, ← h.pending]
      rfl
    · intro y hy
      rw [cells_push, mem_append, mem_singleton] at hy
      rcases hy with hy | rfl
      · exact h.word y hy
      · simpa [in_word] using hspace

theorem Waiting.run (h : Waiting width text w rest) :
    Waiting width text (rest.foldl (fun w x => take_character width w x.2 x.1) w) [] := by
  induction rest generalizing w with
  | nil => exact h
  | cons x rest ih => exact ih h.take

/-- **Wrapping keeps every character** with its style, in order; its lines fit; and a word that
fits a line is not split. -/
theorem wrap_verbatim_keeps_words (spans : List (Span S)) (width : Nat) (h : 0 < width) :
    Wrapped width (cells spans) (wrap_verbatim_spans_with_word_boundaries width spans) := by
  have hstart : Waiting width (cells spans) ⟨⟨[], [], 0⟩, [], 0⟩ (cells spans) := by
    refine ⟨⟨rfl, rfl, ?_, ?_⟩, rfl, nofun, rfl⟩
    · intro line hline
      rw [mem_singleton.mp hline]
      exact .inl (Nat.zero_le _)
    · intro before after hlines
      obtain ⟨rfl, rfl⟩ := append_eq_nil_iff.mp hlines.symm
      exact .inl rfl
  -- a text without characters is one empty line
  have hempty : cells spans = [] → Wrapped width (cells spans) ([[]] : List (List (Span S))) := by
    intro hnil
    rw [hnil] at hstart ⊢
    exact (hstart.laid.break_line (.inl rfl)).wrapped rfl
  obtain ⟨hlaid, -, -⟩ := hstart.run.flush rfl
  unfold wrap_verbatim_spans_with_word_boundaries
  rw [if_neg (by omega), for_characters_eq]
  dsimp only
  generalize (flush_pending_word_with_wrap width _ : Wrapping S) = w at hlaid ⊢
  split
  · next hall =>
    apply hempty
    simpa [cells] using hall
  by_cases hcurrent : w.current_spans = []
  · have hwrapped := hlaid.wrapped hcurrent
    rw [if_pos hcurrent]
    split
    · next hnil =>
      rw [hnil] at hwrapped
      exact hempty hwrapped.text.symm
    · exact hwrapped
  · rw [if_neg hcurrent, if_neg (by simp)]
    exact (hlaid.break_line (.inr (.inl rfl))).wrapped rfl

end Proofs

/-- Every character has a width of one. -/
@[reducible] def one_column : DisplayWidth := ⟨fun _ => 1⟩

theorem wrap_verbatim_keeps_words_styled :
    let spans : List (Span Nat) := [⟨"ab c".toList, 0⟩, ⟨"de fghijkl".toList, 1⟩]
    let lines := @wrap_verbatim_spans_with_word_boundaries Nat _ one_column 5 spans
    lines.map (fun line => line.map fun span => (String.ofList span.content, span.style))
      = [[("ab ", 0)], [("c", 0), ("de ", 1)], [("fghij", 1)], [("kl", 1)]]
    ∧ @Wrapped Nat one_column 5 (cells spans) lines :=
  ⟨by decide +kernel, @wrap_verbatim_keeps_words Nat one_column _ _ 5 (by decide)⟩

end Agentty.Ui
