/-
Text as a list of lines, and edits of such a list.

Text is a list over any alphabet. `split_inclusive` cuts it into the lines that make it up,
each with its separator; only the last may lack one. `Lines` describes the lists it produces:
cutting and joining are inverse to each other on them.

An edit replaces one stretch of a list by another. `Spliced` says what a list of edits
at stated positions makes of a list: everything between them stays.
-/
import Mathlib.Data.List.Basic
import Mathlib.Algebra.GroupWithZero.Nat

set_option autoImplicit false

namespace Agentty

open List

/-! ## Lines -/

section Lines

variable {α : Type} [DecidableEq α]

/-- `str::split_inclusive` for one separator. -/
def split_inclusive (sep : α) : List α → List (List α)
  | [] => []
  | c :: cs =>
    if c = sep then [c] :: split_inclusive sep cs
    else
      match split_inclusive sep cs with
      | [] => [[c]]
      | line :: lines => (c :: line) :: lines

/-- A line with its separator. -/
def Closed (sep : α) (line : List α) : Prop := ∃ content, sep ∉ content ∧ line = content ++ [sep]

/-- A line without one. -/
def Unclosed (sep : α) (line : List α) : Prop := line ≠ [] ∧ sep ∉ line

/-- The lines of a text: all but the last have their separator. -/
inductive Lines {α : Type} (sep : α) : List (List α) → Prop where
  | nil : Lines sep []
  | last {line : List α} (unclosed : Unclosed sep line) : Lines sep [line]
  | cons {line : List α} {lines : List (List α)} (closed : Closed sep line)
      (rest : Lines sep lines) : Lines sep (line :: lines)

variable {sep : α} {line : List α} {lines lines' : List (List α)}

theorem split_inclusive_closed (h : Closed sep line) (rest : List α) :
    split_inclusive sep (line ++ rest) = line :: split_inclusive sep rest := by
  obtain ⟨content, hmem, rfl⟩ := h
  induction content with
  | nil => simp [split_inclusive]
  | cons c content ih =>
    have hne : c ≠ sep := fun heq => hmem (heq ▸ mem_cons_self)
    have hrest := ih fun hmem' => hmem (mem_cons_of_mem _ hmem')
    rw [cons_append, cons_append, split_inclusive, if_neg hne, hrest]

theorem split_inclusive_unclosed (h : Unclosed sep line) : split_inclusive sep line = [line] := by
  obtain ⟨hne, hmem⟩ := h
  induction line with
  | nil => exact absurd rfl hne
  | cons c rest ih =>
    have hc : c ≠ sep := fun heq => hmem (heq ▸ mem_cons_self)
    rw [split_inclusive, if_neg hc]
    cases rest with
    | nil => rfl
    | cons d rest =>
      rw [ih (by simp) fun hmem' => hmem (mem_cons_of_mem _ hmem')]

/-- **Joining and cutting again gives the lines back.** -/
theorem Lines.split_flatten (h : Lines sep lines) : split_inclusive sep lines.flatten = lines := by
  induction h with
  | nil => rfl
  | last unclosed => simpa using split_inclusive_unclosed unclosed
  | cons closed _ ih => rw [flatten_cons, split_inclusive_closed closed, ih]

/-- Cutting gives lines, and joining them gives the text back. -/
theorem split_inclusive_spec (sep : α) (text : List α) :
    Lines sep (split_inclusive sep text) ∧ (split_inclusive sep text).flatten = text := by
  induction text with
  | nil => exact ⟨.nil, rfl⟩
  | cons c text ih =>
    obtain ⟨hlines, hflatten⟩ := ih
    by_cases hc : c = sep
    · subst hc
      rw [split_inclusive, if_pos rfl]
      exact ⟨.cons ⟨[], by simp, rfl⟩ hlines, by simp [hflatten]⟩
    · rw [split_inclusive, if_neg hc]
      cases hsplit : split_inclusive sep text with
      | nil =>
        rw [hsplit] at hflatten
        refine ⟨.last ⟨by simp, by simpa using Ne.symm hc⟩, ?_⟩
        simp [← hflatten]
      | cons =>
        rw [hsplit] at hlines hflatten
        refine ⟨?_, by simpa using hflatten⟩
        cases hlines with
        | last unclosed =>
          exact .last ⟨by simp, by simp [Ne.symm hc, unclosed.2]⟩
        | cons closed rest =>
          obtain ⟨content, hmem, rfl⟩ := closed
          exact .cons ⟨c :: content, by simp [Ne.symm hc, hmem], rfl⟩ rest

/-- Text after whole lines is cut on its own. -/
theorem split_inclusive_append (sep : α) (content text : List α) :
    split_inclusive sep (content ++ [sep] ++ text) =
      split_inclusive sep (content ++ [sep]) ++ split_inclusive sep text := by
  induction content with
  | nil => simp [split_inclusive]
  | cons c content ih =>
    have hne : split_inclusive sep (content ++ [sep]) ≠ [] := by
      intro hnil
      have hflatten := (split_inclusive_spec sep (content ++ [sep])).2
      simp [hnil] at hflatten
    obtain ⟨line, lines, hlines⟩ := exists_cons_of_ne_nil hne
    rw [cons_append, cons_append, split_inclusive, split_inclusive, ih, hlines]
    by_cases hc : c = sep <;> simp [hc]

theorem lines_split_inclusive (sep : α) (text : List α) : Lines sep (split_inclusive sep text) :=
  (split_inclusive_spec sep text).1

theorem flatten_split_inclusive (sep : α) (text : List α) :
    (split_inclusive sep text).flatten = text :=
  (split_inclusive_spec sep text).2

omit [DecidableEq α] in
theorem Lines.append (h : ∀ line ∈ lines, Closed sep line) (h' : Lines sep lines') :
    Lines sep (lines ++ lines') := by
  induction lines with
  | nil => exact h'
  | cons line lines ih =>
    exact .cons (h line mem_cons_self) (ih fun l hl => h l (mem_cons_of_mem _ hl))

omit [DecidableEq α] in
/-- Lines that are followed by others are closed, and what follows are lines. -/
theorem Lines.of_append (h : Lines sep (lines ++ lines')) :
    Lines sep lines' ∧ (lines' ≠ [] → ∀ line ∈ lines, Closed sep line) := by
  induction lines with
  | nil => exact ⟨h, fun _ line hline => nomatch hline⟩
  | cons line lines ih =>
    rw [cons_append] at h
    generalize hall : lines ++ lines' = all at h
    cases h with
    | last =>
      obtain ⟨rfl, rfl⟩ := append_eq_nil_iff.mp hall
      exact ⟨.nil, fun hne => absurd rfl hne⟩
    | cons closed rest =>
      subst hall
      obtain ⟨hlines', hclosed⟩ := ih rest
      exact ⟨hlines', fun hne => forall_mem_cons.mpr ⟨closed, hclosed hne⟩⟩

omit [DecidableEq α] in
theorem Lines.initial (h : Lines sep (lines ++ lines')) : Lines sep lines := by
  induction lines with
  | nil => exact .nil
  | cons line lines ih =>
    rw [cons_append] at h
    generalize hall : lines ++ lines' = all at h
    cases h with
    | last unclosed =>
      obtain ⟨rfl, rfl⟩ := append_eq_nil_iff.mp hall
      exact .last unclosed
    | cons closed rest => exact .cons closed (ih (hall ▸ rest))

omit [DecidableEq α] in
theorem Lines.mem (h : Lines sep lines) (hline : line ∈ lines) :
    Closed sep line ∨ Unclosed sep line := by
  induction h with
  | nil => cases hline
  | last unclosed =>
    rw [mem_singleton.mp hline]
    exact .inr unclosed
  | cons closed _ ih =>
    rcases mem_cons.mp hline with rfl | hline
    · exact .inl closed
    · exact ih hline

omit [DecidableEq α] in
theorem Lines.ne_nil (h : Lines sep lines) (hline : line ∈ lines) : line ≠ [] := by
  rcases h.mem hline with ⟨content, -, rfl⟩ | ⟨hne, -⟩
  · simp
  · exact hne

end Lines

/-! ## Edits -/

/-- The stretch `old` at position `source` becomes `new`, which then stands at position
`target`. -/
structure Edit (α : Type) where
  source : Nat
  target : Nat
  old : List α
  new : List α

/-- `Spliced i j edits rest result`: after `i` elements of the source and `j` of the
result, the edits turn the rest of the source into the rest of the result. They are in
order and do not overlap. -/
inductive Spliced {α : Type} : Nat → Nat → List (Edit α) → List α → List α → Prop where
  | done {i j : Nat} (rest : List α) : Spliced i j [] rest rest
  | edit {i j : Nat} {edits : List (Edit α)} {rest result : List α} (kept : List α) (e : Edit α)
      (source : e.source = i + kept.length) (target : e.target = j + kept.length)
      (later : Spliced (e.source + e.old.length) (e.target + e.new.length) edits rest result) :
      Spliced i j (e :: edits) (kept ++ e.old ++ rest) (kept ++ e.new ++ result)

variable {α : Type} {i j : Nat} {edits : List (Edit α)} {source result : List α}

section

variable (h : Spliced i j edits source result)

include h

theorem Spliced.sublist :
    (edits.flatMap Edit.old).Sublist source ∧ (edits.flatMap Edit.new).Sublist result := by
  induction h with
  | done rest => exact ⟨nil_sublist _, nil_sublist _⟩
  | edit kept e _ _ _ ih =>
    constructor
    · exact (sublist_append_right kept e.old).append ih.1
    · exact (sublist_append_right kept e.new).append ih.2

theorem Spliced.bounds :
    ∀ e ∈ edits, e.source + e.old.length ≤ i + source.length
      ∧ e.target + e.new.length ≤ j + result.length := by
  induction h with
  | done rest => exact fun e he => nomatch he
  | edit kept e source target _ ih =>
    intro e' he'
    simp only [length_append]
    rcases mem_cons.mp he' with rfl | he'
    · omega
    · have := ih e' he'
      omega

theorem Spliced.length_eq :
    result.length + (edits.map fun e => e.old.length).sum
      = source.length + (edits.map fun e => e.new.length).sum := by
  induction h with
  | done rest => rfl
  | edit =>
    simp only [length_append, map_cons, sum_cons]
    omega

end

/-- Where the source has ended, edits only put in. -/
theorem Spliced.of_nil (h : Spliced i j edits source result) (hnil : source = []) :
    result = edits.flatMap Edit.new ∧ ∀ e ∈ edits, e.old = [] ∧ e.source = i := by
  induction h with
  | done rest => exact ⟨hnil, fun e he => nomatch he⟩
  | edit kept e source _ _ ih =>
    obtain ⟨hkept, hrest⟩ := append_eq_nil_iff.mp hnil
    obtain ⟨rfl, hold⟩ := append_eq_nil_iff.mp hkept
    obtain ⟨rfl, hlater⟩ := ih hrest
    rw [length_nil, Nat.add_zero] at source
    rw [hold, length_nil, Nat.add_zero, source] at hlater
    exact ⟨rfl, forall_mem_cons.mpr ⟨⟨hold, source⟩, hlater⟩⟩

/-- What is put in behind the last element stands behind it if no edit takes it. -/
theorem Spliced.behind_last {initial : List α} {last : α}
    (h : Spliced i j edits (initial ++ [last]) result)
    (hkeeps : ∀ e ∈ edits, e.old ≠ [] → e.source + e.old.length ≠ i + initial.length + 1)
    {e : Edit α} (he : e ∈ edits) (hsource : e.source = i + initial.length + 1)
    (hnew : e.new ≠ []) :
    ∃ before after, result = before ++ last :: after ∧ after ≠ [] := by
  generalize hall : initial ++ [last] = source at h
  induction h generalizing initial with
  | done rest => cases he
  | @edit i j edits rest result kept e' source _ later ih =>
    have hlength := congrArg length hall
    simp only [length_append, length_singleton] at hlength
    rcases eq_nil_or_concat rest with rfl | ⟨rest, last', rfl⟩
    · by_cases hold : e'.old = []
      · rw [hold, append_nil, append_nil] at hall
        refine ⟨initial, e'.new ++ result, by rw [← hall]; simp, ?_⟩
        intro hnil
        obtain ⟨hnil, hresult⟩ := append_eq_nil_iff.mp hnil
        rcases mem_cons.mp he with rfl | he
        · exact hnew hnil
        · have hsub := later.sublist.2
          rw [hresult, sublist_nil, flatMap_eq_nil_iff] at hsub
          exact hnew (hsub e he)
      · rw [length_nil] at hlength
        exact absurd (by omega) (hkeeps e' mem_cons_self hold)
    · rw [concat_eq_append, ← append_assoc] at hall
      obtain ⟨rfl, hlast⟩ := append_inj' hall rfl
      obtain rfl : last = last' := by simpa using hlast
      simp only [length_append] at hkeeps hsource
      have hmem : e ∈ edits := (mem_cons.mp he).resolve_left (by rintro rfl; omega)
      obtain ⟨before, after, rfl, hafter⟩ := @ih rest
        (fun e he hold => by have := hkeeps e (mem_cons_of_mem _ he) hold; omega) hmem
        (by omega) (concat_eq_append).symm
      exact ⟨kept ++ e'.new ++ before, after, by simp, hafter⟩

end Agentty
