/-
The chunks of a diff.

A diff that does not fit a prompt is cut into chunks of a limited number of bytes, by lines
where a line fits. The header line of the file at the cut is repeated in front of the next
chunk, so that a provider that sees one chunk only knows which file its lines belong to. A
header of a quarter of the limit or more is not repeated.

The loop of `chunks` is run with fuel, and a slice that is not at a boundary of characters
ends it without a result, as it panics in the source. Text is a list of characters and its
positions are in bytes, so a chunk is valid UTF-8 as soon as there is a result.
-/
import Mathlib.Data.List.Induction
import Agentty.Lines
import Agentty.Loop
import Agentty.Text

set_option autoImplicit false

namespace Agentty.Review

open Text List

/-! ## The loop -/

def is_file_header (line : List Char) : Bool := "diff --git ".toList.isPrefixOf line

/-- The last header line of a text. -/
def last_file_header (text : List Char) : Option (List Char) :=
  (split_inclusive '\n' text).reverse.find? is_file_header

/-- The position at which the remaining text is cut. -/
def part_end (remaining : List Char) (capacity : Nat) : Nat :=
  let fit := floor_char_boundary remaining (min (str_len remaining) capacity)
  if fit < str_len remaining then
    match (split_at_checked fit remaining).bind fun parts => rfind '\n' parts.1 with
    | some newline => newline + 1
    | none => fit
  else fit

/-- The header that is carried into the chunk after a part. -/
def next_header (limit : Nat) (file_header part : List Char) : List Char :=
  match last_file_header part with
  | some header => if str_len header < limit / 4 then header else []
  | none => file_header

structure Splitting where
  remaining : List Char
  result : List (List Char)
  file_header : List Char

def split_next (limit : Nat) (s : Splitting) : Splitting ⊕ Option (List (List Char)) :=
  if s.remaining = [] then .inr (some s.result)
  else if limit < str_len s.file_header then .inr none
  else
    match split_at_checked (part_end s.remaining (limit - str_len s.file_header)) s.remaining with
    | none => .inr none
    | some (part, rest) => .inl {
        remaining := rest
        result := s.result ++ [s.file_header ++ part]
        file_header := next_header limit s.file_header part }

def chunks (fuel : Nat) (input : List Char) (limit : Nat) : Option (Option (List (List Char))) :=
  loop (split_next limit) fuel ⟨input, [], []⟩

/-! ## One part -/

/-- The text ends with a newline. -/
def Ended (text : List Char) : Prop := ∃ content, text = content ++ ['\n']

variable {remaining : List Char} {capacity : Nat}

/-- A stretch in which the first line fits has a newline, unless nothing is left after it. -/
theorem newline_mem_of_first_fits {a b : List Char} (hne : a ++ b ≠ [])
    (hinside : ∀ a' b', a ++ b = a' ++ b' → str_len a' ≤ capacity → str_len a' ≤ str_len a)
    (hlines : ∀ line ∈ split_inclusive '\n' (a ++ b), str_len line ≤ capacity) :
    b = [] ∨ '\n' ∈ a := by
  obtain ⟨hshape, hflatten⟩ := split_inclusive_spec '\n' (a ++ b)
  cases hsplit : split_inclusive '\n' (a ++ b) with
  | nil =>
    rw [hsplit] at hflatten
    exact absurd hflatten.symm hne
  | cons line lines =>
    rw [hsplit] at hshape hflatten hlines
    have hle := hinside line lines.flatten hflatten.symm (hlines line mem_cons_self)
    cases hshape with
    | last =>
      left
      have hlen := congrArg str_len hflatten
      simp only [flatten_cons, flatten_nil, append_nil, str_len_append] at hlen
      exact str_len_eq_zero.mp (by omega)
    | cons closed =>
      obtain ⟨content, -, rfl⟩ := closed
      rw [flatten_cons, append_eq_append_iff] at hflatten
      obtain ⟨tail, rfl, -⟩ | ⟨tail, hlonger, -⟩ := hflatten
      · simp
      · rw [hlonger, str_len_append] at hle
        rw [str_len_eq_zero.mp (show str_len tail = 0 by omega), append_nil] at hlonger
        simp [← hlonger]

/-- The remaining text is cut at a boundary, within the capacity and not at once. If its
first line fits, it is cut after a line or not at all. -/
theorem part_end_spec (hcapacity : 4 ≤ capacity) (hne : remaining ≠ []) :
    ∃ part rest, split_at_checked (part_end remaining capacity) remaining = some (part, rest) ∧
      str_len part ≤ capacity ∧ part ≠ [] ∧
      ((∀ line ∈ split_inclusive '\n' remaining, str_len line ≤ capacity) →
        rest = [] ∨ Ended part) := by
  obtain ⟨a, b, rfl, hfit, hle, hlast⟩ :=
    floor_char_boundary_spec remaining (min (str_len remaining) capacity)
  have hbound : str_len a ≤ capacity := Nat.le_trans hle (Nat.min_le_right _ _)
  have hinside : ∀ a' b', a ++ b = a' ++ b' → str_len a' ≤ capacity →
      str_len a' ≤ str_len a := by
    intro a' b' hcut hle'
    apply hlast a' b' hcut
    rw [hcut, str_len_append]
    omega
  -- one character has at most four bytes
  have hsome : a ≠ [] := by
    rintro rfl
    obtain ⟨c, s, hcons⟩ := exists_cons_of_ne_nil hne
    have hsize := c.utf8Size_le_four
    have hone := hinside [c] s hcons (by simp; omega)
    have hpos := c.utf8Size_pos
    simp at hone
    omega
  have hcut := split_at_checked_append a b
  unfold part_end
  rw [← hfit]
  simp only [hcut, Option.bind_some]
  by_cases hless : str_len a < str_len (a ++ b)
  · rw [if_pos hless]
    cases hnewline : rfind '\n' a with
    | some i =>
      obtain ⟨content, tail, rfl, rfl⟩ := rfind_eq_some hnewline
      refine ⟨content ++ ['\n'], tail ++ b, ?_, ?_, by simp, fun _ => .inr ⟨content, rfl⟩⟩
      · have hat := split_at_checked_append (content ++ ['\n']) (tail ++ b)
        simpa [show '\n'.utf8Size = 1 from rfl] using hat
      · simp at hbound ⊢
        omega
    | none =>
      refine ⟨a, b, hcut, hbound, hsome, fun hlines => ?_⟩
      have hline := newline_mem_of_first_fits hne hinside hlines
      exact .inl (hline.resolve_right (not_mem_of_rfind hnewline))
  · rw [if_neg hless]
    refine ⟨a, b, hcut, hbound, hsome, fun _ => .inl (str_len_eq_zero.mp ?_)⟩
    rw [str_len_append] at hless
    omega

/-! ## All parts -/

/-- The header that is carried into the chunk after some parts. -/
def carried (limit : Nat) (parts : List (List Char)) : List Char :=
  parts.foldl (next_header limit) []

/-- The result of cutting a text into parts. -/
structure Chunked (limit : Nat) (parts result : List (List Char)) : Prop where
  length : result.length = parts.length
  /-- A chunk is a part with the header carried into it. -/
  chunk : ∀ done part rest, parts = done ++ part :: rest →
    result[done.length]? = some (carried limit done ++ part)
  fits : ∀ chunk ∈ result, str_len chunk ≤ limit

variable {limit : Nat} {parts result : List (List Char)} {part : List Char}

theorem Chunked.snoc (h : Chunked limit parts result)
    (hfits : str_len (carried limit parts ++ part) ≤ limit) :
    Chunked limit (parts ++ [part]) (result ++ [carried limit parts ++ part]) where
  length := by simp [h.length]
  chunk := by
    intro done next rest heq
    rcases rest.eq_nil_or_concat with rfl | ⟨rest, last, rfl⟩
    · obtain ⟨rfl, hpart⟩ := append_inj' heq rfl
      cases hpart
      rw [← h.length, getElem?_concat_length]
    · rw [concat_eq_append, ← cons_append, ← append_assoc] at heq
      obtain ⟨rfl, -⟩ := append_inj' heq rfl
      rw [getElem?_append_left (by simp [h.length])]
      exact h.chunk done next rest rfl
  fits := by
    intro chunk hchunk
    rcases mem_append.mp hchunk with hchunk | hchunk
    · exact h.fits chunk hchunk
    · rwa [mem_singleton.mp hchunk]

theorem next_header_short (hlimit : 16 ≤ limit) {file_header : List Char}
    (h : str_len file_header < limit / 4) (part : List Char) :
    str_len (next_header limit file_header part) < limit / 4 := by
  unfold next_header
  split
  · split
    · assumption
    · rw [str_len_nil]
      omega
  · exact h

/-- Each line has at most three quarters of the limit. -/
def LinesFit (limit : Nat) (text : List Char) : Prop :=
  ∀ line ∈ split_inclusive '\n' text, 4 * str_len line ≤ 3 * limit

/-- A part that is followed by others ends with a newline. -/
structure Whole (parts : List (List Char)) (remaining : List Char) : Prop where
  earlier : ∀ part ∈ parts.dropLast, Ended part
  last : remaining = [] ∨ ∀ part ∈ parts, Ended part

theorem split_append {text more : List Char} (h : text = [] ∨ more = [] ∨ Ended text) :
    split_inclusive '\n' (text ++ more) =
      split_inclusive '\n' text ++ split_inclusive '\n' more := by
  rcases h with rfl | rfl | ⟨content, rfl⟩
  · simp [split_inclusive]
  · simp [split_inclusive]
  · exact split_inclusive_append _ _ _

theorem LinesFit.rest {rest : List Char} (h : LinesFit limit (part ++ rest))
    (hpart : rest = [] ∨ Ended part) : LinesFit limit rest := by
  intro line hline
  apply h line
  rw [split_append (.inr hpart)]
  exact mem_append_right _ hline

theorem Whole.snoc {rest : List Char} (hended : ∀ part ∈ parts, Ended part)
    (hpart : rest = [] ∨ Ended part) : Whole (parts ++ [part]) rest := by
  refine ⟨by rwa [dropLast_concat], hpart.imp_right fun hpart => ?_⟩
  intro p hp
  rcases mem_append.mp hp with hp | hp
  · exact hended p hp
  · rwa [mem_singleton.mp hp]

/-- The loop ends. What it has cut off so far is `parts`, of whole lines if `Fitting`. -/
theorem loop_chunked (hlimit : 16 ≤ limit) (Fitting : Prop) (fuel : Nat)
    (h : Chunked limit parts result) (hheader : str_len (carried limit parts) < limit / 4)
    (hwhole : Fitting → LinesFit limit remaining ∧ Whole parts remaining)
    (hfuel : str_len remaining < fuel) :
    ∃ result' parts', loop (split_next limit) fuel ⟨remaining, result, carried limit parts⟩ =
        some (some result') ∧ Chunked limit parts' result' ∧
      parts'.flatten = parts.flatten ++ remaining ∧
      (Fitting → ∀ part ∈ parts'.dropLast, Ended part) := by
  induction fuel generalizing parts result remaining with
  | zero => omega
  | succ fuel ih =>
    by_cases hnil : remaining = []
    · refine ⟨result, parts, ?_, h, by simp [hnil], fun hfitting => (hwhole hfitting).2.earlier⟩
      exact loop_inr fuel (by simp [split_next, hnil])
    have hcapacity : 4 ≤ limit - str_len (carried limit parts) := by omega
    obtain ⟨part, rest, hcut, hfits, hsome, hlines⟩ := part_end_spec hcapacity hnil
    obtain ⟨rfl, -⟩ := split_at_checked_some hcut
    have hheader' : carried limit (parts ++ [part]) =
        next_header limit (carried limit parts) part := by
      rw [carried, foldl_concat, carried]
    have hbody : split_next limit ⟨part ++ rest, result, carried limit parts⟩ =
        .inl ⟨rest, result ++ [carried limit parts ++ part], carried limit (parts ++ [part])⟩ := by
      unfold split_next
      rw [if_neg hnil, if_neg (by simp only; omega)]
      simp only [hcut, hheader']
    rw [loop_inl fuel hbody]
    have hpos : str_len part ≠ 0 := mt str_len_eq_zero.mp hsome
    rw [str_len_append] at hfuel
    have hchunked : Chunked limit (parts ++ [part]) (result ++ [carried limit parts ++ part]) := by
      apply h.snoc
      rw [str_len_append]
      omega
    have hshort : str_len (carried limit (parts ++ [part])) < limit / 4 := by
      rw [hheader']
      exact next_header_short hlimit hheader part
    have hwhole' : Fitting → LinesFit limit rest ∧ Whole (parts ++ [part]) rest := by
      intro hfitting
      obtain ⟨hfit, hwhole⟩ := hwhole hfitting
      have hpart : rest = [] ∨ Ended part := by
        apply hlines
        intro line hline
        have := hfit line hline
        omega
      exact ⟨hfit.rest hpart, .snoc (hwhole.last.resolve_left hnil) hpart⟩
    obtain ⟨result', parts', hloop, hchunked', hflatten, hended⟩ :=
      ih hchunked hshort hwhole' (by omega)
    exact ⟨result', parts', hloop, hchunked', by simpa using hflatten, hended⟩

/-! ## Attribution -/

theorem last_file_header_append {text : List Char} (h : text = [] ∨ Ended text)
    (read : List Char) : last_file_header (text ++ read) =
      (last_file_header read).or (last_file_header text) := by
  rw [last_file_header, split_append (h.imp_right .inr), reverse_append, find?_append,
    ← last_file_header, ← last_file_header]

theorem ended_flatten (h : ∀ part ∈ parts, Ended part) :
    parts.flatten = [] ∨ Ended parts.flatten := by
  rcases parts.eq_nil_or_concat with rfl | ⟨parts, part, rfl⟩
  · exact .inl rfl
  · obtain ⟨content, rfl⟩ := h part (by simp)
    exact .inr ⟨parts.flatten ++ content, by simp⟩

/-- The last header line of whole lines is a line of them. -/
theorem last_file_header_mem {text header : List Char}
    (h : last_file_header text = some header) :
    header ∈ split_inclusive '\n' text ∧ is_file_header header = true :=
  ⟨mem_reverse.mp (mem_of_find?_eq_some h), find?_some h⟩

theorem closed_of_ended {text line : List Char} (h : Ended text)
    (hline : line ∈ split_inclusive '\n' text) : Closed '\n' line := by
  obtain ⟨content, rfl⟩ := h
  -- with more text behind it, no line is the last
  have hlines := lines_split_inclusive '\n' (content ++ ['\n'] ++ ['x'])
  rw [split_inclusive_append] at hlines
  exact hlines.of_append.2 (by simp [split_inclusive]) line hline

/-- Header lines are shorter than a quarter of the limit, rounded down. -/
def HeadersFit (limit : Nat) (text : List Char) : Prop :=
  ∀ line ∈ split_inclusive '\n' text, is_file_header line = true → str_len line < limit / 4

/-- The header that is carried is the last one of the text so far. -/
theorem carried_eq (hended : ∀ part ∈ parts, Ended part)
    (hheaders : HeadersFit limit parts.flatten) :
    carried limit parts = (last_file_header parts.flatten).getD [] := by
  induction parts using reverseRecOn with
  | nil => rfl
  | append_singleton parts part ih =>
    have hparts : ∀ p ∈ parts, Ended p := fun p hp => hended p (mem_append_left _ hp)
    have hearlier := ended_flatten hparts
    rw [flatten_concat] at hheaders ⊢
    rw [HeadersFit, split_append (hearlier.imp_right .inr), forall_mem_append] at hheaders
    rw [carried, foldl_concat, ← carried, last_file_header_append hearlier, next_header]
    cases hlast : last_file_header part with
    | some header =>
      obtain ⟨hmem, hheader⟩ := last_file_header_mem hlast
      simp [hheaders.2 header hmem hheader]
    | none => exact ih hparts hheaders.1

/-- The carried header stands for the text so far. -/
theorem last_file_header_carried (hended : ∀ part ∈ parts, Ended part)
    (hheaders : HeadersFit limit parts.flatten) (read : List Char) :
    last_file_header (carried limit parts ++ read) =
      last_file_header (parts.flatten ++ read) := by
  have htext := ended_flatten hended
  rw [last_file_header_append htext, carried_eq hended hheaders]
  cases hlast : last_file_header parts.flatten with
  | none => simp
  | some header =>
    obtain ⟨hmem, hheader⟩ := last_file_header_mem hlast
    have hclosed : Closed '\n' header := by
      rcases htext with hnil | htext
      · rw [hnil] at hmem
        cases hmem
      · exact closed_of_ended htext hmem
    have hsplit := split_inclusive_closed hclosed []
    rw [append_nil] at hsplit
    have hself : last_file_header header = some header := by
      simp [last_file_header, hsplit, split_inclusive, hheader]
    rw [Option.getD_some, last_file_header_append, hself]
    obtain ⟨content, -, rfl⟩ := hclosed
    exact .inr ⟨content, rfl⟩

/-- A text is cut into parts, each of which is put behind the header carried into it. If the
lines of a diff have at most three quarters of the limit, and its header lines less than a
quarter rounded down, the parts are of whole lines, and up to any point of a chunk its last
header line is the last one of the diff. -/
theorem chunks_lossless_and_attributed (input : List Char) (limit : Nat) (hlimit : 16 ≤ limit) :
    ∃ result parts, chunks (str_len input + 1) input limit = some (some result) ∧
      Chunked limit parts result ∧ parts.flatten = input ∧
      (LinesFit limit input → HeadersFit limit input →
        ∀ done part rest, parts = done ++ part :: rest → (∀ earlier ∈ done, Ended earlier) ∧
          ∀ read unread, part = read ++ unread →
            last_file_header (carried limit done ++ read) =
              last_file_header (done.flatten ++ read)) := by
  have hnone : Chunked limit [] [] := ⟨rfl, by simp, by simp⟩
  obtain ⟨result, parts, hloop, hchunked, hflatten, hended⟩ :=
    loop_chunked hlimit (LinesFit limit input) (str_len input + 1) hnone
      (show str_len [] < limit / 4 by rw [str_len_nil]; omega)
      (fun hfit => ⟨hfit, by simp, .inr (by simp)⟩) (Nat.lt_succ_self _)
  refine ⟨result, parts, hloop, hchunked, hflatten, fun hfit hheaders done part rest hparts => ?_⟩
  have hdone : ∀ earlier ∈ done, Ended earlier := by
    intro earlier hearlier
    apply hended hfit
    rw [hparts, dropLast_append_of_ne_nil (by simp)]
    exact mem_append_left _ hearlier
  refine ⟨hdone, fun read _ _ => last_file_header_carried hdone ?_ read⟩
  rw [flatten_nil, nil_append, hparts, flatten_append] at hflatten
  intro line hline
  apply hheaders line
  rw [← hflatten, split_append ((ended_flatten hdone).imp_right .inr)]
  exact mem_append_left _ hline

def sample_header : List Char := "diff --git a/x b/x\n".toList

def sample_line : List Char := replicate 50 '+' ++ ['\n']

def sample : List Char := sample_header ++ sample_line ++ sample_line

theorem chunks_lossless_and_attributed_sample :
    LinesFit 80 sample ∧ HeadersFit 80 sample ∧
      ∃ result parts, chunks (str_len sample + 1) sample 80 = some (some result) ∧
        Chunked 80 parts result ∧ parts.flatten = sample ∧
        ∀ done part rest, parts = done ++ part :: rest →
          last_file_header (carried 80 done ++ part) =
            last_file_header (done.flatten ++ part) := by
  have hlines : LinesFit 80 sample := by
    unfold LinesFit
    decide +kernel
  have hheaders : HeadersFit 80 sample := by
    unfold HeadersFit
    decide +kernel
  obtain ⟨result, parts, hchunks, hchunked, hinput, hattributed⟩ :=
    chunks_lossless_and_attributed sample 80 (by decide)
  refine ⟨hlines, hheaders, result, parts, hchunks, hchunked, hinput, ?_⟩
  intro done part rest hparts
  exact (hattributed hlines hheaders done part rest hparts).2 part [] (append_nil part).symm

/-- A header line of less than a quarter of the limit, but not less than the quarter rounded
down, is not carried: the last line has no header in its chunk. -/
theorem header_not_carried :
    LinesFit 77 sample ∧ 4 * str_len sample_header < 77 ∧
      chunks (str_len sample + 1) sample 77 =
        some (some [sample_header ++ sample_line, sample_line]) ∧
      last_file_header sample = some sample_header ∧ last_file_header sample_line = none := by
  unfold LinesFit
  decide +kernel

end Agentty.Review
