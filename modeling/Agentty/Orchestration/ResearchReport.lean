/-
The report of a research child as it is sent to its controller.

A report is sent as JSON text within a number of bytes. If it is too long, a search over
byte positions finds how much of it fits before a notice of the truncation. `serde_json` is
a parameter, a writer of string literals. That the search finds the longest part rests on
two facts: a longer part takes no less room as JSON, and no text takes less room as JSON
than it has bytes.
-/
import Agentty.Json

set_option autoImplicit false

namespace Agentty.Orchestration

open Text List

def RESEARCH_REPORT_MAX_JSON_BYTES : Nat := 32 * 1024

def RESEARCH_REPORT_TRUNCATION : List Char :=
  " [research report truncated; omitted content is unverified]".toList

/-- `&report[..n]`, at a boundary of characters. -/
def slice_to (report : List Char) (n : Nat) : List Char :=
  (split_at_checked n report).elim [] Prod.fst

/-- The `while` loop: the part up to `start` fits, and none beyond `last` is tried. -/
def search (fits : Nat → Bool) (start last : Nat) : Nat :=
  if _hlt : start < last then
    let middle := start + (last - start + 1) / 2
    if fits middle then search fits middle last else search fits start (middle - 1)
  else start
termination_by last - start

/-- `to_string` is `serde_json::json!(text).to_string()`. -/
def research_report_json (to_string : List Char → List Char) (report : List Char) : List Char :=
  let last := floor_char_boundary report (min (str_len report) (RESEARCH_REPORT_MAX_JSON_BYTES - 2))
  let encoded := to_string (slice_to report last)
  if last = str_len report ∧ str_len encoded ≤ RESEARCH_REPORT_MAX_JSON_BYTES then encoded
  else
    let suffix_bytes := str_len (to_string RESEARCH_REPORT_TRUNCATION) - 2
    let start := search (fun middle =>
      str_len (to_string (slice_to report (floor_char_boundary report middle))) + suffix_bytes
        ≤ RESEARCH_REPORT_MAX_JSON_BYTES) 0 last
    to_string (slice_to report (floor_char_boundary report start) ++ RESEARCH_REPORT_TRUNCATION)

/-- The search ends within its bounds, at a position that fits unless it is the first, and
before the last only if the next one does not fit. -/
theorem search_spec (fits : Nat → Bool) {start last : Nat} (h : start ≤ last) :
    start ≤ search fits start last ∧ search fits start last ≤ last
    ∧ (search fits start last = start ∨ fits (search fits start last) = true)
    ∧ (search fits start last < last → fits (search fits start last + 1) = false) := by
  fun_induction search fits start last with
  | case1 start last hlt middle hfits ih =>
    obtain ⟨hlow, hhigh, hchosen, hmore⟩ := ih (by omega)
    refine ⟨by omega, hhigh, ?_, hmore⟩
    rcases hchosen with hsame | hchosen
    · rw [hsame]
      exact .inr hfits
    · exact .inr hchosen
  | case2 start last hlt middle hfits ih =>
    obtain ⟨hlow, hhigh, hchosen, hmore⟩ := ih (by omega)
    refine ⟨hlow, by omega, hchosen, fun _ => ?_⟩
    by_cases hbelow : search fits start (middle - 1) < middle - 1
    · exact hmore hbelow
    · rw [show search fits start (middle - 1) + 1 = middle by omega]
      exact Bool.not_eq_true _ ▸ hfits
  | case3 start last hnot =>
    exact ⟨Nat.le_refl _, h, .inl rfl, fun hlt => absurd hlt hnot⟩

/-! ## Parts of a text -/

variable {s a b : List Char}

/-- Of two parts from the start, the one with fewer bytes is part of the other. -/
theorem prefix_of_str_len_le (ha : a <+: s) (hb : b <+: s) (hle : str_len a ≤ str_len b) :
    a <+: b := by
  rcases prefix_or_prefix_of_prefix ha hb with h | ⟨c, rfl⟩
  · exact h
  · rw [str_len_append] at hle
    have hc : c = [] := str_len_eq_zero.mp (by omega)
    simp only [hc, append_nil, prefix_refl]

/-- The slice up to a position is the longest part that ends there or before. -/
theorem slice_to_floor (s : List Char) (n : Nat) :
    slice_to s (floor_char_boundary s n) <+: s
    ∧ str_len (slice_to s (floor_char_boundary s n)) = floor_char_boundary s n
    ∧ floor_char_boundary s n ≤ n
    ∧ ∀ a, a <+: s → str_len a ≤ n → str_len a ≤ floor_char_boundary s n := by
  obtain ⟨a, b, rfl, hlen, hle, hlast⟩ := floor_char_boundary_spec s n
  rw [← hlen, slice_to, split_at_checked_append, Option.elim_some]
  refine ⟨prefix_append a b, rfl, hle, ?_⟩
  rintro a' ⟨b', hs⟩ hn
  exact hlast a' b' hs.symm hn

theorem slice_to_str_len (s : List Char) : slice_to s (str_len s) = s := by
  have hcut := split_at_checked_append s []
  rw [append_nil] at hcut
  rw [slice_to, hcut, Option.elim_some]

/-! ## The report -/

variable {to_string : List Char → List Char}

/-- The text fits together with the notice. -/
def FitsCut (to_string : List Char → List Char) (text : List Char) : Prop :=
  str_len (to_string (text ++ RESEARCH_REPORT_TRUNCATION)) ≤ RESEARCH_REPORT_MAX_JSON_BYTES

/-- The test of the search is whether the part up to a position fits. -/
theorem fitsCut_iff (h : Json.Writes to_string) (text : List Char) :
    FitsCut to_string text ↔ str_len (to_string text)
      + (str_len (to_string RESEARCH_REPORT_TRUNCATION) - 2) ≤ RESEARCH_REPORT_MAX_JSON_BYTES := by
  have happend := h.append text RESEARCH_REPORT_TRUNCATION
  have hnotice := (h.str_len_bounds RESEARCH_REPORT_TRUNCATION).1
  unfold FitsCut
  omega

/-- The notice alone fits. -/
theorem fitsCut_nil (h : Json.Writes to_string) : FitsCut to_string [] := by
  have hnotice := (h.str_len_bounds RESEARCH_REPORT_TRUNCATION).2
  have hlength : 6 * RESEARCH_REPORT_TRUNCATION.length + 2 ≤ RESEARCH_REPORT_MAX_JSON_BYTES := by
    decide
  unfold FitsCut
  rw [nil_append]
  omega

theorem FitsCut.mono (h : Json.Writes to_string) (hpart : a <+: b)
    (hb : FitsCut to_string b) : FitsCut to_string a := by
  rw [fitsCut_iff h] at hb ⊢
  have hle := h.mono hpart
  omega

/-- What the search finds is the longest part that fits, if no longer one than the last
position does. -/
theorem search_longest (h : Json.Writes to_string) {report : List Char} {last : Nat}
    (hlast : ∀ other, other <+: report → FitsCut to_string other → str_len other ≤ last)
    (fits : Nat → Bool)
    (hfits : ∀ n, fits n = true ↔
      FitsCut to_string (slice_to report (floor_char_boundary report n))) :
    let part := slice_to report (floor_char_boundary report (search fits 0 last))
    FitsCut to_string part
    ∧ ∀ other, other <+: report → FitsCut to_string other → other <+: part := by
  obtain ⟨-, -, hchosen, hmore⟩ := search_spec fits (Nat.zero_le last)
  generalize search fits 0 last = start at hchosen hmore ⊢
  obtain ⟨hpart, hlen, hstart, hnearest⟩ := slice_to_floor report start
  constructor
  · rcases hchosen with rfl | hfound
    · have hnil : slice_to report (floor_char_boundary report 0) = [] :=
        str_len_eq_zero.mp (by omega)
      rw [hnil]
      exact fitsCut_nil h
    · exact (hfits start).mp hfound
  · intro other hother hcut
    have hwithin := hlast other hother hcut
    apply prefix_of_str_len_le hother hpart
    rw [hlen]
    apply hnearest other hother
    by_contra hbeyond
    -- the slice up to the next position is within the other part, and does not fit
    obtain ⟨hnext, hlen', hstart', -⟩ := slice_to_floor report (start + 1)
    have hinside := prefix_of_str_len_le hnext hother (by omega)
    have hfound := (hfits (start + 1)).mpr (hcut.mono h hinside)
    rw [hmore (by omega)] at hfound
    cases hfound

/-- **A report is sent as a literal of the whole if that fits**, and otherwise of the longest
part from its start that fits together with the notice. -/
theorem research_report_json_longest (to_string : List Char → List Char)
    (h : Json.Writes to_string) (report : List Char) :
    ∃ text, Json.Literal (research_report_json to_string report) text
      ∧ str_len (research_report_json to_string report) ≤ RESEARCH_REPORT_MAX_JSON_BYTES
      ∧ (str_len (to_string report) ≤ RESEARCH_REPORT_MAX_JSON_BYTES ∧ text = report
        ∨ RESEARCH_REPORT_MAX_JSON_BYTES < str_len (to_string report)
          ∧ ∃ part, part <+: report ∧ text = part ++ RESEARCH_REPORT_TRUNCATION
            ∧ ∀ other, other <+: report →
              str_len (to_string (other ++ RESEARCH_REPORT_TRUNCATION))
                ≤ RESEARCH_REPORT_MAX_JSON_BYTES → other <+: part) := by
  obtain ⟨-, -, hbelow, hlongest⟩ :=
    slice_to_floor report (min (str_len report) (RESEARCH_REPORT_MAX_JSON_BYTES - 2))
  unfold research_report_json
  dsimp only
  generalize floor_char_boundary report (min (str_len report) (RESEARCH_REPORT_MAX_JSON_BYTES - 2))
    = last at hbelow hlongest ⊢
  split
  · next hwhole =>
    obtain ⟨hall, hfits⟩ := hwhole
    rw [hall, slice_to_str_len] at hfits ⊢
    exact ⟨report, h.literal report, hfits, .inl ⟨hfits, rfl⟩⟩
  next hcut =>
  have hlong : RESEARCH_REPORT_MAX_JSON_BYTES < str_len (to_string report) := by
    by_contra hfits
    have hroom := (h.str_len_bounds report).1
    have hall : last = str_len report := by
      have hle := hlongest report (prefix_refl report) (by omega)
      omega
    rw [hall, slice_to_str_len] at hcut
    omega
  have hlast : ∀ other, other <+: report → FitsCut to_string other → str_len other ≤ last := by
    intro other hother hfits
    rw [fitsCut_iff h] at hfits
    have hroom := (h.str_len_bounds other).1
    obtain ⟨rest, hrest⟩ := hother
    apply hlongest other ⟨rest, hrest⟩
    rw [← hrest, str_len_append]
    omega
  obtain ⟨hfits, hmost⟩ := search_longest h hlast _ fun n =>
    decide_eq_true_iff.trans (fitsCut_iff h _).symm
  exact ⟨_, h.literal _, hfits, .inr ⟨hlong, _, (slice_to_floor report _).1, rfl, hmost⟩⟩

theorem research_report_json_longest_quotes :
    ∃ text, Json.Literal (research_report_json Json.write "say \"hi\"".toList) text
      ∧ research_report_json Json.write "say \"hi\"".toList = "\"say \\\"hi\\\"\"".toList
      ∧ text = "say \"hi\"".toList := by
  have hfits : str_len (Json.write "say \"hi\"".toList) ≤
      RESEARCH_REPORT_MAX_JSON_BYTES := by decide
  obtain ⟨text, hliteral, -, hcases⟩ :=
    research_report_json_longest Json.write Json.writes_write "say \"hi\"".toList
  refine ⟨text, hliteral, by decide +kernel, ?_⟩
  rcases hcases with ⟨-, hwhole⟩ | ⟨hlong, -⟩
  · exact hwhole
  · exact absurd hfits (Nat.not_le.mpr hlong)

end Agentty.Orchestration
