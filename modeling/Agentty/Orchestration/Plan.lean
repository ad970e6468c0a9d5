/-
What a controller turn hands over (`ag-protocol`) and the pure checks on it
(`validate_subtasks` of `ag-session`, the bounding and review helpers of
`ag-orchestration` and `ag-session`).
-/
import Agentty.Orchestration.Status
import Agentty.Text

set_option autoImplicit false

namespace Agentty.Orchestration

open Agentty.Text

/-! ## Protocol payloads -/

/-- `SubtaskItem`: one proposed subtask. -/
structure SubtaskItem where
  acceptance_criteria : List String
  kind : OrchestrationTaskKind
  prompt : String
  task_key : String
  title : String
  touched_areas : List String
  deriving DecidableEq, Repr

/-- `VerificationVerdictItem`: the controller's verdict on one subtask. -/
structure VerificationVerdictItem where
  reason : String
  task_key : String
  verdict : Verdict
  deriving DecidableEq, Repr

/-- `QuestionItem`: one clarification question. -/
structure QuestionItem where
  options : List String
  text : String
  deriving DecidableEq, Repr

/-- `QuestionAnswer`: the answer to one clarification question. -/
structure QuestionAnswer where
  question : String
  answer : String
  deriving DecidableEq, Repr

/-- `AgentResponse`: the part of an agent turn's output the campaign reads. -/
structure AgentResponse where
  answer : String
  questions : List QuestionItem
  subtasks : List SubtaskItem
  verification_verdicts : List VerificationVerdictItem
  deriving DecidableEq, Repr

def MAX_SUBTASKS : Nat := 8

def AgentResponse.subtask_items (response : AgentResponse) : List SubtaskItem :=
  response.subtasks.take MAX_SUBTASKS

def AgentResponse.verification_verdict_items (response : AgentResponse) :
    List VerificationVerdictItem :=
  response.verification_verdicts.take MAX_SUBTASKS

/-- `subtask_touched_areas`: research has no areas. -/
def subtask_touched_areas (subtask : SubtaskItem) : List String :=
  if subtask.kind = .Research then [] else subtask.touched_areas

/-! ## Plan validation -/

def is_kebab_case_task_key (task_key : String) : Bool :=
  !task_key.toList.isEmpty && (task_key.toList.splitOn '-').all fun segment =>
    !segment.isEmpty && segment.all fun c => ('a' ≤ c && c ≤ 'z') || ('0' ≤ c && c ≤ '9')

def normalized_scope (area : String) : Except String String :=
  let normalized := trim_end_matches (· = '/') (trim_start_pair '.' '/' (trim area.toList))
  if normalized.isEmpty || normalized.head? = some '/'
      || (normalized.splitOn '/').any (· = "..".toList) then
    .error "use a non-empty repository-relative path"
  else if normalized.any fun c => c ∈ ['*', '?', '[', ']', '\x7b', '\x7d'] then
    .error "use a literal file or directory path; wildcard patterns are not supported"
  else .ok (String.ofList normalized)

/-- Whether a text has only white space. -/
def is_blank (text : String) : Bool := (trim text.toList).isEmpty

/-- The checks of `validate_subtasks` on one subtask, given the keys before it. -/
def validate_subtask (task_keys : List String) (subtask : SubtaskItem) : Except String Unit := do
  if !is_kebab_case_task_key subtask.task_key || task_keys.contains subtask.task_key then
    throw "every subtask needs a unique kebab-case task key."
  if is_blank subtask.prompt || is_blank subtask.title
      || subtask.acceptance_criteria.all is_blank then
    throw ("subtask `" ++ subtask.task_key
      ++ "` needs a title, standalone prompt, and acceptance criteria.")
  if subtask.kind = .Implementation then
    subtask.touched_areas.forM fun area =>
      match normalized_scope area with
      | .ok _ => pure ()
      | .error reason => throw ("subtask `" ++ subtask.task_key ++ "` has invalid touched area `"
          ++ area ++ "`: " ++ reason ++ ".")

/-- The loop of `validate_subtasks`. -/
def validate_each (task_keys : List String) : List SubtaskItem → Except String Unit
  | [] => pure ()
  | subtask :: rest => do
      validate_subtask task_keys subtask
      validate_each (subtask.task_key :: task_keys) rest

def validate_subtasks (subtasks : List SubtaskItem) (is_retry : Bool) : Except String Unit := do
  let is_research_wave := !subtasks.isEmpty && subtasks.all (·.kind = .Research)
  let has_research := subtasks.any (·.kind = .Research)
  if has_research && !is_research_wave then
    throw "research and implementation tasks must be proposed in separate waves."
  if subtasks.length < 2 && !is_retry && !is_research_wave then
    throw "a meaningful orchestration requires at least two subtasks."
  validate_each [] subtasks

/-! An accepted plan names every subtask once; this is what makes one upsert of
a turn never hit the row of another. -/

variable {task_keys : List String} {subtasks : List SubtaskItem}

theorem validate_each_nodup (h : validate_each task_keys subtasks = .ok ()) :
    (subtasks.map (·.task_key)).Nodup ∧ ∀ s ∈ subtasks, s.task_key ∉ task_keys := by
  induction subtasks generalizing task_keys with
  | nil => simp
  | cons subtask rest ih =>
    simp only [validate_each, bind, Except.bind] at h
    split at h
    · cases h
    rename_i hsub
    obtain ⟨hnd, hnot⟩ := ih h
    refine ⟨?_, ?_⟩
    · rw [List.map_cons, List.nodup_cons]
      refine ⟨fun hmem => ?_, hnd⟩
      obtain ⟨s, hs, hkey⟩ := List.mem_map.mp hmem
      exact hnot s hs (hkey ▸ List.mem_cons_self)
    · intro s hs
      rcases List.mem_cons.mp hs with rfl | hs
      · intro hmem
        simp [validate_subtask, hmem, throw, throwThe, MonadExceptOf.throw, bind,
          Except.bind] at hsub
      · exact fun hmem => hnot s hs (List.mem_cons_of_mem _ hmem)

/-- **An accepted plan has pairwise different task keys.** -/
theorem validate_subtasks_nodup {is_retry : Bool}
    (h : validate_subtasks subtasks is_retry = .ok ()) :
    (subtasks.map (·.task_key)).Nodup := by
  simp only [validate_subtasks, bind, Except.bind] at h
  repeat' split at h
  all_goals first | cases h | exact (validate_each_nodup h).1

/-! ## Bounded texts -/

/-- `bounded_goal`: the first paragraph of the answer, cut at 240 characters. -/
def bounded_goal (answer : String) : String :=
  let first_paragraph := match split_once "\n\n".toList answer.toList with
    | some (first, _) => first
    | none => answer.toList
  let goal := bounded 240 (trim first_paragraph)
  if goal.isEmpty then "Complete the approved orchestration plan" else String.ofList goal

def bounded_summary (summary : String) : String :=
  String.ofList (bounded 800 (trim summary.toList))

/-- `bounded_research_report`: the cut replaces the last kept character. -/
def bounded_research_report (report : String) : String :=
  let text := trim report.toList
  String.ofList (if text.length ≤ 32768 then text else text.take 32767 ++ ['…'])

/-! ## Focused-review texts -/

def FocusedReviewStatus.for_text (text : String) : FocusedReviewStatus :=
  match rsplit_once "\n### Coverage\n".toList text.toList with
  | some (_, coverage) =>
    if "Partial review:".toList.isPrefixOf (trim_start coverage) then .Partial else .Ready
  | none => .Ready

def is_no_suggestions_sentinel (suggestions : List Char) : Bool :=
  "- None".toList.isPrefixOf suggestions
    && (suggestions.drop "- None".length).all is_ascii_punctuation

/-- `review_suggestions`: the actionable part of a focused review. -/
def review_suggestions (review_text : String) : Option String := do
  let (_, content) ← split_once "### Suggestions".toList review_text.toList
  let section_text := match split_once "\n### ".toList content with
    | some (first, _) => first
    | none => content
  let suggestions := trim section_text
  if suggestions.isEmpty || is_no_suggestions_sentinel suggestions then none
  else some (String.ofList suggestions)

end Agentty.Orchestration
