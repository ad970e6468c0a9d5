/-
The areas of a subtask and the files it changed.

A plan is checked with the scope each area stands for: `normalized_scope` drops white space around
it, `./` before it and slashes after it. `area_violations` compares the changed files with the
areas as they were written, and drops the slashes alone. A scope stands for itself and all paths
below it, so the two agree on every file exactly if the scopes lie in what the files are compared
with, and the other way round.
-/
import Agentty.Orchestration.Plan

set_option autoImplicit false

namespace Agentty.Orchestration

open Agentty.Text List

/-- What `area_violations` makes of an area. -/
def compared (area : String) : List Char := trim_end_matches (· = '/') area.toList

/-- `area_violations` of the coordinator. -/
def area_violations (changed_files touched_areas : List String) : List String :=
  changed_files.filter fun path => !touched_areas.any fun area =>
    path.toList = compared area ||
      (Option.any (·.head? = some '/') <| strip_prefix (compared area) path.toList)

/-- The file is the scope, or lies below it. -/
def Within (scope file : List Char) : Prop := file = scope ∨ scope ++ ['/'] <+: file

/-- The file is in none of the areas, each taken for the scope that the plan was checked with. -/
def Outside (touched_areas : List String) (file : String) : Prop :=
  ∀ area ∈ touched_areas, ∀ scope, normalized_scope area = .ok scope →
    ¬ Within scope.toList file.toList

/-- The scope of each area lies in what some area is compared as, and what each is compared as
lies in the scope of one. -/
def Agree (touched_areas : List String) : Prop :=
  ∀ area ∈ touched_areas, ∀ scope, normalized_scope area = .ok scope →
    (∃ other ∈ touched_areas, Within (compared other) scope.toList) ∧
    ∃ other ∈ touched_areas, ∃ scope', normalized_scope other = .ok scope' ∧
      Within scope'.toList (compared area)

theorem Within.trans {a b c : List Char} (hab : Within a b) (hbc : Within b c) : Within a c := by
  rcases hab with rfl | hab
  · exact hbc
  · rcases hbc with rfl | hbc
    · exact .inr hab
    · exact .inr (hab.trans ((prefix_append b ['/']).trans hbc))

theorem strip_prefix_slash_iff {scope file : List Char} :
    (Option.any (·.head? = some '/') <| strip_prefix scope file) = true ↔
      scope ++ ['/'] <+: file := by
  unfold strip_prefix
  constructor
  · split
    · next hprefix =>
      obtain ⟨suffix, rfl⟩ := isPrefixOf_iff_prefix.mp hprefix
      cases suffix with
      | nil => simp
      | cons => simp [eq_comm]
    · simp
  · rintro ⟨suffix, rfl⟩
    simp

theorem mem_area_violations {changed_files areas : List String} {file : String} :
    file ∈ area_violations changed_files areas ↔
      file ∈ changed_files ∧ ∀ area ∈ areas, ¬ Within (compared area) file.toList := by
  simp only [area_violations, mem_filter, Bool.not_eq_true', any_eq_false,
    Bool.or_eq_true, decide_eq_true_eq, strip_prefix_slash_iff, Within]

/-! ## Accepted plans -/

theorem forM_ok {α : Type} {f : α → Except String Unit} {l : List α} (h : l.forM f = .ok ()) :
    ∀ x ∈ l, f x = .ok () := by
  induction l with
  | nil => exact fun x hx => nomatch hx
  | cons a l ih =>
    simp only [forM_eq_forM, forM_cons, bind, Except.bind] at h
    split at h
    · cases h
    · next hfirst => exact forall_mem_cons.mpr ⟨hfirst, ih h⟩

variable {task_keys : List String}

theorem validate_subtask_areas {subtask : SubtaskItem}
    (h : validate_subtask task_keys subtask = .ok ()) :
    ∀ area ∈ subtask_touched_areas subtask, ∃ scope, normalized_scope area = .ok scope := by
  intro area harea
  unfold subtask_touched_areas at harea
  split at harea
  · cases harea
  rename_i hkind
  have hkind : subtask.kind = .Implementation := by
    cases hk : subtask.kind
    · rfl
    · exact absurd hk hkind
  simp only [validate_subtask, hkind, if_true, throw, throwThe, MonadExceptOf.throw, bind,
    Except.bind] at h
  split at h
  · cases h
  split at h
  · cases h
  have hok := forM_ok h area harea
  split at hok
  · next scope hscope => exact ⟨scope, hscope⟩
  · cases hok

variable {subtasks : List SubtaskItem}

theorem validate_each_areas (h : validate_each task_keys subtasks = .ok ()) : ∀ subtask ∈ subtasks,
      ∀ area ∈ subtask_touched_areas subtask, ∃ scope, normalized_scope area = .ok scope := by
  induction subtasks generalizing task_keys with
  | nil => exact fun subtask hsubtask => nomatch hsubtask
  | cons first rest ih =>
    simp only [validate_each, bind, Except.bind] at h
    split at h
    · cases h
    · next hfirst => exact forall_mem_cons.mpr ⟨validate_subtask_areas hfirst, ih h⟩

/-- **The files that are reported for a subtask of an accepted plan are those outside its areas,
for every list of files, exactly if the two readings of its areas agree.** -/
theorem violations_are_outside {subtasks : List SubtaskItem} {is_retry : Bool}
    {subtask : SubtaskItem} (haccepted : validate_subtasks subtasks is_retry = .ok ())
    (hsubtask : subtask ∈ subtasks) :
    (∀ changed_files file,
      file ∈ area_violations changed_files (subtask_touched_areas subtask) ↔
        file ∈ changed_files ∧ Outside (subtask_touched_areas subtask) file) ↔
      Agree (subtask_touched_areas subtask) := by
  have heach : validate_each [] subtasks = .ok () := by
    simp only [validate_subtasks, throw, throwThe, MonadExceptOf.throw, bind, Except.bind]
      at haccepted
    split at haccepted
    · cases haccepted
    split at haccepted
    · cases haccepted
    exact haccepted
  have hscope := validate_each_areas heach subtask hsubtask
  generalize subtask_touched_areas subtask = areas at hscope ⊢
  simp only [mem_area_violations]
  constructor
  · -- a scope, and what an area is compared as, are themselves files that are not reported
    intro h area harea scope hok
    constructor
    · by_contra hnone
      have hreported := (h [scope] scope).mp ⟨by simp, fun other hother hwithin =>
        hnone ⟨other, hother, hwithin⟩⟩
      exact hreported.2 area harea scope hok (.inl rfl)
    · by_contra hnone
      have hreported := (h [String.ofList (compared area)] (String.ofList (compared area))).mpr
        ⟨by simp, fun other hother scope' hok' hwithin =>
          hnone ⟨other, hother, scope', hok', by rwa [String.toList_ofList] at hwithin⟩⟩
      exact hreported.2 area harea (.inl String.toList_ofList)
  · intro h changed_files file
    refine and_congr_right fun _ => ⟨fun hnone area harea scope hok hwithin => ?_,
      fun houtside area harea hwithin => ?_⟩
    · obtain ⟨⟨other, hother, hin⟩, -⟩ := h area harea scope hok
      exact hnone other hother (hin.trans hwithin)
    · obtain ⟨scope, hok⟩ := hscope area harea
      obtain ⟨-, other, hother, scope', hok', hin⟩ := h area harea scope hok
      exact houtside other hother scope' hok' (hin.trans hwithin)

def subtask_for (task_key area : String) : SubtaskItem :=
  ⟨["done"], .Implementation, "prompt", task_key, "title", [area]⟩

theorem violations_are_outside_plain :
    "docs/a.md" ∈ area_violations ["src/a.rs", "docs/a.md"] ["src/"] ∧
      Outside ["src/"] "docs/a.md" := by
  have hscope : normalized_scope "src/" = .ok "src" := by decide +kernel
  have hcompared : compared "src/" = "src".toList := by decide +kernel
  have hagree : Agree ["src/"] := by
    simp [Agree, hscope, hcompared, Within]
  have h := (@violations_are_outside [subtask_for "a" "src/", subtask_for "b" "docs"] false
    (subtask_for "a" "src/") (by decide +kernel) (by simp)).mpr hagree
  have hreported : "docs/a.md" ∈ area_violations ["src/a.rs", "docs/a.md"] ["src/"] := by
    decide +kernel
  exact ⟨hreported, ((h _ _).mp hreported).2⟩

/-- A file below the area `./src` of an accepted plan is reported. -/
theorem inside_file_reported :
    validate_subtasks [subtask_for "a" "./src", subtask_for "b" "docs"] false = .ok () ∧
      "src/a.rs" ∈ area_violations ["src/a.rs"] (subtask_touched_areas (subtask_for "a" "./src")) ∧
      ¬ Outside (subtask_touched_areas (subtask_for "a" "./src")) "src/a.rs" := by
  refine ⟨by decide +kernel, by decide +kernel, fun h => ?_⟩
  refine h "./src" (by simp [subtask_touched_areas, subtask_for]) "src" (by decide +kernel)
    (.inr ?_)
  decide +kernel

end Agentty.Orchestration
