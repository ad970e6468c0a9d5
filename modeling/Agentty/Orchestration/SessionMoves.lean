/-
What one executed call, or one move of the environment, can do to one session
row: the third catalogue, beside those of `Moves`.

Sessions are written by the worker and the user too, so a call guards its `UPDATE` by what it
expects of the row. The catalogue keeps these guards as hypotheses of its constructors: an
invariant about sessions is checked once for each constructor, and never against the statements
themselves.
-/
import Agentty.Orchestration.Moves

set_option autoImplicit false

namespace Agentty.Orchestration

/-- **How a call changes a session row.** -/
inductive SessionMove (w : World) (id : SessionId) (s : Session) :
    (c : Call) → Except String (Reply c) → Session → Prop where
  | keep {c : Call} {r : Except String (Reply c)} : SessionMove w id s c r s
  /-- A proposal that is stored again loses the child that was linked to it. -/
  | unlinked_upsert {task : PersistedOrchestrationTask} {task_id : TaskId}
      (hlink : s.orchestration_task_id = some task_id) :
      SessionMove w id s (.upsert_orchestration_task task) (.ok task_id)
        { s with orchestration_task_id := none }
  | unlinked_failure {task_id : TaskId} {error : String} {limit : Nat}
      {status : OrchestrationTaskStatus} (hlink : s.orchestration_task_id = some task_id) :
      SessionMove w id s (.record_orchestration_spawn_failure task_id error limit) (.ok status)
        { s with orchestration_task_id := none }
  | review_claimed {task_id : TaskId} {prompt : ContinuationPrompt} {limit : Nat} :
      SessionMove w id s (.claim_orchestration_review_application task_id prompt limit) (.ok true)
        { s with focused_review_status := none, focused_review_text := none }
  | continued {task_id : TaskId} {prompt : String} {criteria areas : List String} :
      SessionMove w id s (.queue_orchestration_continuation task_id prompt criteria areas)
        (.ok true) { s with focused_review_status := none, focused_review_text := none }
  /-- Only the controller of the campaign is done, and only while it waits for the user. -/
  | finished {cid : CampaignId} {k : Campaign} (hk : w.campaign cid = some k)
      (hid : k.controller_session_id = id) (hrole : s.role = .Orchestrator)
      (hs : s.status = .Review ∨ s.status = .Question) :
      SessionMove w id s (.complete_orchestration_campaign cid) (.ok true)
        { s with status := .Done, questions := none }
  | detached {task_id : TaskId} (hlink : s.orchestration_task_id = some task_id)
      (hrole : s.role = .OrchestrationWorker) :
      SessionMove w id s (.detach_orchestration_child id) (.ok true)
        { s with orchestration_task_id := none, role := .Worker }
  /-- The questions of a child are shown at the controller, if it has none of its own. -/
  | relayed {cid : CampaignId} {task_id : TaskId} {questions : List QuestionItem} {k : Campaign}
      (hk : w.campaign cid = some k) (hid : k.controller_session_id = id)
      (hrole : s.role = .Orchestrator) (hs : s.status = .Review ∨ s.status = .Question)
      (hq : s.questions = none) :
      SessionMove w id s (.surface_orchestration_questions cid task_id questions) (.ok true)
        { s with questions := some questions, status := .Question }
  | relay_cleared {cid : CampaignId} {k : Campaign} (hk : w.campaign cid = some k)
      (hid : k.controller_session_id = id) (hrelay : k.relayed_question_task_id.isSome = true)
      (hrole : s.role = .Orchestrator) (hs : s.status = .Question) :
      SessionMove w id s (.clear_orchestration_questions cid) (.ok ())
        { s with questions := none, status := .Review }
  /-- A session's own questions, which no guard protects. -/
  | questions {questions : Option (List QuestionItem)} :
      SessionMove w id s (.update_session_questions id questions) (.ok ()) { s with questions }
  | canceled (hs : allows_cancel s = true) :
      SessionMove w id s (.cancel_session id) (.ok ()) { s with status := .Canceled }

/-- The row `create_session` reserves. -/
inductive SessionBorn (w : World) (id : SessionId) :
    (c : Call) → Except String (Reply c) → Session → Prop where
  | fresh {source : SessionId} {mode : CreateSessionMode} {project : Nat}
      (hnone : w.session id = none)
      (hlink : ∀ id' s, w.session id' = some s → s.orchestration_task_id ≠ some mode.task_id) :
      SessionBorn w id (.create_session source mode project) (.ok id)
        (reserved_session project mode)

/-- The calls that touch the table of sessions at all. The others, most of them, are settled by
`serve_sessions` together. -/
def Call.writes_sessions : Call → Bool
  | .upsert_orchestration_task _ | .record_orchestration_spawn_failure ..
  | .claim_orchestration_review_application .. | .queue_orchestration_continuation ..
  | .complete_orchestration_campaign _ | .detach_orchestration_child _
  | .surface_orchestration_questions .. | .clear_orchestration_questions _
  | .update_session_questions .. | .create_session .. | .cancel_session _ => true
  | _ => false

/-- The other calls keep the table itself, so nothing that is read from it changes. -/
theorem serve_sessions {c : Call} (hc : c.writes_sessions = false) (w : World) (x : Choice) :
    (serve w x c).1.sessions = w.sessions := by
  cases c <;> first | rfl | cases hc
  -- the calls whose effect depends on the state
  all_goals
    simp only [serve, insert_orchestration, approve_orchestration_plan,
      complete_orchestration_rollup, transition_orchestration_and_tasks,
      submit_coordinator_message, claim_session_operation, answered]
    repeat' split
  all_goals rfl

variable {task_id : TaskId}

section SessionInversion

variable {w w' : World} {x : Choice} {id : SessionId} {s' : Session}

section Update

variable {c : Call} {r : Except String (Reply c)} {f : Session → Session}

/-- A row after an `UPDATE` by key: it is the one that was hit, or is as it was. The guard of the
statement is handed to the move. -/
theorem session_of_update {id₀ : SessionId} {p : Session → Bool}
    (h : (w.sessions.update id₀ p f).get? id = some s')
    (hmove : ∀ s, w.session id₀ = some s → p s = true → SessionMove w id₀ s c r (f s)) :
    ∃ s, w.session id = some s ∧ SessionMove w id s c r s' := by
  obtain ⟨s, hs, ⟨rfl, hp, rfl⟩ | ⟨-, rfl⟩⟩ := Table.exists_of_get?_update h
  · exact ⟨s, hs, hmove s hs hp⟩
  · exact ⟨_, hs, .keep⟩

/-- The same for an `UPDATE` by a condition, which may hit any number of rows. -/
theorem session_of_updateAll {p : SessionId → Session → Bool}
    (h : (w.sessions.updateAll p f).get? id = some s')
    (hmove : ∀ s, p id s = true → SessionMove w id s c r (f s)) :
    ∃ s, w.session id = some s ∧ SessionMove w id s c r s' := by
  obtain ⟨s, hs, ⟨hp, rfl⟩ | ⟨-, rfl⟩⟩ := Table.exists_of_get?_updateAll h
  · exact ⟨s, hs, hmove s hp⟩
  · exact ⟨_, hs, .keep⟩

/-- The sessions after a review or continuation claim. -/
theorem session_of_claim {id₀ : TaskId} {p : Task → Bool} {f : Task → Task} {claimed : Bool}
    {reply : Bool → Except String (Reply c)}
    (hx : (if (update_task w id₀ p f).2 then
      (clear_child_review (update_task w id₀ p f).1 id₀, true) else (w, false)) = (w', claimed))
    (h : w'.session id = some s')
    (hmove : ∀ s, SessionMove w id s c (reply true)
      { s with focused_review_status := none, focused_review_text := none }) :
    ∃ s, w.session id = some s ∧ SessionMove w id s c (reply claimed) s' := by
  split at hx
  · cases hx
    exact session_of_updateAll h fun s _ => hmove s
  · cases hx
    exact ⟨s', h, .keep⟩

end Update

/-- An upsert unlinks by the identifier of the task, whether the row was there or is new. -/
theorem session_of_upsert {task : PersistedOrchestrationTask} {r : Except String TaskId}
    (hx : upsert_orchestration_task w task = (w', r)) (h : w'.session id = some s') :
    ∃ s, w.session id = some s ∧ SessionMove w id s (.upsert_orchestration_task task) r s' := by
  unfold upsert_orchestration_task at hx
  split at hx
  · cases hx
    exact ⟨s', h, .keep⟩
  split at hx
  all_goals
    cases hx
    exact session_of_updateAll h fun s hp => .unlinked_upsert (by simpa using hp)

/-- The statement that changes the row does not test it again: the row was read in the same
transaction, so it is still the one that was tested. -/
theorem session_of_detach {child : SessionId} {detached : Bool}
    (hx : detach_orchestration_child w child = (w', detached)) (h : w'.session id = some s') :
    ∃ s, w.session id = some s ∧
      SessionMove w id s (.detach_orchestration_child child) (.ok detached) s' := by
  unfold detach_orchestration_child at hx
  split at hx
  · rename_i s₀ hs₀
    split at hx
    · rename_i task_id hlink
      split at hx
      · rename_i hrole
        cases hx
        refine session_of_update h fun s hs _ => ?_
        cases hs.symm.trans hs₀
        exact .detached hlink hrole
      · cases hx
        exact ⟨s', h, .keep⟩
    · cases hx
      exact ⟨s', h, .keep⟩
  · cases hx
    exact ⟨s', h, .keep⟩

variable {cid : CampaignId}

theorem session_of_complete {completed : Bool}
    (hx : complete_orchestration_campaign w cid = (w', completed)) (h : w'.session id = some s') :
    ∃ s, w.session id = some s ∧
      SessionMove w id s (.complete_orchestration_campaign cid) (.ok completed) s' := by
  simp only [complete_orchestration_campaign] at hx
  split at hx
  · rename_i k hk
    split at hx
    · cases hx
      refine session_of_update h fun s _ hp => ?_
      simp only [Bool.and_eq_true, Bool.or_eq_true, decide_eq_true_eq] at hp
      exact .finished hk rfl hp.1 hp.2
    · cases hx
      exact ⟨s', h, .keep⟩
  · cases hx
    exact ⟨s', h, .keep⟩

/-- The claim reads the controller before it writes it, as `detach_orchestration_child` does. -/
theorem session_of_surface {questions : List QuestionItem} {surfaced : Bool}
    (hx : surface_orchestration_questions w cid task_id questions = (w', surfaced))
    (h : w'.session id = some s') :
    ∃ s, w.session id = some s ∧
      SessionMove w id s (.surface_orchestration_questions cid task_id questions) (.ok surfaced)
        s' := by
  simp only [surface_orchestration_questions] at hx
  split at hx
  · rename_i k hk
    split at hx
    · rename_i hclaimable
      cases hx
      refine session_of_update h fun s hs _ => ?_
      simp only [Bool.and_eq_true, Option.isNone_iff_eq_none, Option.any_eq_true,
        decide_eq_true_eq, Bool.or_eq_true] at hclaimable
      obtain ⟨-, s₀, hs₀, ⟨hrole, hstatus⟩, hq⟩ := hclaimable
      cases hs.symm.trans hs₀
      exact .relayed hk rfl hrole hstatus hq
    · cases hx
      exact ⟨s', h, .keep⟩
  · cases hx
    exact ⟨s', h, .keep⟩

/-- A controller without relayed questions keeps its own. -/
theorem session_of_clear (h : (clear_orchestration_questions w cid).session id = some s') :
    ∃ s, w.session id = some s ∧
      SessionMove w id s (.clear_orchestration_questions cid) (.ok ()) s' := by
  unfold clear_orchestration_questions at h
  split at h
  · rename_i k hk
    split at h
    · rename_i hrelay
      refine session_of_update h fun s _ hp => ?_
      simp only [Bool.and_eq_true, decide_eq_true_eq] at hp
      exact .relay_cleared hk rfl hrelay hp.1 hp.2
    · exact ⟨s', h, .keep⟩
  · exact ⟨s', h, .keep⟩

variable (h : w'.session id = some s')

include h

/-- A session is reserved only for a task that no session is linked to. This is what makes the
child of a task unique. -/
theorem session_of_create {new_id source : SessionId} {mode : CreateSessionMode} {project : Nat}
    {r : Except String SessionId} (hx : create_session w new_id source mode project = (w', r)) :
    (∃ s, w.session id = some s ∧
        SessionMove w id s (.create_session source mode project) r s') ∨
      SessionBorn w id (.create_session source mode project) r s' := by
  unfold create_session at hx
  split at hx
  · cases hx
    exact .inl ⟨s', h, .keep⟩
  split at hx
  · cases hx
    exact .inl ⟨s', h, .keep⟩
  split at hx
  · cases hx
    exact .inl ⟨s', h, .keep⟩
  rename_i hnone
  split at hx
  · rename_i hfree
    cases hx
    simp only [World.session, Table.get?_insert] at h
    split at h
    · rename_i hid
      cases h
      subst hid
      refine .inr (.fresh hfree fun id' s hs => ?_)
      have hchild : load_child_session_id_for_task w mode.task_id = none := by simpa using hnone
      have hother := List.find?_eq_none.mp (Option.map_eq_none_iff.mp hchild) _
        (Table.get?_eq_some_iff.mp hs)
      simpa using hother
    · exact .inl ⟨s', h, .keep⟩
  · cases hx
    exact .inl ⟨s', h, .keep⟩

theorem session_of_cancel {sid : SessionId} {r : Except String Unit}
    (hx : cancel_session w sid = (w', r)) :
    ∃ s, w.session id = some s ∧ SessionMove w id s (.cancel_session sid) r s' := by
  unfold cancel_session at hx
  split at hx
  · cases hx
    exact ⟨s', h, .keep⟩
  split at hx
  · cases hx
    exact session_of_update h fun _ _ => .canceled
  · cases hx
    exact ⟨s', h, .keep⟩

/-- **Every session row after a call comes from a move or an insert.** -/
theorem session_of_serve {c : Call} {r : Except String (Reply c)} (hx : serve w x c = (w', r)) :
    (∃ s, w.session id = some s ∧ SessionMove w id s c r s') ∨ SessionBorn w id c r s' := by
  by_cases hc : c.writes_sessions = true
  · cases c <;> simp only [Call.writes_sessions, Bool.false_eq_true] at hc
    case upsert_orchestration_task task => exact .inl (session_of_upsert hx h)
    case record_orchestration_spawn_failure task_id error limit =>
      simp only [serve, record_orchestration_spawn_failure] at hx
      split at hx
      · cases hx
        exact .inl ⟨s', h, .keep⟩
      · cases hx
        refine .inl (session_of_updateAll h fun s hp => ?_)
        exact .unlinked_failure (by simpa using hp)
    case claim_orchestration_review_application task_id prompt limit =>
      obtain ⟨claimed, hs', rfl⟩ := answered_eq hx
      exact .inl (session_of_claim hs' h fun _ => .review_claimed)
    case queue_orchestration_continuation task_id prompt criteria areas =>
      obtain ⟨queued, hs', rfl⟩ := answered_eq hx
      exact .inl (session_of_claim hs' h fun _ => .continued)
    case complete_orchestration_campaign cid =>
      obtain ⟨completed, hs', rfl⟩ := answered_eq hx
      exact .inl (session_of_complete hs' h)
    case detach_orchestration_child child =>
      obtain ⟨detached, hs', rfl⟩ := answered_eq hx
      exact .inl (session_of_detach hs' h)
    case surface_orchestration_questions cid task_id questions =>
      obtain ⟨surfaced, hs', rfl⟩ := answered_eq hx
      exact .inl (session_of_surface hs' h)
    case clear_orchestration_questions cid =>
      cases hx
      exact .inl (session_of_clear h)
    case update_session_questions sid questions =>
      cases hx
      exact .inl (session_of_update h fun _ _ _ => .questions)
    case create_session source mode project => exact session_of_create h hx
    case cancel_session sid => exact .inl (session_of_cancel h hx)
  · have hsessions : w'.sessions = w.sessions := by
      rw [← serve_sessions (Bool.not_eq_true _ ▸ hc) w x, hx]
    rw [World.session, hsessions] at h
    exact .inl ⟨s', h, .keep⟩

end SessionInversion

variable {w : World} {c : Call} {r : Except String (Reply c)} {id : SessionId}

/-- An executed call may also have failed, and then nothing has moved. -/
theorem Exec.session {w' : World} (h : Exec w c r w') {s' : Session}
    (hs' : w'.session id = some s') :
    (∃ s, w.session id = some s ∧ SessionMove w id s c r s') ∨ SessionBorn w id c r s' := by
  rcases h.cases with ⟨rfl, e, rfl⟩ | ⟨x, hx⟩
  · exact .inl ⟨s', hs', .keep⟩
  · exact session_of_serve hs' hx

/-- No call deletes a session, so the catalogue can be read forwards as well. -/
theorem Exec.session_of_some {w' : World} (h : Exec w c r w') {s : Session}
    (hs : w.session id = some s) : ∃ s', w'.session id = some s' ∧ SessionMove w id s c r s' := by
  obtain ⟨s', hs'⟩ := h.grows.sessions id s hs
  rcases h.session hs' with ⟨s₀, hs₀, hmove⟩ | hborn
  · cases hs.symm.trans hs₀
    exact ⟨s', hs', hmove⟩
  · cases hborn with
    | fresh hnone _ => rw [hnone] at hs; cases hs

/-- No call moves a session out of a final status. -/
theorem SessionMove.status_of_stopped {s s' : Session} (h : SessionMove w id s c r s')
    (hs : s.status.is_stopped = true) : s'.status = s.status := by
  cases h with
  | finished _ _ _ hs' | relayed _ _ _ hs' => rcases hs' with h | h <;> rw [h] at hs <;> cases hs
  | relay_cleared _ _ _ _ hs' => rw [hs'] at hs; cases hs
  | canceled hs' => cases h : s.status <;> simp_all [allows_cancel, SessionStatus.is_stopped]
  | _ => rfl

end Agentty.Orchestration
