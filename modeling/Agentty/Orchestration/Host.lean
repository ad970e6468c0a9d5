/-
The process that hosts the campaigns.

Three kinds of actors run the programs of `Handler` and `Coordinator`. The
coordinator is one background loop (`OrchestrationCoordinator::run`), so one
pass at a time. The foreground app serves user commands one after another
(`apply_session_runtime_command` takes `&mut self`); it also serves the session
service, so a service call of the coordinator waits while a user command is
being served. A session worker runs its turns one after another, so there is at
most one controller turn per controller. The process holds an exclusive lock,
so there are no other actors.

Everything else that moves the persisted state is the environment: session
workers changing the status of their session along `can_transition_to` and
recording what a turn produced, operations being worked off, settings, and the
user creating sessions.
-/
import Agentty.System
import Agentty.Orchestration.Coordinator

set_option autoImplicit false

namespace Agentty.Orchestration

/-- Who runs a campaign program. -/
inductive Actor where
  | coordinator
  | app
  | controller (session_id : SessionId)
  deriving DecidableEq, Repr

/-- What is asked of the process. -/
inductive Command where
  /-- One coordinator pass. -/
  | reconcile
  /-- A controller turn ended with a response. -/
  | controller_turn (session_id : SessionId) (response : AgentResponse)
  /-- The user approves the parked step. -/
  | approve (session_id : SessionId) (approach : Option IntegrationApproach)
  /-- The user detaches a child. -/
  | detach (child_session_id : SessionId)
  /-- The user cancels a session. -/
  | cancel (session_id : SessionId)
  /-- The user answers the questions of a session. -/
  | answer (session_id : SessionId) (answers : List QuestionAnswer)
  deriving DecidableEq, Repr

def Command.actor : Command → Actor
  | .reconcile => .coordinator
  | .controller_turn session_id _ => .controller session_id
  | _ => .app

/-- The program that serves a command; nobody waits for its result. -/
def Command.program : Command → Run Unit
  | .reconcile => reconcile_once
  | .controller_turn session_id response => do
      let _ ← persist_controller_plan session_id response
  | .approve session_id approach => do
      let _ ← approve_orchestration session_id approach
  | .detach child_session_id => do
      let _ ← detach_managed_child child_session_id
  | .cancel session_id => cancel_api_session session_id
  | .answer session_id answers => answer_api_questions session_id answers

/-- What a session worker records about its session besides the status. -/
structure Observation where
  added_lines : Nat
  answer : Option String
  deleted_lines : Nat
  focused_review_status : Option FocusedReviewStatus
  focused_review_text : Option String
  has_diff : Option Bool
  input_tokens : Nat
  output_tokens : Nat
  questions : Option (List QuestionItem)
  deriving DecidableEq, Repr

def Session.observe (s : Session) (o : Observation) : Session :=
  { s with
    added_lines := o.added_lines, answer := o.answer, deleted_lines := o.deleted_lines,
    focused_review_status := o.focused_review_status,
    focused_review_text := o.focused_review_text, has_diff := o.has_diff,
    input_tokens := o.input_tokens, output_tokens := o.output_tokens, questions := o.questions }

/-- A move that no campaign program makes. -/
inductive EnvMove where
  /-- A session changes status. -/
  | session_status (id : SessionId) (next : SessionStatus)
  /-- A session worker records what it produced. -/
  | session_observed (id : SessionId) (observation : Observation)
  /-- The user creates a session. -/
  | session_created (id : SessionId) (project_id : Nat) (orchestrator : Bool)
  /-- A queued operation is worked off. -/
  | operation_status (id : OperationId) (next : OperationStatus)
  /-- The user changes settings. -/
  | settings_changed (settings : Settings)
  deriving DecidableEq, Repr

def created_session (project_id : Nat) (orchestrator : Bool) : Session :=
  { added_lines := 0, answer := none, deleted_lines := 0, focused_review_status := none,
    focused_review_text := none, has_diff := none, input_tokens := 0,
    orchestration_task_id := none, output_tokens := 0, project_id, questions := none,
    role := if orchestrator then .Orchestrator else .Worker, status := .Draft }

def env (w : World) : EnvMove → Option World
  | .session_status id next =>
    some { w with
      sessions := w.sessions.update id (·.status.can_transition_to next)
        fun s => { s with status := next } }
  | .session_observed id observation =>
    some { w with
      sessions := w.sessions.update id (fun _ => true) fun s => s.observe observation }
  | .session_created id project_id orchestrator =>
    if h : w.sessions.get? id = none then
      some { w with sessions := w.sessions.insert id (created_session project_id orchestrator) h }
    else none
  | .operation_status id next =>
    some { w with operations := w.operations.update id (fun _ => true) fun _ => next }
  | .settings_changed settings => some { w with settings }

/-- Calls that the foreground app serves. -/
def Call.is_service : Call → Bool
  | .create_session .. | .send_message .. | .submit_coordinator_message .. | .cancel_session _
  | .merge_session _ | .create_review_request _ | .reply_to_question_answers .. => true
  | _ => false

/-- The app serves one thing at a time: a service call of another actor waits
until no user command is being served. -/
def admits (busy : Actor → Bool) (a : Actor) (c : Call) : Bool :=
  a = .app || !c.is_service || !busy .app

def host : System Call Reply String World Choice EnvMove Actor Command where
  exec := exec
  env := env
  actor := Command.actor
  program := Command.program
  admits := admits

abbrev Configuration := Config Call Reply String World Actor

abbrev HostLabel := Label Choice EnvMove Actor Command

/-- An executed call of the process. -/
abbrev HostEntry := Entry Call Reply String World Actor

def World.initial : World where
  campaigns := .empty
  tasks := .empty
  sessions := .empty
  operations := .empty
  settings := { auto_approve_orchestration_research := none, orchestration_parallelism := none }

/-- The process before anything has happened. -/
def start : Configuration := .idle .initial

/-- A run of the process all of whose steps meet a condition. -/
abbrev Reachable (K : Configuration → HostLabel → Prop) (cfg : Configuration) : Prop :=
  host.Reaches K start cfg

end Agentty.Orchestration
