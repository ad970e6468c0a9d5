/-
The first prompt of a session whose workspace is being prepared.

A prompt that is submitted before the workspace is ready is saved in the row of
`session_preparation`. When the workspace is ready the app hands the prompt to the session's
worker, under the operation `workspace:{session}`, and the worker starts it by one
transaction, `begin_preparation_prompt_operation`. The app tells from the row of the operation
whether the prompt was handed over before.

The model is of one session. Each repository call is a step and succeeds. The foreground of the
app runs one call at a time; the preparation task, the worker and a crash come between any two
steps of it. After a crash only the store is left, and the startup recovery runs first. Prompts
are numbered as they are saved, so that two equal ones are told apart. What the stack of the
session, its status and its worker say is decided by the environment. Errors and timestamps are
left out, and so is the deletion of a session.
-/
import Agentty.Worker.Operations

set_option autoImplicit false

namespace Agentty.Session.Preparation

open Worker.Operations (Status Outcome Pc)

/-! ## The store -/

inductive SessionPreparationState where
  | preparing | ready | failed | canceled
  deriving DecidableEq, Repr

/-- A row of `session_preparation`. -/
structure SessionPreparationRow (P : Type) where
  state : SessionPreparationState
  prompt : Option (Nat × P)
  deriving DecidableEq, Repr

inductive Kind where
  | start_prompt | reply
  deriving DecidableEq, Repr

/-- The row of the operation `workspace:{session}`. -/
structure Operation where
  kind : Kind
  status : Status
  /-- `started_at IS NOT NULL` -/
  started : Bool
  cancel_requested : Bool
  deriving DecidableEq, Repr

/-- What the transcript makes of a prompt. -/
structure Texts (P M : Type) where
  transcript_text : P → M
  stored_message_content : M → M
  /-- `content.trim().is_empty()` -/
  blank : M → Bool

section Store

variable {P M : Type}

def update_session_preparation (state : SessionPreparationState) (row : SessionPreparationRow P) :
    SessionPreparationRow P :=
  if row.state = .canceled then row else { row with state }

def save_preparation_prompt (number : Nat) (prompt : P) (row : SessionPreparationRow P) :
    Option (SessionPreparationRow P) :=
  if row.prompt.isNone ∧ row.state ≠ .canceled then
    some { row with prompt := some (number, prompt) }
  else none

/-- `cancel_session_preparation`: its two updates, of which one changes the row -/
def cancel_session_preparation (row : SessionPreparationRow P) : SessionPreparationRow P :=
  { row with state := .canceled }

def recover_session_preparations (row : SessionPreparationRow P) : SessionPreparationRow P :=
  if row.state = .preparing ∨ (row.state = .ready ∧ row.prompt.isSome) then
    { row with state := .failed }
  else row

def preparation_prompt_operation_status (operation : Option Operation) : Option Status :=
  operation.bind fun row =>
    if row.status ≠ .failed ∨ row.started then some row.status else none

def reclaim_preparation_prompt_operation (operation : Option Operation) : Option Operation :=
  operation.filter fun row => !(decide (row.status = .failed) && !row.started)

def fail_unfinished_session_operations (row : Operation) : Operation :=
  if row.status.unfinished then { row with status := .failed, cancel_requested := true } else row

def request_cancel_for_session_operations (row : Operation) : Operation :=
  if row.status.unfinished then { row with cancel_requested := true } else row

def mark_session_operation_canceled (row : Operation) : Operation :=
  { row with status := .canceled }

def mark_session_operation_done (row : Operation) : Operation :=
  { row with status := if row.cancel_requested then .canceled else .done }

def mark_session_operation_failed (row : Operation) : Operation :=
  { row with status := if row.cancel_requested then .canceled else .failed }

/-- A row that was inserted or claimed. -/
def Operation.queued (kind : Kind) : Operation := ⟨kind, .queued, false, false⟩

/-- `claim_session_operation`, if it returns `true` -/
def claim_session_operation (kind : Kind) (operation : Option Operation) : Option Operation :=
  match operation with
  | none => some (Operation.queued kind)
  | some row =>
    if row.status = .failed ∨ row.status = .canceled then some (Operation.queued kind) else none

def append_session_message (texts : Texts P M) (text : M) (messages : List M) : List M :=
  let content := texts.stored_message_content text
  if texts.blank content then messages else messages ++ [content]

end Store

/-! ## The process -/

/-- A preparation task: before its load, at its work, and when its event is sent. -/
inductive Task where
  | load | working | finished (ok : Bool)
  deriving DecidableEq, Repr

/-- A command for the prompt, in the mailbox or with the worker. -/
structure Command (P : Type) where
  number : Nat
  prompt : P
  kind : Kind
  /-- The gate of the command is closed. -/
  gated : Bool
  pc : Pc
  deriving DecidableEq, Repr

inductive App (P : Type) where
  | idle
  /-- `queue_preparation_prompt`, before the save -/
  | save (prompt : P) (retry : Bool)
  /-- `retry_workspace_preparation`: its checks, and its update -/
  | retry
  | prepare
  /-- `refresh_workspace_preparation`, and whether the prompt is dispatched then -/
  | refresh (dispatch : Bool)
  /-- `run_prepared_prompt` -/
  | load
  | reclaim (number : Nat) (prompt : P)
  /-- `recover_accepted_preparation_prompt` -/
  | status (number : Nat) (prompt : P)
  | messages (number : Nat) (prompt : P)
  | append (number : Nat) (prompt : P)
  | clear
  /-- `run_prepared_prompt`, if the prompt was not accepted before -/
  | start (number : Nat) (prompt : P)
  /-- `start_session`: the loads of `ensure_session_worktree_ready` and of the saved prompt, the
  gated submission, the insertion and the release of the gate -/
  | worktree_ready (number : Nat) (prompt : P)
  | has_saved_prompt (number : Nat) (prompt : P)
  | submit_gated (number : Nat) (prompt : P)
  | insert
  | release
  /-- `enqueue_session_command_idempotently`: the claim and the submission -/
  | claim (number : Nat) (prompt : P)
  | submit (number : Nat) (prompt : P)
  /-- `dispatch_prepared_prompt`, after an error -/
  | fail
  deriving DecidableEq, Repr

inductive Phase where
  | recover_preparations | recover_operations | running
  deriving DecidableEq, Repr

inductive Event where
  /-- `begin_preparation_prompt_operation` took the prompt. -/
  | begun (number : Nat)
  /-- A turn with the prompt starts. -/
  | executed (number : Nat)
  /-- The recovery writes the prompt to the transcript. -/
  | recorded (number : Nat)
  /-- The recovery clears the saved prompt. -/
  | cleared (number : Nat)
  deriving DecidableEq, Repr

structure State (P M : Type) where
  preparation : Option (SessionPreparationRow P)
  operation : Option Operation
  /-- the user prompts of `session_message` -/
  user_prompts : List M
  phase : Phase
  app : App P
  /-- The session has an entry in `pending_session_creations`. -/
  pending : Bool
  task : Option Task
  commands : List (Command P)
  /-- The snapshot of the session has the message on its preparation. -/
  shown : Bool
  /-- how many prompts were saved -/
  saves : Nat
  log : List Event

/-- The app is started, on a store without a preparation of the session. -/
def State.new {P M : Type} (user_prompts : List M) : State P M where
  preparation := none
  operation := none
  user_prompts
  phase := .recover_preparations
  app := .idle
  pending := false
  task := none
  commands := []
  shown := false
  saves := 0
  log := []

inductive SessionStatus where
  | draft | review | other
  deriving DecidableEq, Repr

/-- What the environment decides at a step of the foreground. -/
structure Choice where
  /-- The session is loaded, and neither its stack nor its eligibility forbids the start. -/
  can_start : Bool
  status : SessionStatus
  /-- The worker takes the submission. -/
  accepted : Bool
  deriving DecidableEq, Repr

variable {P M : Type} [DecidableEq P] [DecidableEq M]

/-- `apply_workspace_preparation`: whether the snapshot gets the message -/
def workspace_preparation_shown (s : State P M) : Bool :=
  s.preparation.any fun row =>
    decide (row.state = .preparing) || decide (row.state = .failed)

def State.saved (s : State P M) : Option (Nat × P) :=
  s.preparation.bind SessionPreparationRow.prompt

/-! ## The foreground -/

/-- `queue_preparation_prompt`, to its load. A staged prompt is retried in any case. -/
def queue_preparation_prompt (s : State P M) (prompt : P) (staged : Bool) : State P M :=
  match s.preparation with
  | none => s
  | some row =>
    if row.state = .canceled then s
    else if row.state = .ready ∧ row.prompt.isNone then s
    else
      let retry := decide (row.state = .failed) || staged
      match row.prompt with
      | some (_, saved) =>
        if saved = prompt then { s with app := if retry then .retry else .refresh false } else s
      | none => { s with app := .save prompt retry }

/-- `run_prepared_prompt`, to its load -/
def load_prepared_prompt (s : State P M) : App P :=
  match s.preparation with
  | some ⟨.ready, some (number, prompt)⟩ => .reclaim number prompt
  | _ => .refresh false

def foreground (texts : Texts P M) (s : State P M) (choice : Choice) : Option (State P M) :=
  match s.app with
  | .idle => none
  | .save prompt retry =>
    match s.preparation.bind (save_preparation_prompt s.saves prompt) with
    | some row =>
      some { s with
        preparation := some row
        saves := s.saves + 1
        app := if retry then .retry else .refresh false }
    | none => some { s with app := .idle }
  | .retry =>
    -- `can_retry_workspace_preparation`: no command holds the reservation of the session
    if s.commands ≠ [] then some { s with app := .idle }
    else some { s with app := if s.pending then .refresh false else .prepare }
  | .prepare =>
    if s.preparation.any fun row => decide (row.state ≠ .canceled) then
      some { s with
        preparation := s.preparation.map (update_session_preparation .preparing)
        pending := true
        task := some .load
        app := .refresh false }
    else some { s with app := .idle }
  | .refresh dispatch =>
    some { s with
      shown := workspace_preparation_shown s
      app := if dispatch then .load else .idle }
  | .load => some { s with app := load_prepared_prompt s }
  | .reclaim number prompt =>
    some { s with
      operation := reclaim_preparation_prompt_operation s.operation
      app := .status number prompt }
  | .status number prompt =>
    match preparation_prompt_operation_status s.operation with
    | none => some { s with app := .start number prompt }
    | some .queued => some { s with app := .refresh false }
    | some _ => some { s with app := .messages number prompt }
  | .messages number prompt =>
    if texts.transcript_text prompt ∈ s.user_prompts then some { s with app := .clear }
    else some { s with app := .append number prompt }
  | .append number prompt =>
    some { s with
      user_prompts := append_session_message texts (texts.transcript_text prompt) s.user_prompts
      app := .clear
      log := .recorded number :: s.log }
  | .clear =>
    some { s with
      preparation := s.preparation.map fun row => { row with prompt := none }
      app := .refresh false
      log := (s.saved.map fun saved => .cleared saved.1).toList ++ s.log }
  | .start number prompt =>
    match choice.can_start, choice.status with
    | true, .draft => some { s with app := .worktree_ready number prompt }
    | true, .review => some { s with app := .claim number prompt }
    | _, _ => some { s with app := .fail }
  | .worktree_ready number prompt =>
    if s.preparation.all fun row => decide (row.state = .ready) then
      some { s with app := .has_saved_prompt number prompt }
    else some { s with app := .fail }
  | .has_saved_prompt number prompt =>
    if s.saved.isSome then some { s with app := .submit_gated number prompt }
    else
      -- the turn runs under an operation of its own
      some { s with app := .refresh false, log := .executed number :: s.log }
  | .submit_gated number prompt =>
    if choice.accepted then
      some { s with
        commands := s.commands ++ [⟨number, prompt, .start_prompt, true, .pending⟩]
        app := .insert }
    else some { s with app := .fail }
  | .insert =>
    match s.operation with
    | none =>
      some { s with operation := some (Operation.queued .start_prompt), app := .release }
    | some _ =>
      -- the identifier is taken, and the gate is dropped
      some { s with commands := s.commands.filter fun c => !c.gated, app := .fail }
  | .release =>
    some { s with
      commands := s.commands.map fun c => { c with gated := false }
      app := .refresh false }
  | .claim number prompt =>
    match claim_session_operation .reply s.operation with
    | some row => some { s with operation := some row, app := .submit number prompt }
    | none => some { s with app := .refresh false }
  | .submit number prompt =>
    if choice.accepted then
      some { s with
        commands := s.commands ++ [⟨number, prompt, .reply, false, .pending⟩]
        app := .refresh false }
    else
      some { s with operation := s.operation.map mark_session_operation_failed, app := .fail }
  | .fail =>
    some { s with
      preparation := s.preparation.map (update_session_preparation .failed)
      app := .refresh false }

/-! ## The preparation task -/

/-- `prepare_reserved_session`; the work may fail. -/
def prepare_reserved_session (s : State P M) (ok : Bool) : Option (State P M) :=
  match s.task with
  | some .load =>
    if s.preparation.any fun row => decide (row.state = .preparing) then
      some { s with task := some .working }
    else some { s with task := some (.finished false) }
  | some .working =>
    some { s with
      preparation := s.preparation.map
        (update_session_preparation (if ok then .ready else .failed))
      task := some (.finished
        (ok && s.preparation.any fun row => decide (row.state ≠ .canceled))) }
  | _ => none

/-! ## The worker -/

/-- The transaction that starts the prompt, if it returns `true`. -/
def begin_preparation_prompt_operation (texts : Texts P M) (s : State P M) (prompt : P) :
    Option (State P M) :=
  match s.operation, s.preparation with
  | some operation, some row =>
    if operation.status = .queued ∧ operation.cancel_requested = false ∧ row.state = .ready then
      row.prompt.map fun saved =>
        let content := texts.stored_message_content (texts.transcript_text prompt)
        { s with
          operation := some { operation with status := .running, started := true }
          user_prompts :=
            if operation.kind = .start_prompt ∧ content ∈ s.user_prompts then s.user_prompts
            else s.user_prompts ++ [content]
          preparation := some { row with prompt := none }
          log := .begun saved.1 :: s.log }
    else none
  | _, _ => none

def State.goto (s : State P M) (i : Nat) (command : Command P) (pc : Pc) : State P M :=
  { s with commands := s.commands.set i { command with pc } }

def State.finish (s : State P M) (i : Nat) : State P M :=
  { s with commands := s.commands.eraseIdx i }

/-- A command is over, with a mark of its operation. -/
def State.mark (s : State P M) (i : Nat) (f : Operation → Operation) : State P M :=
  { s.finish i with operation := s.operation.map f }

def is_session_operation_unfinished (s : State P M) : Bool :=
  s.operation.any fun row => row.status.unfinished

def is_cancel_requested_for_operation (s : State P M) : Bool :=
  s.operation.any fun row => row.cancel_requested && row.status.unfinished

def process_session_command (texts : Texts P M) (s : State P M) (i : Nat) (command : Command P)
    (outcome : Outcome) : Option (State P M) :=
  match command.pc with
  | .first_unfinished =>
    some (if is_session_operation_unfinished s then s.goto i command .first_cancel
      else s.finish i)
  | .first_cancel =>
    some (s.goto i command
      (if is_cancel_requested_for_operation s then .first_mark else .begin_preparation))
  | .first_mark => some (s.mark i mark_session_operation_canceled)
  | .begin_preparation =>
    match begin_preparation_prompt_operation texts s command.prompt with
    | some begun => some (begun.goto i command .last_unfinished)
    | none => some (s.finish i)
  | .last_unfinished =>
    some (if is_session_operation_unfinished s then s.goto i command .last_cancel
      else s.finish i)
  | .last_cancel =>
    some (s.goto i command
      (if is_cancel_requested_for_operation s then .last_mark else .start))
  | .last_mark => some (s.mark i mark_session_operation_canceled)
  | .start => some { s.goto i command .body with log := .executed command.number :: s.log }
  | .body => some (s.goto i command (.terminal outcome))
  | .terminal .ok => some (s.mark i mark_session_operation_done)
  | .terminal .stopped => some (s.mark i mark_session_operation_canceled)
  | .terminal .failed => some (s.mark i mark_session_operation_failed)
  | .unsent | .pending | .mark_running | .finished => none

/-! ## Steps -/

inductive Label (P : Type) where
  | crash
  /-- a call of the startup recovery -/
  | startup
  /-- `start_session_creation`: the session is reserved and its preparation spawned -/
  | reserve
  /-- `insert_session_preparation`, or the copy of a fork -/
  | insert
  | queue_preparation_prompt (prompt : P) (staged : Bool)
  /-- the user's retry of a preparation that is shown -/
  | retry_workspace_preparation
  | complete_session_creation (loaded : Bool)
  /-- `resume_ready_workspace_prompts` comes to the session. -/
  | resume_ready_workspace_prompts
  | reload
  | foreground (choice : Choice)
  | task (ok : Bool)
  | take (i : Nat)
  | process (i : Nat) (outcome : Outcome)
  /-- a retired worker gives up a command -/
  | abandon (i : Nat)
  | request_cancel
  | cancel_session_preparation
  deriving DecidableEq, Repr

/-- The steps of a process that is started up. -/
def running_step (texts : Texts P M) (s : State P M) : Label P → Option (State P M)
  | .crash | .startup => none
  | .reserve =>
    if s.app = .idle ∧ s.preparation.isNone then
      some { s with
        preparation := some ⟨.preparing, none⟩
        pending := true
        task := some .load }
    else none
  | .insert =>
    if s.app = .idle ∧ s.preparation.isNone then
      some { s with preparation := some ⟨.preparing, none⟩ }
    else none
  | .queue_preparation_prompt prompt staged =>
    -- `can_start_staged_session` asks that no command holds the reservation
    if s.app = .idle ∧ (staged → s.commands = []) then
      some (queue_preparation_prompt s prompt staged)
    else none
  | .retry_workspace_preparation =>
    if s.app = .idle ∧ s.shown then some { s with app := .retry } else none
  | .complete_session_creation loaded =>
    match s.task with
    | some (.finished ok) =>
      if s.app = .idle then
        some { s with pending := false, task := none, app := .refresh (ok && loaded) }
      else none
    | _ => none
  | .resume_ready_workspace_prompts =>
    if s.app = .idle ∧
        (s.preparation.any fun row => decide (row.state = .ready) && row.prompt.isSome) then
      some { s with app := .load }
    else none
  | .reload =>
    if s.app = .idle then some { s with shown := workspace_preparation_shown s } else none
  | .foreground choice => foreground texts s choice
  | .task ok => prepare_reserved_session s ok
  | .take i =>
    (s.commands[i]?).bind fun command =>
      if command.pc = .pending ∧ command.gated = false then
        some (s.goto i command .first_unfinished)
      else none
  | .process i outcome =>
    (s.commands[i]?).bind fun command => process_session_command texts s i command outcome
  | .abandon i =>
    (s.commands[i]?).bind fun command =>
      if command.pc = .pending then some (s.mark i mark_session_operation_canceled) else none
  | .request_cancel =>
    some { s with operation := s.operation.map request_cancel_for_session_operations }
  | .cancel_session_preparation =>
    some { s with preparation := s.preparation.map cancel_session_preparation }

def step (texts : Texts P M) (s : State P M) (l : Label P) : Option (State P M) :=
  match l, s.phase with
  | .crash, _ =>
    some { s with
      phase := .recover_preparations
      app := .idle
      pending := false
      task := none
      commands := []
      shown := false }
  | .startup, .recover_preparations =>
    some { s with
      preparation := s.preparation.map recover_session_preparations
      phase := .recover_operations }
  | .startup, .recover_operations =>
    some { s with
      operation := s.operation.map fail_unfinished_session_operations
      phase := .running }
  | l, .running => running_step texts s l
  | _, _ => none

end Agentty.Session.Preparation
