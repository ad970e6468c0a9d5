/-
The operations of a session worker.

A command of a session is tracked by a row of `session_operation`. `process_session_command`
checks the row, marks it running, checks it again, executes the command and records how it
ended. A cancellation request only sets a flag of the row, at any time.

The model is a state machine in which each repository call is a step. A command is inserted
or claimed before it is submitted, or, behind a gate, submitted before it is inserted; the
app does the latter in one call, so that no other command of the operation is made in
between. The worker of a session processes one command at a time, in any order. Repository
calls succeed. Timestamps, kinds and error texts of a row are left out, as no step reads
them.
-/
import Mathlib.Logic.Function.Basic
import Agentty.Machine

set_option autoImplicit false

namespace Agentty.Worker.Operations

inductive Status where
  | queued | running | done | failed | canceled
  deriving DecidableEq, Repr

/-- `status IN ('queued', 'running')` -/
def Status.unfinished : Status → Bool
  | .queued | .running => true
  | _ => false

structure Row (S : Type) where
  session : S
  status : Status
  cancel_requested : Bool
  deriving DecidableEq, Repr

/-- How the body of a command ended. -/
inductive Outcome where
  | ok | stopped | failed
  deriving DecidableEq, Repr

inductive Pc where
  /-- persisted, before `worker.submit` -/
  | unsent
  /-- in the mailbox -/
  | pending
  /-- the first `should_skip_worker_command`: its two reads, and its mark -/
  | first_unfinished
  | first_cancel
  | first_mark
  /-- `mark_session_operation_running` -/
  | mark_running
  /-- `begin_preparation_prompt_operation` -/
  | begin_preparation
  /-- the last `should_skip_worker_command` -/
  | last_unfinished
  | last_cancel
  | last_mark
  /-- before the body starts -/
  | start
  /-- in the body -/
  | body
  /-- before the terminal mark -/
  | terminal (outcome : Outcome)
  | finished
  deriving DecidableEq, Repr

structure Command (Op S : Type) where
  op : Op
  session : S
  /-- `is_preparation_prompt` -/
  preparation : Bool
  pc : Pc
  deriving DecidableEq, Repr

inductive Event (Op : Type) where
  /-- The flag of an operation was read, when its cancellation was requested or not. -/
  | checked (op : Op) (requested : Bool)
  /-- The body of an operation starts. -/
  | started (op : Op)
  deriving DecidableEq, Repr

structure State (Op S : Type) where
  rows : Op → Option (Row S)
  commands : Nat → Option (Command Op S)
  next : Nat
  /-- Cancellation was requested while the operation was queued or running, and it was not
  claimed again since. -/
  requested : Op → Bool
  log : List (Event Op)

def State.new {Op S : Type} : State Op S where
  rows := fun _ => none
  commands := fun _ => none
  next := 0
  requested := fun _ => false
  log := []

variable {Op S : Type} [DecidableEq Op] [DecidableEq S]

/-! ## The repository -/

/-- The row of an operation after an update by id. -/
def State.update (s : State Op S) (op : Op) (f : Row S → Row S) : State Op S :=
  { s with rows := Function.update s.rows op ((s.rows op).map f) }

def mark_session_operation_canceled (row : Row S) : Row S := { row with status := .canceled }

def mark_session_operation_done (row : Row S) : Row S :=
  { row with status := if row.cancel_requested then .canceled else .done }

def mark_session_operation_failed (row : Row S) : Row S :=
  { row with status := if row.cancel_requested then .canceled else .failed }

def mark_session_operation_running (row : Row S) : Row S := { row with status := .running }

def is_session_operation_unfinished (s : State Op S) (op : Op) : Bool :=
  (s.rows op).any fun row => row.status.unfinished

def is_cancel_requested_for_operation (s : State Op S) (op : Op) : Bool :=
  (s.rows op).any fun row => row.cancel_requested && row.status.unfinished

/-- A row that `request_cancel_for_session_operations` updates. -/
def Row.cancelable (session : S) (row : Row S) : Bool :=
  decide (row.session = session) && row.status.unfinished

def request_cancel_for_session_operations (s : State Op S) (session : S) : State Op S :=
  { s with
    rows := fun op => (s.rows op).map fun row =>
      if row.cancelable session then { row with cancel_requested := true } else row
    requested := fun op => s.requested op || (s.rows op).any (Row.cancelable session) }

/-- A row that is queued anew, by an insertion or a claim. -/
def State.queue (s : State Op S) (op : Op) (session : S) : State Op S :=
  { s with
    rows := Function.update s.rows op (some ⟨session, .queued, false⟩)
    requested := Function.update s.requested op false }

/-- Whether `claim_session_operation` takes the operation. -/
def claimable (s : State Op S) (op : Op) : Bool :=
  match s.rows op with
  | none => true
  | some row => decide (row.status = .failed) || decide (row.status = .canceled)

/-! ## Commands -/

def Pc.live : Pc → Bool
  | .finished => false
  | _ => true

def Pc.working : Pc → Bool
  | .unsent | .pending | .finished => false
  | _ => true

/-- A command of the operation is under way. -/
def live (s : State Op S) (op : Op) : Bool :=
  (List.range s.next).any fun n =>
    (s.commands n).any fun command => decide (command.op = op) && command.pc.live

def busy (s : State Op S) (session : S) : Bool :=
  (List.range s.next).any fun n =>
    (s.commands n).any fun command => decide (command.session = session) && command.pc.working

def State.add (s : State Op S) (command : Command Op S) : State Op S :=
  { s with
    commands := Function.update s.commands s.next (some command)
    next := s.next + 1 }

def State.goto (s : State Op S) (n : Nat) (command : Command Op S) (pc : Pc) : State Op S :=
  { s with commands := Function.update s.commands n (some { command with pc }) }

/-- What the environment decides at a step of the worker. -/
structure Choice where
  /-- The preparation is ready and has its prompt. -/
  ready : Bool
  /-- How the body ends. -/
  outcome : Outcome
  deriving DecidableEq, Repr

def process_session_command (s : State Op S) (n : Nat) (command : Command Op S)
    (choice : Choice) : Option (State Op S) :=
  let op := command.op
  match command.pc with
  | .unsent | .pending | .finished => none
  | .first_unfinished =>
    some (s.goto n command
      (if is_session_operation_unfinished s op then .first_cancel else .finished))
  | .first_cancel =>
    some { s.goto n command
        (if is_cancel_requested_for_operation s op then .first_mark
        else if command.preparation then .begin_preparation else .mark_running) with
      log := .checked op (s.requested op) :: s.log }
  | .first_mark =>
    some ((s.update op mark_session_operation_canceled).goto n command .finished)
  | .mark_running =>
    some ((s.update op mark_session_operation_running).goto n command .last_unfinished)
  | .begin_preparation =>
    match s.rows op with
    | some row =>
      if row.status = .queued ∧ row.cancel_requested = false ∧ choice.ready then
        some ((s.update op mark_session_operation_running).goto n command .last_unfinished)
      else some (s.goto n command .finished)
    | none => some (s.goto n command .finished)
  | .last_unfinished =>
    some (s.goto n command
      (if is_session_operation_unfinished s op then .last_cancel else .finished))
  | .last_cancel =>
    some { s.goto n command
        (if is_cancel_requested_for_operation s op then .last_mark else .start) with
      log := .checked op (s.requested op) :: s.log }
  | .last_mark =>
    some ((s.update op mark_session_operation_canceled).goto n command .finished)
  | .start => some { s.goto n command .body with log := .started op :: s.log }
  | .body => some (s.goto n command (.terminal choice.outcome))
  | .terminal .ok =>
    some ((s.update op mark_session_operation_done).goto n command .finished)
  | .terminal .stopped =>
    some ((s.update op mark_session_operation_canceled).goto n command .finished)
  | .terminal .failed =>
    some ((s.update op mark_session_operation_failed).goto n command .finished)

inductive Label (Op S : Type) where
  /-- `insert_session_operation` of a new operation -/
  | insert (op : Op) (session : S) (preparation : Bool)
  /-- `claim_session_operation` that returns `true` -/
  | claim (op : Op) (session : S) (preparation : Bool)
  /-- `reclaim_preparation_prompt_operation` deletes a failed row -/
  | reclaim (op : Op)
  /-- `enqueue_gated_session_command`: the submission, and the insertion after it -/
  | gate (op : Op) (session : S) (preparation : Bool)
  | persist (n : Nat)
  /-- The gate is dropped, and the command with it. -/
  | drop_gate (n : Nat)
  /-- `worker.submit` takes the command, or the worker is gone. -/
  | submit (n : Nat)
  | reject (n : Nat)
  /-- The worker takes the command. -/
  | take (n : Nat)
  | process (n : Nat) (choice : Choice)
  | abandon (n : Nat)
  | request_cancel (session : S)
  deriving DecidableEq, Repr

def step (s : State Op S) : Label Op S → Option (State Op S)
  | .insert op session preparation =>
    if s.rows op = none ∧ live s op = false then
      some ((s.queue op session).add ⟨op, session, preparation, .unsent⟩)
    else none
  | .claim op session preparation =>
    if claimable s op ∧ (s.rows op = none → live s op = false) then
      some ((s.queue op session).add ⟨op, session, preparation, .unsent⟩)
    else none
  | .reclaim op =>
    if (s.rows op).any fun row => decide (row.status = .failed) then
      some { s with rows := Function.update s.rows op none }
    else none
  | .gate op session preparation =>
    if s.rows op = none ∧ live s op = false then
      some (s.add ⟨op, session, preparation, .pending⟩)
    else none
  | .persist n =>
    (s.commands n).bind fun command =>
      if (command.pc = .pending ∨ command.pc = .finished) ∧ s.rows command.op = none ∧
          (command.pc = .finished → live s command.op = false) then
        some (s.queue command.op command.session)
      else none
  | .drop_gate n =>
    (s.commands n).bind fun command =>
      if command.pc = .pending then some (s.goto n command .finished) else none
  | .submit n =>
    (s.commands n).bind fun command =>
      if command.pc = .unsent then some (s.goto n command .pending) else none
  | .reject n =>
    (s.commands n).bind fun command =>
      if command.pc = .unsent then
        some ((s.update command.op mark_session_operation_failed).goto n command .finished)
      else none
  | .take n =>
    (s.commands n).bind fun command =>
      if command.pc = .pending ∧ busy s command.session = false then
        some (s.goto n command .first_unfinished)
      else none
  | .process n choice =>
    (s.commands n).bind fun command => process_session_command s n command choice
  | .abandon n =>
    (s.commands n).bind fun command =>
      if command.pc = .pending then
        some ((s.update command.op mark_session_operation_canceled).goto n command .finished)
      else none
  | .request_cancel session => some (request_cancel_for_session_operations s session)

end Agentty.Worker.Operations
