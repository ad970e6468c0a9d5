/-
Queued messages when the tracking of operations fails.

A message that the worker pops is tracked by an operation of its own, with an identifier
that is new. The tracking is meant as best effort: `process_queued_message` goes on when the
insertion fails, `process_session_command` when the running mark fails, and a read that
fails counts as `false`. For `is_session_operation_unfinished` that is the wrong default, as
a command whose row is not unfinished is skipped.

Each call of the repository may fail, and other tasks work before it: they request
cancellations, and write the rows of other operations. The metadata of the turn and the
events of the user interface are left out.
-/
import Agentty.Worker.Operations

set_option autoImplicit false

namespace Agentty.Worker.Tracking

open Operations

/-- The calls of the repository, those of the two `should_skip_worker_command` apart. -/
inductive Call where
  | insert_session_operation
  | is_session_operation_unfinished (last : Bool)
  | is_cancel_requested_for_operation (last : Bool)
  | mark_session_operation_canceled (last : Bool)
  | mark_session_operation_running
  /-- the terminal mark of `execute` -/
  | mark_session_operation_ended
  deriving DecidableEq, Repr

/-- What another task does. -/
inductive Other (Op S : Type) where
  | request_cancel (session : S)
  /-- The row of another operation is written. -/
  | write (op : Op) (row : Option (Row S))
  deriving DecidableEq, Repr

structure Environment (Op S : Type) where
  fails : Call → Bool
  /-- what other tasks do before a call -/
  others : Call → List (Other Op S)
  /-- how the turn ends -/
  outcome : Outcome

structure State (Op S M : Type) where
  rows : Op → Option (Row S)
  transcript : List M
  /-- the prompts of the turns that were executed -/
  turns : List M

variable {Op S M : Type} [DecidableEq Op] [DecidableEq S]

def State.interfere (op : Op) (s : State Op S M) : Other Op S → State Op S M
  | .request_cancel session =>
    { s with rows := fun op => (s.rows op).map fun row =>
        if row.cancelable session then { row with cancel_requested := true } else row }
  | .write other row =>
    if other = op then s else { s with rows := Function.update s.rows other row }

def State.before (s : State Op S M) (env : Environment Op S) (op : Op) (call : Call) :
    State Op S M :=
  (env.others call).foldl (State.interfere op) s

/-- A read of the row, with `unwrap_or(false)`. -/
def State.read (s : State Op S M) (env : Environment Op S) (op : Op) (call : Call)
    (test : Row S → Bool) : Bool :=
  !env.fails call && (s.rows op).any test

/-- An update of the row, whose error is ignored. -/
def State.mark (s : State Op S M) (env : Environment Op S) (op : Op) (call : Call)
    (f : Row S → Row S) : State Op S M :=
  let s := s.before env op call
  if env.fails call then s
  else { s with rows := Function.update s.rows op ((s.rows op).map f) }

def insert_session_operation (env : Environment Op S) (op : Op) (session : S)
    (s : State Op S M) : State Op S M :=
  let s := s.before env op .insert_session_operation
  if env.fails .insert_session_operation then s
  else { s with rows := Function.update s.rows op (some ⟨session, .queued, false⟩) }

def should_skip_worker_command (env : Environment Op S) (last : Bool) (op : Op)
    (s : State Op S M) : Bool × State Op S M :=
  let s := s.before env op (.is_session_operation_unfinished last)
  let operation_is_unfinished := s.read env op (.is_session_operation_unfinished last)
    fun row => row.status.unfinished
  if !operation_is_unfinished then (true, s)
  else
    let s := s.before env op (.is_cancel_requested_for_operation last)
    let is_cancel_requested := s.read env op (.is_cancel_requested_for_operation last)
      fun row => row.cancel_requested && row.status.unfinished
    if !is_cancel_requested then (false, s)
    else (true, s.mark env op (.mark_session_operation_canceled last)
      mark_session_operation_canceled)

/-- `execute` of a turn: its result is the turn's own, whatever the tracking does. -/
def execute (env : Environment Op S) (op : Op) (message : M) (s : State Op S M) :
    Outcome × State Op S M :=
  let s := { s with turns := s.turns ++ [message] }
  (env.outcome, s.mark env op .mark_session_operation_ended
    (match env.outcome with
    | .ok => mark_session_operation_done
    | .stopped => mark_session_operation_canceled
    | .failed => mark_session_operation_failed))

/-- A new identifier is not that of a preparation prompt. -/
def process_session_command (env : Environment Op S) (op : Op) (message : M)
    (s : State Op S M) : Option Outcome × State Op S M :=
  let (should_skip, s) := should_skip_worker_command env false op s
  if should_skip then (none, s)
  else
    let s := s.mark env op .mark_session_operation_running mark_session_operation_running
    let (should_skip, s) := should_skip_worker_command env true op s
    if should_skip then (none, s)
    else
      let (result, s) := execute env op message s
      (some result, s)

def process_queued_message (env : Environment Op S) (op : Op) (session : S) (message : M)
    (s : State Op S M) : Option Outcome × State Op S M :=
  let s := insert_session_operation env op session s
  let s := { s with transcript := s.transcript ++ [message] }
  process_session_command env op message s

/-! ## When a message is run -/

/-- No cancellation is requested for the session. -/
def Environment.Uncanceled (env : Environment Op S) (session : S) : Prop :=
  ∀ call, .request_cancel session ∉ env.others call

/-- The calls on which the execution of the message depends. -/
def Environment.Tracked (env : Environment Op S) : Prop :=
  env.fails .insert_session_operation = false ∧
    ∀ last, env.fails (.is_session_operation_unfinished last) = false

variable {env : Environment Op S} {op : Op} {session : S} {s : State Op S M}

theorem before_turns (call : Call) : (s.before env op call).turns = s.turns := by
  refine List.foldlRecOn (motive := fun s' : State Op S M => s'.turns = s.turns) _ _ rfl ?_
  intro s' hturns other _
  cases other with
  | request_cancel => exact hturns
  | write =>
    simp only [State.interfere]
    split <;> exact hturns

/-- Other tasks do not write the row, as long as its session is not canceled. -/
theorem before_row (hclear : env.Uncanceled session)
    (hrow : ∀ row, s.rows op = some row → row.session = session) (call : Call) :
    (s.before env op call).rows op = s.rows op := by
  refine List.foldlRecOn (motive := fun s' : State Op S M => s'.rows op = s.rows op) _ _ rfl ?_
  intro s' hkept other hmem
  cases other with
  | request_cancel canceled =>
    simp only [State.interfere, hkept]
    cases hold : s.rows op with
    | none => rfl
    | some row =>
      have hsession : row.session ≠ canceled := by
        rw [hrow row hold]
        rintro rfl
        exact hclear call hmem
      simp [Row.cancelable, hsession]
  | write written row =>
    simp only [State.interfere]
    by_cases hop : written = op
    · rw [if_pos hop, hkept]
    · rw [if_neg hop]
      exact (Function.update_of_ne (Ne.symm hop) _ _).trans hkept

theorem mark_turns (call : Call) (f : Row S → Row S) : (s.mark env op call f).turns = s.turns := by
  unfold State.mark
  split <;> exact before_turns call

/-- The row of an operation that is under way and not canceled. -/
def UnderWay (op : Op) (session : S) (s : State Op S M) : Prop :=
  ∃ status : Status, status.unfinished ∧ s.rows op = some ⟨session, status, false⟩

theorem UnderWay.before (h : UnderWay op session s) (hclear : env.Uncanceled session)
    (call : Call) : UnderWay op session (s.before env op call) := by
  obtain ⟨status, hstatus, hrow⟩ := h
  refine ⟨status, hstatus, ?_⟩
  rw [before_row hclear (by rw [hrow]; rintro row ⟨⟩; rfl), hrow]

theorem UnderWay.mark_running (h : UnderWay op session s) (hclear : env.Uncanceled session) :
    UnderWay op session
      (s.mark env op .mark_session_operation_running mark_session_operation_running) := by
  have hbefore := h.before hclear .mark_session_operation_running
  unfold State.mark
  by_cases hfails : env.fails .mark_session_operation_running = true
  · rw [if_pos hfails]
    exact hbefore
  · rw [if_neg hfails]
    obtain ⟨status, -, hrow⟩ := hbefore
    refine ⟨.running, rfl, ?_⟩
    simp [hrow, mark_session_operation_running]

theorem should_skip_turns (last : Bool) :
    (should_skip_worker_command env last op s).2.turns = s.turns := by
  unfold should_skip_worker_command
  simp only
  split
  · exact before_turns _
  split <;> simp only [mark_turns, before_turns]

theorem should_skip_absent (h : s.rows op = none) (hclear : env.Uncanceled session)
    (last : Bool) : (should_skip_worker_command env last op s).1 = true := by
  have hkept : (s.before env op (.is_session_operation_unfinished last)).rows op = none := by
    rw [before_row hclear (by rw [h]; rintro row ⟨⟩), h]
  simp [should_skip_worker_command, State.read, hkept]

/-- A command under way is skipped only if the unfinished check fails. -/
theorem UnderWay.should_skip (h : UnderWay op session s) (hclear : env.Uncanceled session)
    (last : Bool) :
    (should_skip_worker_command env last op s).1 =
        env.fails (.is_session_operation_unfinished last) ∧
      UnderWay op session (should_skip_worker_command env last op s).2 := by
  have hfirst := h.before hclear (.is_session_operation_unfinished last)
  have hsecond := hfirst.before hclear (.is_cancel_requested_for_operation last)
  obtain ⟨status, hstatus, hrow⟩ := id hfirst
  obtain ⟨status', -, hrow'⟩ := id hsecond
  unfold should_skip_worker_command State.read
  cases hfails : env.fails (.is_session_operation_unfinished last) with
  | true => exact ⟨rfl, hfirst⟩
  | false => simp [hrow, hrow', hstatus, hsecond]

theorem process_session_command_skipped (message : M)
    (h : (should_skip_worker_command env false op s).1 = true) :
    (process_session_command env op message s).1 = none ∧
      (process_session_command env op message s).2.turns = s.turns := by
  simp [process_session_command, h, should_skip_turns]

/-- An operation that is under way is executed when both unfinished checks succeed, and
skipped otherwise. -/
theorem UnderWay.process_session_command (h : UnderWay op session s)
    (hclear : env.Uncanceled session) (message : M) :
    let processed := process_session_command env op message s
    let checked := ∀ last, env.fails (.is_session_operation_unfinished last) = false
    (checked → processed.1 = some env.outcome ∧ processed.2.turns = s.turns ++ [message]) ∧
      (¬ checked → processed.1 = none ∧ processed.2.turns = s.turns) := by
  obtain ⟨hfirst, hgoes⟩ := h.should_skip hclear false
  obtain ⟨hlast, -⟩ := (hgoes.mark_running hclear).should_skip hclear true
  simp only [Bool.forall_bool]
  cases hfails : env.fails (.is_session_operation_unfinished false) with
  | true =>
    refine ⟨by simp, fun _ => ?_⟩
    exact process_session_command_skipped message (hfirst.trans hfails)
  | false =>
    rw [hfails] at hfirst
    unfold Tracking.process_session_command
    cases hfails' : env.fails (.is_session_operation_unfinished true) <;> rw [hfails'] at hlast <;>
      simp [hfirst, hlast, execute, should_skip_turns, mark_turns]

theorem insert_turns (env : Environment Op S) (op : Op) (session : S) (s : State Op S M) :
    (insert_session_operation env op session s).turns = s.turns := by
  unfold insert_session_operation
  split <;> exact before_turns _

/-- A popped message is run when its row is inserted and both unfinished checks succeed,
whatever becomes of the other calls. When one of the three fails, it is not run. -/
theorem queued_message_runs_if_tracked (env : Environment Op S) (op : Op) (session : S)
    (message : M) (s : State Op S M) (hnew : s.rows op = none)
    (hclear : env.Uncanceled session) :
    let processed := process_queued_message env op session message s
    (env.Tracked → processed.1 = some env.outcome ∧ processed.2.turns = s.turns ++ [message]) ∧
      (¬ env.Tracked → processed.1 = none ∧ processed.2.turns = s.turns) := by
  unfold process_queued_message Environment.Tracked
  rw [← insert_turns env op session s]
  cases hfails : env.fails .insert_session_operation with
  | true =>
    refine ⟨by simp, fun _ => ?_⟩
    apply process_session_command_skipped
    apply should_skip_absent _ hclear
    unfold insert_session_operation
    rw [if_pos hfails, before_row hclear (by rw [hnew]; rintro row ⟨⟩), hnew]
  | false =>
    simp only [true_and]
    apply UnderWay.process_session_command _ hclear
    unfold insert_session_operation
    rw [if_neg (by simp [hfails])]
    exact ⟨.queued, rfl, by simp⟩

/-- Every call fails but those on which the execution depends, and another session is
canceled all the time. -/
def untracked : Environment Nat Nat where
  fails
    | .insert_session_operation | .is_session_operation_unfinished _ => false
    | _ => true
  others := fun _ => [.request_cancel 8, .write 5 none]
  outcome := .ok

theorem queued_message_runs_if_tracked_untracked :
    (process_queued_message untracked 0 7 "go on" ⟨fun _ => none, [], []⟩).1 = some .ok :=
  ((queued_message_runs_if_tracked untracked 0 7 "go on" ⟨fun _ => none, [], []⟩ rfl
    (fun _ => by simp [untracked])).1 ⟨rfl, fun _ => rfl⟩).1

/-- Only the first check of the row fails. -/
def unchecked : Environment Nat Nat where
  fails := fun call => decide (call = .is_session_operation_unfinished false)
  others := fun _ => []
  outcome := .ok

/-- One read fails. The message is in the transcript, and no turn is run for it. -/
theorem queued_message_lost :
    let processed := process_queued_message unchecked 0 7 "go on" ⟨fun _ => none, [], []⟩
    processed.1 = none ∧ processed.2.transcript = ["go on"] ∧ processed.2.turns = [] := by
  decide

end Agentty.Worker.Tracking
