/-
Utility runs and the cancellation of a session.

`RunWorker` executes isolated prompts concurrently. A run of a session holds a token of
that session's `SessionExecution`, which the map `sessions` shares between the runs and
the callers that cancel the session. An entry is removed when nothing holds it any more
and made again by the next submission; that the admission was closed for good is recorded
in the repository.

The model is a state machine over the points at which tasks interleave: each lock of the
map, each read of a token, each repository call and each poll of a run's work is a step.
What the repository answers (success or failure of each call), when the runtime returns,
when a caller goes away and when a permit is granted is left to the environment. The write
of `Running` takes effect at any time after it was issued. A `SessionExecution` is an
`Arc`, given by a number. Heartbeats change no state and are left out, and so is
`force_shutdown`, which drops the tasks.
-/
import Mathlib.Logic.Function.Basic
import Agentty.Machine

set_option autoImplicit false

namespace Agentty.Worker.Utility

open Function

/-- Persisted execution state of a utility run. -/
inductive RunState where
  | Queued | Running | Completed | Failed | Canceled
  deriving DecidableEq, Repr

/-- `SqliteRunRepository::transition`: the state after an update to `state`. -/
def RunState.transition (state : RunState) : RunState → RunState
  | .Queued => if state = .Queued then .Queued else state
  | .Running => if state = .Running ∨ state = .Queued then .Running else state
  | old => old

structure SessionExecution where
  cancelled : Bool
  closed : Bool
  /-- The tracker is closed, and the runs that hold a token of it. -/
  tracker_closed : Bool
  tasks : List Nat
  deriving DecidableEq, Repr

/-- `SessionExecution::default()` -/
def SessionExecution.default : SessionExecution where
  cancelled := false
  closed := false
  tracker_closed := false
  tasks := []

/-- Where the future of `Execution::run` stands. -/
inductive Work where
  /-- before `capacity.acquire()` returns -/
  | permit
  /-- the transition to `Running` was issued -/
  | issued
  /-- and has returned -/
  | written (ok : Bool)
  /-- the runtime executes the request -/
  | turn
  | finished (ok : Bool)
  deriving DecidableEq, Repr

/-- Where the task of a run stands. -/
inductive RunPc where
  /-- before `repository.create` -/
  | create
  /-- `tokio::select!` before it polls the cancellations -/
  | select
  /-- before it polls the work -/
  | poll
  /-- `work.await` after a cancellation -/
  | drain
  /-- before the terminal transition -/
  | terminal (state : RunState)
  /-- before `drop(task)` -/
  | drop
  /-- before `release_session` -/
  | release
  | done
  deriving DecidableEq, Repr

inductive Cause where
  /-- shutdown, an enclosing scope, or the caller went away -/
  | other
  /-- the token of its session -/
  | session
  deriving DecidableEq, Repr

structure Run (Id : Type) where
  /-- The session and its `SessionExecution`. -/
  session : Option (Id × Nat)
  pc : RunPc
  work : Work
  /-- The cancellation token given to the work. -/
  canceled : Bool
  /-- The record in the repository. -/
  row : Option RunState
  /-- The terminal transition failed. -/
  unrecorded : Bool
  cause : Option Cause

/-- Where a caller of `cancel_session_and_wait` stands. -/
inductive CallerPc where
  /-- before `close_session` -/
  | close
  /-- before `closed.store(true)` -/
  | store
  /-- before `tasks.close()` -/
  | tracker
  /-- `tasks.wait().await` -/
  | wait
  /-- before `release_session` -/
  | release
  deriving DecidableEq, Repr

structure Caller (Id : Type) where
  session : Id
  object : Nat
  pc : CallerPc

inductive Event (Id : Type) where
  /-- The record of a run of a session became `Running`. -/
  | running (run : Nat) (session : Id)
  /-- `cancel_session_and_wait` has returned. -/
  | returned (session : Id)
  deriving DecidableEq, Repr

structure State (Id : Type) where
  admission : Bool
  shutdown : Bool
  /-- The permits that are free. -/
  capacity : Nat
  sessions : Id → Option Nat
  objects : Nat → SessionExecution
  next_object : Nat
  runs : Nat → Option (Run Id)
  next_run : Nat
  callers : Nat → Option (Caller Id)
  next_caller : Nat
  /-- `agent_run_closed_session` -/
  closed_sessions : List Id
  /-- For which session an object was made, and whether its admission was closed by then. -/
  owner : Nat → Option Id
  late : Nat → Bool
  /-- The sessions whose cancellation was requested. -/
  requested : List Id
  log : List (Event Id)

variable {Id : Type} [DecidableEq Id]

def State.new (capacity : Nat) : State Id where
  admission := true
  shutdown := false
  capacity := capacity
  sessions := fun _ => none
  objects := fun _ => .default
  next_object := 0
  runs := fun _ => none
  next_run := 0
  callers := fun _ => none
  next_caller := 0
  closed_sessions := []
  owner := fun _ => none
  late := fun _ => false
  requested := []
  log := []

/-! ## The map of sessions -/

/-- `sessions.entry(session_id).or_default()` -/
def State.entry (s : State Id) (session : Id) : State Id × Nat :=
  match s.sessions session with
  | some object => (s, object)
  | none =>
    ({ s with
        sessions := update s.sessions session (some s.next_object)
        objects := update s.objects s.next_object .default
        owner := update s.owner s.next_object (some session)
        late := update s.late s.next_object (decide (session ∈ s.closed_sessions))
        next_object := s.next_object + 1 },
      s.next_object)

def State.modify (s : State Id) (object : Nat) (f : SessionExecution → SessionExecution) :
    State Id :=
  { s with objects := update s.objects object (f (s.objects object)) }

omit [DecidableEq Id] in
@[simp] theorem State.modify_self (s : State Id) (object : Nat)
    (f : SessionExecution → SessionExecution) :
    (s.modify object f).objects object = f (s.objects object) :=
  update_self ..

omit [DecidableEq Id] in
theorem State.modify_of_ne (s : State Id) {object o : Nat} (f : SessionExecution → SessionExecution)
    (h : o ≠ object) : (s.modify object f).objects o = s.objects o :=
  update_of_ne h ..

def cancel_session (s : State Id) (session : Id) : State Id × Nat :=
  let entry := s.entry session
  ({ entry.1.modify entry.2 (fun e => { e with cancelled := true }) with
      requested := session :: entry.1.requested },
    entry.2)

/-- `admit_session`, with the token of the run that is submitted. -/
def admit_session (s : State Id) (session : Id) : State Id × Nat :=
  let entry := s.entry session
  (entry.1.modify entry.2 fun e => { e with tasks := entry.1.next_run :: e.tasks }, entry.2)

def release_session (s : State Id) (session : Id) (object : Nat) : State Id :=
  if (s.objects object).tasks = [] ∧
      ((s.objects object).cancelled = false ∨ (s.objects object).closed = true) ∧
      s.sessions session = some object then
    { s with sessions := update s.sessions session none }
  else s

/-! ## Runs -/

/-- What a poll of the work finds. -/
inductive Progress where
  | pending
  | ready (ok : Bool)
  deriving DecidableEq, Repr

/-- A poll of the work, with the permits that are free after it. -/
def advance (work : Work) (canceled : Bool) (capacity : Nat) (progress : Progress) : Work × Nat :=
  match work with
  | .permit =>
    if canceled then (.finished false, capacity)
    else if progress ≠ .pending ∧ 0 < capacity then (.issued, capacity - 1)
    else (.permit, capacity)
  | .issued => (.issued, capacity)
  | .written true => (.turn, capacity)
  | .written false => (.finished false, capacity + 1)
  | .turn =>
    match progress with
    | .pending => (.turn, capacity)
    | .ready ok => (.finished ok, capacity + 1)
  | .finished ok => (.finished ok, capacity)

/-- The token of the session of a run is canceled. -/
def session_cancelled (s : State Id) (run : Run Id) : Bool :=
  run.session.any fun session => (s.objects session.2).cancelled

/-- The repository takes no run of the session of a run. -/
def session_closed (s : State Id) (run : Run Id) : Bool :=
  run.session.any fun session => decide (session.1 ∈ s.closed_sessions)

inductive Act where
  | create (ok : Bool)
  | select (other : Bool)
  | poll (progress : Progress)
  /-- The issued transition takes effect. -/
  | write (ok : Bool)
  | terminal (ok : Bool)
  | drop
  | release
  deriving DecidableEq, Repr

/-- A run after a step of its task, with the permits that are free after it. -/
def run_step (s : State Id) (run : Run Id) : Act → Option (Run Id × Nat)
  | .create ok =>
    if run.pc = .create then
      if ok ∧ session_closed s run = false then
        some ({ run with pc := .select, row := some .Queued }, s.capacity)
      else some ({ run with pc := .drop }, s.capacity)
    else none
  | .select other =>
    if run.pc = .select then
      if s.shutdown ∨ other then
        some ({ run with pc := .drain, canceled := true, cause := some .other }, s.capacity)
      else if session_cancelled s run then
        some ({ run with pc := .drain, canceled := true, cause := some .session }, s.capacity)
      else some ({ run with pc := .poll }, s.capacity)
    else none
  | .poll progress =>
    let (work, capacity) := advance run.work run.canceled s.capacity progress
    match run.pc with
    | .poll =>
      match work with
      | .finished true => some ({ run with work, pc := .terminal .Completed }, capacity)
      | .finished false => some ({ run with work, pc := .terminal .Failed }, capacity)
      | _ => some ({ run with work, pc := .select }, capacity)
    | .drain =>
      match work with
      | .finished _ => some ({ run with work, pc := .terminal .Canceled }, capacity)
      | _ => some ({ run with work }, capacity)
    | _ => none
  | .write ok =>
    if run.work = .issued then
      some ({ run with
        work := .written ok
        row := if ok then run.row.map (RunState.transition .Running) else run.row }, s.capacity)
    else none
  | .terminal ok =>
    match run.pc with
    | .terminal state =>
      if ok then
        some ({ run with pc := .drop, row := run.row.map state.transition }, s.capacity)
      else some ({ run with pc := .drop, unrecorded := true }, s.capacity)
    | _ => none
  | .drop => if run.pc = .drop then some ({ run with pc := .release }, s.capacity) else none
  | .release => if run.pc = .release then some ({ run with pc := .done }, s.capacity) else none

/-- What a step of a task does to the map of sessions. -/
def run_effect (s : State Id) (r : Nat) (session : Option (Id × Nat)) : Act → State Id
  | .drop =>
    match session with
    | some (_, object) => s.modify object fun e => { e with tasks := e.tasks.filter (· ≠ r) }
    | none => s
  | .release =>
    match session with
    | some (id, object) => release_session s id object
    | none => s
  | _ => s

def run_event (r : Nat) (run : Run Id) (act : Act) : List (Event Id) :=
  match act, run.session, run.row with
  | .write true, some (id, _), some .Queued => [.running r id]
  | _, _, _ => []

/-! ## Steps -/

inductive Label (Id : Type) where
  | submit (session : Option Id)
  | run (r : Nat) (act : Act)
  | cancel_session (session : Id)
  | cancel_session_and_wait (session : Id)
  /-- `close_session` records the closure or not, and returns. A success has recorded it. -/
  | close (caller : Nat) (recorded ok : Bool)
  /-- The next step of a caller after that. -/
  | proceed (caller : Nat)
  /-- The future of a caller is dropped. -/
  | abandon (caller : Nat)
  | shutdown
  deriving DecidableEq, Repr

def Run.submitted (session : Option (Id × Nat)) : Run Id where
  session := session
  pc := .create
  work := .permit
  canceled := false
  row := none
  unrecorded := false
  cause := none

def State.set_caller (s : State Id) (j : Nat) (caller : Option (Caller Id)) : State Id :=
  { s with callers := update s.callers j caller }

def submit (s : State Id) (session : Option Id) : State Id :=
  let (s, scope) := match session with
    | some id => ((admit_session s id).1, some (id, (admit_session s id).2))
    | none => (s, none)
  { s with
    runs := update s.runs s.next_run (some (.submitted scope))
    next_run := s.next_run + 1 }

def step (s : State Id) : Label Id → Option (State Id)
  | .submit session => if s.admission then some (submit s session) else none
  | .run r act =>
    (s.runs r).bind fun run =>
      (run_step s run act).map fun (run', capacity) =>
        let s := run_effect s r run.session act
        { s with
          runs := update s.runs r (some run')
          capacity
          log := run_event r run act ++ s.log }
  | .cancel_session session => some (cancel_session s session).1
  | .cancel_session_and_wait session =>
    let canceled := cancel_session s session
    some { canceled.1.set_caller s.next_caller (some ⟨session, canceled.2, .close⟩) with
      next_caller := s.next_caller + 1 }
  | .close j recorded ok =>
    (s.callers j).bind fun caller =>
      if caller.pc = .close ∧ (ok → recorded) then
        some { s.set_caller j (some { caller with pc := if ok then .store else .tracker }) with
          closed_sessions :=
            if recorded then caller.session :: s.closed_sessions else s.closed_sessions }
      else none
  | .proceed j =>
    (s.callers j).bind fun caller =>
      match caller.pc with
      | .close => none
      | .store =>
        some ((s.modify caller.object fun e => { e with closed := true }).set_caller j
          (some { caller with pc := .tracker }))
      | .tracker =>
        some ((s.modify caller.object fun e => { e with tracker_closed := true }).set_caller j
          (some { caller with pc := .wait }))
      | .wait =>
        if (s.objects caller.object).tracker_closed ∧ (s.objects caller.object).tasks = [] then
          some (s.set_caller j (some { caller with pc := .release }))
        else none
      | .release =>
        let s := release_session s caller.session caller.object
        some { s.set_caller j none with log := .returned caller.session :: s.log }
  | .abandon j => some (s.set_caller j none)
  | .shutdown => some { s with admission := false, shutdown := true }

end Agentty.Worker.Utility
