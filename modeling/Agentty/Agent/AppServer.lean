/-
Turns of an app-server session, and `shutdown_session` beside them.

A provider process (a runtime) is kept idle in a registry between the turns of a session. A
turn takes it out, or starts one, and owns it until it is stored again or shut down; meanwhile
`shutdown_session` reaches the turn only through its cancellation token. A turn that fails is
tried once more with a new runtime.

The model is a state machine for one session, with one turn at a time and any number of
shutdown calls. Each registry operation, and each call of the provider, is a step; what it
returns is a choice of the environment. A runtime is alive from its start to the end of its
shutdown. Prompts, process ids and conversation ids are left out; a guard that is dropped
always removes its token.
-/
import Mathlib.Data.List.Basic
import Agentty.Machine

set_option autoImplicit false

namespace Agentty.AppServer

inductive AppServerError where
  | InterruptedByUser (message : String)
  | LockPoisoned (provider : String)
  | PromptRender (message : String)
  | Provider (message : String)
  | RetryExhausted (provider first_error retry_error : String)
  | Transport (message : String)
  deriving DecidableEq, Repr

def AppServerError.to_string : AppServerError → String
  | .InterruptedByUser message | .PromptRender message | .Provider message
  | .Transport message => message
  | .LockPoisoned provider => "Failed to lock " ++ provider ++ " app-server session map"
  | .RetryExhausted provider first_error retry_error =>
    provider ++ " app-server failed, then retry failed after restart: first error: " ++
      first_error ++ "; retry error: " ++ retry_error

def AppServerError.interrupted : AppServerError → Bool
  | .InterruptedByUser _ => true
  | _ => false

def interrupted_by_user_error : AppServerError :=
  .InterruptedByUser "[Stopped] Session interrupted by user."

structure Output where
  assistant_message : String
  input_tokens : Nat
  output_tokens : Nat
  deriving DecidableEq, Repr

structure AppServerTurnResponse where
  output : Output
  context_reset : Bool
  deriving DecidableEq, Repr

/-- What a turn returns. -/
abbrev Outcome := Except AppServerError AppServerTurnResponse

structure Client where
  provider_name : String
  retain_runtime_after_turn : Bool
  is_input_size_error : String → Bool

/-- What comes after a shutdown. -/
inductive After where
  | register
  | start
  /-- the first attempt failed -/
  | failed (first_error : AppServerError)
  | leave (outcome : Outcome)

/-- Where a turn stands; an attempt carries the error of the first one, if it is the retry. -/
inductive Pc where
  /-- `prepare_isolated_runtime`: the take, the reset, and the store -/
  | isolate
  | reset (runtime : Nat)
  | store_reset (runtime : Nat)
  /-- `register_active_turn` -/
  | register
  /-- `take_compatible_session_runtime` -/
  | take
  | start (first_error : Option AppServerError)
  /-- `build_attempt_prompt` -/
  | prompt (first_error : Option AppServerError) (runtime : Nat) (had_existing_runtime : Bool)
  /-- `run_cancellable_turn_attempt`: the token, the budget, the call of the provider, and the
  race of its result against the token -/
  | check (first_error : Option AppServerError) (runtime : Nat) (replays : Bool)
  | budget (first_error : Option AppServerError) (runtime : Nat) (replays : Bool)
  | call (first_error : Option AppServerError) (runtime : Nat) (replays : Bool)
  | running (first_error : Option AppServerError) (runtime : Nat) (replays : Bool)
  /-- the attempt returned an error -/
  | failed (first_error : Option AppServerError) (runtime : Nat) (error : AppServerError)
  /-- `complete_successful_runtime_response` -/
  | complete (runtime : Nat) (replays : Bool) (output : Output)
  | shutdown (runtime : Nat) (after : After)
  /-- the guard is dropped -/
  | leave (outcome : Outcome)

def Pc.runtime : Pc → Option Nat
  | .reset runtime | .store_reset runtime | .prompt _ runtime _ | .check _ runtime _
  | .budget _ runtime _ | .call _ runtime _ | .running _ runtime _ | .failed _ runtime _
  | .complete runtime _ _ | .shutdown runtime _ => some runtime
  | _ => none

/-- Where a call of `shutdown_session` stands. -/
inductive CallPc where
  /-- `cancel_active_turn` -/
  | cancel
  /-- `take_session` -/
  | take
  | shutdown (runtime : Nat)
  | returned
  deriving DecidableEq, Repr

structure Call where
  pc : CallPc
  /-- the number of turns that had begun when the token was looked for -/
  turns : Nat
  deriving DecidableEq, Repr

inductive Event where
  /-- The provider is called. -/
  | attempted
  /-- The token was seen to be cancelled. -/
  | observed
  deriving DecidableEq, Repr

structure State where
  /-- the runtimes that were started and not shut down -/
  alive : List Nat
  next : Nat
  /-- the runtime in the registry -/
  idle : Option Nat
  /-- the token of the turn is in the registry -/
  registered : Bool
  cancelled : Bool
  turn : Option Pc
  /-- `retain_runtime_after_turn` of the turn -/
  retains : Bool
  /-- the turns that have begun -/
  turns : Nat
  /-- what the last turn returned -/
  outcome : Option Outcome
  /-- the events of the last turn, newest first -/
  log : List Event
  calls : List Call

/-- A session without a runtime. -/
def State.new : State where
  alive := []
  next := 0
  idle := none
  registered := false
  cancelled := false
  turn := none
  retains := false
  turns := 0
  outcome := none
  log := []
  calls := []

/-- What the environment decides at a step. -/
structure Choice where
  /-- the lock of the registry is poisoned -/
  poisoned : Bool
  matches_request : Bool
  /-- `reset_context` returns `Ok(true)` -/
  reset_context : Bool
  start : Except AppServerError Unit
  /-- there is a transcript to replay that the runtime has not restored -/
  replays : Bool
  prompt : Except AppServerError Unit
  budget : Except String Unit
  /-- the result of the provider, or none if the token is served first -/
  turn : Option (Except AppServerError Output)

namespace State

def goto (s : State) (pc : Pc) : State := { s with turn := some pc }

def shutdown_runtime (s : State) (runtime : Nat) : State :=
  { s with alive := s.alive.filter (· ≠ runtime) }

def observe (s : State) : State := { s with log := .observed :: s.log }

end State

def run_turn (client : Client) (s : State) (choice : Choice) : Pc → Option State
  | .isolate =>
    if choice.poisoned then some (s.goto (.leave (.error (.LockPoisoned client.provider_name))))
    else
      match s.idle with
      | none => some (s.goto .register)
      | some runtime => some ({ s with idle := none }.goto (.reset runtime))
  | .reset runtime =>
    if choice.matches_request && choice.reset_context then some (s.goto (.store_reset runtime))
    else some (s.goto (.shutdown runtime .register))
  | .store_reset runtime =>
    if choice.poisoned then
      some (s.goto (.shutdown runtime (.leave (.error (.LockPoisoned client.provider_name)))))
    else some ({ s with idle := some runtime }.goto .register)
  | .register =>
    if choice.poisoned then some (s.goto (.leave (.error (.LockPoisoned client.provider_name))))
    else some ({ s with registered := true, cancelled := false }.goto .take)
  | .take =>
    if choice.poisoned then some (s.goto (.leave (.error (.LockPoisoned client.provider_name))))
    else
      match s.idle with
      | none => some (s.goto (.start none))
      | some runtime =>
        if choice.matches_request then
          some ({ s with idle := none }.goto (.prompt none runtime true))
        else some ({ s with idle := none }.goto (.shutdown runtime .start))
  | .start first_error =>
    match choice.start with
    | .error error => some (s.goto (.leave (.error error)))
    | .ok () =>
      some ({ s with alive := s.next :: s.alive, next := s.next + 1 }.goto
        (.prompt first_error s.next false))
  | .prompt first_error runtime had_existing_runtime =>
    match choice.prompt with
    | .error error => some (s.goto (.shutdown runtime (.leave (.error error))))
    | .ok () =>
      some (s.goto (.check first_error runtime (!had_existing_runtime && choice.replays)))
  | .check first_error runtime replays =>
    if s.cancelled then
      some (s.observe.goto (.shutdown runtime (.leave (.error interrupted_by_user_error))))
    else some (s.goto (.budget first_error runtime replays))
  | .budget first_error runtime replays =>
    match choice.budget with
    | .error message => some (s.goto (.failed first_error runtime (.Provider message)))
    | .ok () => some (s.goto (.call first_error runtime replays))
  | .call first_error runtime replays =>
    some ({ s with log := .attempted :: s.log }.goto (.running first_error runtime replays))
  | .running first_error runtime replays =>
    match choice.turn with
    | some (.ok output) => some (s.goto (.complete runtime replays output))
    | some (.error error) => some (s.goto (.failed first_error runtime error))
    | none =>
      if s.cancelled then
        some (s.observe.goto (.shutdown runtime (.leave (.error interrupted_by_user_error))))
      else none
  | .failed first_error runtime error =>
    if error.interrupted then some (s.goto (.leave (.error error)))
    else
      match first_error with
      | none => some (s.goto (.shutdown runtime (.failed error)))
      | some first_error =>
        some (s.goto (.shutdown runtime (.leave (.error (.RetryExhausted client.provider_name
          first_error.to_string error.to_string)))))
  | .complete runtime replays output =>
    if s.retains = false then
      some (s.goto (.shutdown runtime (.leave (.ok ⟨output, replays⟩))))
    else if choice.poisoned then
      some (s.goto (.shutdown runtime (.leave (.error (.LockPoisoned client.provider_name)))))
    else some ({ s with idle := some runtime }.goto (.leave (.ok ⟨output, replays⟩)))
  | .shutdown runtime after =>
    let s := s.shutdown_runtime runtime
    match after with
    | .register => some (s.goto .register)
    | .start => some (s.goto (.start none))
    | .failed first_error =>
      if client.is_input_size_error first_error.to_string then
        some (s.goto (.leave (.error first_error)))
      else some (s.goto (.start (some first_error)))
    | .leave outcome => some (s.goto (.leave outcome))
  | .leave outcome =>
    some { s with
      registered := false
      cancelled := false
      turn := none
      outcome := some outcome }

def shutdown_session (s : State) (n : Nat) (poisoned : Bool) (call : Call) : Option State :=
  match call.pc with
  | .cancel =>
    some { s with
      cancelled := s.cancelled || (s.registered && !poisoned)
      calls := s.calls.set n ⟨.take, s.turns⟩ }
  | .take =>
    if poisoned then some { s with calls := s.calls.set n { call with pc := .returned } }
    else
      match s.idle with
      | none => some { s with calls := s.calls.set n { call with pc := .returned } }
      | some runtime =>
        some { s with
          idle := none
          calls := s.calls.set n { call with pc := .shutdown runtime } }
  | .shutdown runtime =>
    some { s.shutdown_runtime runtime with
      calls := s.calls.set n { call with pc := .returned } }
  | .returned => none

inductive Label where
  /-- A turn begins, an isolated one with `prepare_isolated_runtime`. -/
  | begin (isolated retain_runtime : Bool)
  | turn (choice : Choice)
  /-- `shutdown_session` is called. -/
  | shutdown_session
  | call (n : Nat) (poisoned : Bool)

def step (client : Client) (s : State) : Label → Option State
  | .begin isolated retain_runtime =>
    if s.turn.isNone then
      some { s with
        turn := some (if isolated then .isolate else .register)
        retains := isolated || retain_runtime || client.retain_runtime_after_turn
        turns := s.turns + 1
        outcome := none
        log := [] }
    else none
  | .turn choice => s.turn.bind (run_turn client s choice)
  | .shutdown_session => some { s with calls := s.calls ++ [⟨.cancel, 0⟩] }
  | .call n poisoned => (s.calls[n]?).bind (shutdown_session s n poisoned)

end Agentty.AppServer
