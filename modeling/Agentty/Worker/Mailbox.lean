/-
The serial worker of a session and its mailbox.

`run_until_stopped` drains commands from a channel into a buffer, selects the oldest
runnable command or message, and executes it under a lock that pause guards share. When
it is stopped or the last handle is gone, it closes the channel, abandons what is left
and runs the shutdown hook of its host.

The worker is a state machine over the points of its loop between which something else
can happen: each receive, each read of the stop token, and each of the host's `paused`,
`message_order` and `pop_message` is a step of its own. Handles are clients: a client
submits, pauses, drops a pause guard, requests shutdown, clones or drops its handle, each
in the steps of its critical sections. The host changes its pause state and appends
messages at any time. `tokio::select!` is `biased`: it polls the stop token, the channel
and the wakeup in this order, each in a step, and polls again when none is ready.

Commands and messages are numbered as they enter their queue, to tell equal ones apart.
What has happened is kept in a log, newest first; nothing reads it.
-/
import Mathlib.Logic.Function.Basic
import Agentty.Machine

set_option autoImplicit false

namespace Agentty.Worker

/-! ## Work -/

/-- Scheduling metadata of a command. -/
class ScheduledCommand (C : Type) where
  /-- Shared submission order, or `none` for an immediate command. -/
  order : C → Option Nat
  can_run_while_paused : C → Bool

/-- The submission order of a queued message. -/
class QueuedMessage (M : Type) where
  order : M → Nat

/-- A command or message with its number. -/
structure Item (α : Type) where
  id : Nat
  value : α
  deriving DecidableEq, Repr

inductive ScheduledWork (C M : Type) where
  | Command (command : Item C)
  | Message (message : Item M)
  deriving DecidableEq, Repr

inductive Event (C M : Type) where
  /-- The channel has taken a command. -/
  | sent (command : Item C)
  /-- `submit` has returned `Ok`. -/
  | accepted (command : Item C)
  /-- `submit` has returned the command. -/
  | refused (command : C)
  /-- The host has queued a message. -/
  | appended (message : Item M)
  /-- The worker has taken a message from the queue. -/
  | popped (message : Item M)
  /-- `execute` has been called, -/
  | started (work : ScheduledWork C M)
  /-- and has returned. -/
  | finished (work : ScheduledWork C M)
  /-- `abandon` has been called. -/
  | abandoned (work : ScheduledWork C M)
  /-- The shutdown hook of the host has returned. -/
  | hooked
  /-- A shutdown request has taken the admission lock. -/
  | stopping (client : Nat)
  /-- `shutdown` has returned. -/
  | stopped (client : Nat)
  deriving DecidableEq, Repr

/-! ## State -/

inductive Pc (C M : Type) where
  /-- `execution.lock().await` at the head of the loop -/
  | lock
  /-- the condition of the drain loop -/
  | drain (drained : Nat)
  /-- `receiver.try_recv()` in it -/
  | receive (drained : Nat)
  /-- the check of the stop token after it -/
  | check (drained : Nat)
  /-- `host.paused()` in `next_work` -/
  | paused (drained : Nat)
  /-- `host.message_order()` in `next_work` -/
  | order (drained : Nat)
  /-- `host.pop_message()` in `next_work` -/
  | pop (drained : Nat)
  /-- before `host.execute(work)` -/
  | execute (work : ScheduledWork C M)
  /-- in it -/
  | executing (work : ScheduledWork C M)
  /-- `drop(execution_guard)` after it -/
  | release
  /-- `drop(execution_guard)` without work -/
  | unlock (drained : Nat)
  /-- `tokio::select!`: before it polls the stop token, the channel, and the wakeup -/
  | select
  | select_recv
  | select_wakeup
  /-- `receiver.close()` -/
  | close
  /-- `receiver.try_recv()` after it -/
  | flush
  /-- `execution.lock().await` after it -/
  | lock_end
  /-- the loop over the buffered commands -/
  | abandon
  /-- in `host.abandon(work)` -/
  | abandoning (work : ScheduledWork C M)
  /-- the loop over the queued messages -/
  | pop_end
  /-- in `host.shutdown()` -/
  | hook
  /-- before the execution guard and `completed` are dropped -/
  | complete
  | done
  deriving DecidableEq, Repr

inductive Client (C : Type) where
  | idle
  /-- `submit`: before the admission lock, before the check, and before the send -/
  | submit (command : C)
  | submit_check (command : C)
  | submit_send (command : C)
  /-- with its result; the lock is dropped as `submit` returns -/
  | submit_return (result : Except C (Item C))
  /-- `pause`: before the execution lock -/
  | pause
  /-- with a pause guard -/
  | guard
  /-- `shutdown`, of a handle or of a guard: before the admission lock, before
  `stop.cancel()`, and before the lock is dropped -/
  | shutdown (guard : Bool)
  | shutdown_cancel (guard : Bool)
  | shutdown_unlock (guard : Bool)
  /-- before the guard drops the execution lock -/
  | shutdown_release
  /-- `completion.changed().await` -/
  | shutdown_wait (guard : Bool)

inductive Holder where
  | worker
  | client (i : Nat)
  deriving DecidableEq, Repr

structure State (C M : Type) where
  pc : Pc C M
  /-- The buffer of the worker. -/
  commands : List (Item C)
  channel : List (Item C)
  /-- The receiver is closed. -/
  closed : Bool
  stop : Bool
  execution : Option Holder
  admission : Option Nat
  wakeup : Bool
  /-- `completed` has been dropped. -/
  completed : Bool
  /-- The clients that have a handle. -/
  handles : List Nat
  clients : Nat → Client C
  /-- The host. -/
  paused : Bool
  messages : List (Item M)
  next_command : Nat
  next_message : Nat
  log : List (Event C M)

/-- A worker that has just been spawned, with one handle. -/
def State.spawn {C M : Type} (paused : Bool) : State C M where
  pc := .lock
  commands := []
  channel := []
  closed := false
  stop := false
  execution := none
  admission := none
  wakeup := false
  completed := false
  handles := [0]
  clients := fun _ => .idle
  paused := paused
  messages := []
  next_command := 0
  next_message := 0
  log := []

/-! ## The worker -/

def MAILBOX_DRAIN_BATCH_SIZE : Nat := 64

variable {C M : Type}

/-- Remove the first element that a test holds of. -/
def remove_first {α : Type} (p : α → Bool) : List α → Option (α × List α)
  | [] => none
  | a :: l => if p a then some (a, l) else (remove_first p l).map fun r => (r.1, a :: r.2)

variable [ScheduledCommand C] [QueuedMessage M]

/-- The order of the first command of the buffer. -/
def command_order (commands : List (Item C)) : Option Nat :=
  commands.head?.bind fun command => ScheduledCommand.order command.value

def message_order (messages : List (Item M)) : Option Nat :=
  messages.head?.map fun message => QueuedMessage.order message.value

/-- The test of `next_work` by which a command goes before the next message. -/
def command_first (command_order message_order : Option Nat) : Bool :=
  command_order.any fun order => message_order.all fun message => order ≤ message

/-- The first part of `next_work`: an immediate command, or one that may run while the
host is paused. `none` stands for going on to the second part. -/
def select_immediate (paused : Bool) (commands : List (Item C)) :
    Option (Option (Item C × List (Item C))) :=
  if paused then
    some (remove_first (fun command => ScheduledCommand.can_run_while_paused command.value)
      commands)
  else
    match commands with
    | command :: rest =>
      if ScheduledCommand.order command.value = none then some (some (command, rest)) else none
    | [] => none

def worker_step (s : State C M) : Option (State C M) :=
  match s.pc with
  | .lock =>
    if s.execution = none then some { s with pc := .drain 0, execution := some .worker } else none
  | .drain drained =>
    if drained < MAILBOX_DRAIN_BATCH_SIZE ∧ s.stop = false then
      some { s with pc := .receive drained }
    else some { s with pc := .check drained }
  | .receive drained =>
    match s.channel with
    | [] => some { s with pc := .check drained }
    | command :: channel =>
      some { s with pc := .drain (drained + 1), channel, commands := s.commands ++ [command] }
  | .check drained =>
    if s.stop then some { s with pc := .close, execution := none }
    else some { s with pc := .paused drained }
  | .paused drained =>
    match select_immediate s.paused s.commands with
    | none => some { s with pc := .order drained }
    | some none => some { s with pc := .unlock drained }
    | some (some (command, commands)) =>
      some { s with pc := .execute (.Command command), commands }
  | .order drained =>
    match s.commands with
    | command :: commands =>
      if command_first (command_order s.commands) (message_order s.messages) then
        some { s with pc := .execute (.Command command), commands }
      else some { s with pc := .pop drained }
    | [] => some { s with pc := .pop drained }
  | .pop drained =>
    match s.messages with
    | [] => some { s with pc := .unlock drained }
    | message :: messages =>
      some { s with pc := .execute (.Message message), messages, log := .popped message :: s.log }
  | .execute work => some { s with pc := .executing work, log := .started work :: s.log }
  | .executing work => some { s with pc := .release, log := .finished work :: s.log }
  | .release => some { s with pc := .lock, execution := none }
  | .unlock drained =>
    some { s with
      pc := if drained = MAILBOX_DRAIN_BATCH_SIZE then .lock else .select
      execution := none }
  | .select =>
    if s.stop then some { s with pc := .close } else some { s with pc := .select_recv }
  | .select_recv =>
    match s.channel with
    | command :: channel =>
      some { s with pc := .lock, channel, commands := s.commands ++ [command] }
    | [] =>
      if s.handles = [] then some { s with pc := .close }
      else some { s with pc := .select_wakeup }
  | .select_wakeup =>
    if s.wakeup then some { s with pc := .lock, wakeup := false }
    else some { s with pc := .select }
  | .close => some { s with pc := .flush, closed := true }
  | .flush =>
    match s.channel with
    | [] => some { s with pc := .lock_end }
    | command :: channel => some { s with channel, commands := s.commands ++ [command] }
  | .lock_end =>
    if s.execution = none then some { s with pc := .abandon, execution := some .worker } else none
  | .abandon =>
    match s.commands with
    | [] => some { s with pc := .pop_end }
    | command :: commands =>
      some { s with
        pc := .abandoning (.Command command)
        commands
        log := .abandoned (.Command command) :: s.log }
  | .abandoning (.Command _) => some { s with pc := .abandon }
  | .abandoning (.Message _) => some { s with pc := .pop_end }
  | .pop_end =>
    match s.messages with
    | [] => some { s with pc := .hook }
    | message :: messages =>
      some { s with
        pc := .abandoning (.Message message)
        messages
        log := .abandoned (.Message message) :: .popped message :: s.log }
  | .hook => some { s with pc := .complete, log := .hooked :: s.log }
  | .complete => some { s with pc := .done, execution := none, completed := true }
  | .done => none

/-! ## Clients and the host -/

/-- What a client that has nothing to do may start, and the next step of what it does. -/
inductive Act (C : Type) where
  | submit (command : C)
  | pause
  | drop_guard
  | shutdown
  | clone_handle (other : Nat)
  | drop_handle
  | wake
  /-- The future of a `pause` or a `shutdown` that waits is dropped. -/
  | cancel
  /-- The next step of the call the client is in. -/
  | proceed
  deriving DecidableEq, Repr

def State.set_client (s : State C M) (i : Nat) (client : Client C) : State C M :=
  { s with clients := Function.update s.clients i client }

/-- A step of a client within a call. -/
def client_proceed (s : State C M) (i : Nat) : Option (State C M) :=
  match s.clients i with
  | .idle => none
  | .guard => none
  | .submit command =>
    if s.admission = none then
      some { s.set_client i (.submit_check command) with admission := some i }
    else none
  | .submit_check command =>
    if s.stop then some (s.set_client i (.submit_return (.error command)))
    else some (s.set_client i (.submit_send command))
  | .submit_send command =>
    if s.closed then some (s.set_client i (.submit_return (.error command)))
    else
      some { s.set_client i (.submit_return (.ok ⟨s.next_command, command⟩)) with
        channel := s.channel ++ [⟨s.next_command, command⟩]
        next_command := s.next_command + 1
        log := .sent ⟨s.next_command, command⟩ :: s.log }
  | .submit_return (.ok command) =>
    some { s.set_client i .idle with admission := none, log := .accepted command :: s.log }
  | .submit_return (.error command) =>
    some { s.set_client i .idle with admission := none, log := .refused command :: s.log }
  | .pause =>
    if s.execution = none then
      some { s.set_client i .guard with execution := some (.client i) }
    else none
  | .shutdown guard =>
    if s.admission = none then
      some { s.set_client i (.shutdown_cancel guard) with
        admission := some i
        log := .stopping i :: s.log }
    else none
  | .shutdown_cancel guard =>
    some { s.set_client i (.shutdown_unlock guard) with stop := true }
  | .shutdown_unlock guard =>
    some { s.set_client i (if guard then .shutdown_release else .shutdown_wait false) with
      admission := none }
  | .shutdown_release =>
    some { s.set_client i (.shutdown_wait true) with execution := none }
  | .shutdown_wait guard =>
    if s.completed then
      -- the handle is dropped with the call that consumed it
      some { s.set_client i .idle with
        handles := if guard then s.handles else s.handles.filter (· ≠ i)
        log := .stopped i :: s.log }
    else none

def client_step (s : State C M) (i : Nat) (act : Act C) : Option (State C M) :=
  match act, s.clients i with
  | .submit command, .idle =>
    if i ∈ s.handles then some (s.set_client i (.submit command)) else none
  | .pause, .idle => if i ∈ s.handles then some (s.set_client i .pause) else none
  | .drop_guard, .guard => some { s.set_client i .idle with execution := none }
  | .shutdown, .idle => if i ∈ s.handles then some (s.set_client i (.shutdown false)) else none
  | .shutdown, .guard => some (s.set_client i (.shutdown true))
  | .clone_handle other, .idle =>
    if i ∈ s.handles then some { s with handles := other :: s.handles } else none
  | .drop_handle, .idle => some { s with handles := s.handles.filter (· ≠ i) }
  | .drop_handle, .guard => some { s with handles := s.handles.filter (· ≠ i) }
  | .wake, .idle => if i ∈ s.handles then some { s with wakeup := true } else none
  | .cancel, .pause => some (s.set_client i .idle)
  | .cancel, .shutdown_wait guard =>
    some { s.set_client i .idle with
      handles := if guard then s.handles else s.handles.filter (· ≠ i) }
  | .proceed, _ => client_proceed s i
  | _, _ => none

inductive Label (C M : Type) where
  | worker
  | client (i : Nat) (act : Act C)
  /-- The host queues a message. -/
  | append (message : M)
  /-- The host changes its pause state. -/
  | set_paused (paused : Bool)
  deriving DecidableEq, Repr

def step (s : State C M) : Label C M → Option (State C M)
  | .worker => worker_step s
  | .client i act => client_step s i act
  | .append message =>
    some { s with
      messages := s.messages ++ [⟨s.next_message, message⟩]
      next_message := s.next_message + 1
      log := .appended ⟨s.next_message, message⟩ :: s.log }
  | .set_paused paused => some { s with paused }

/-! ## Commands and messages that are their own order -/

/-- Commands given by their order; the immediate ones may run while the host is paused. -/
instance : ScheduledCommand (Option Nat) where
  order command := command
  can_run_while_paused command := command.isNone

instance : QueuedMessage Nat where
  order message := message

/-- The steps of a call of `submit` from its start to its return. -/
def submit_labels {C M : Type} (i : Nat) (command : C) : List (Label C M) :=
  .client i (.submit command) :: List.replicate 4 (.client i .proceed)

end Agentty.Worker
