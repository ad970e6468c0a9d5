/-
Clients of a session store.

Any number of clients issue store operations, and host submissions, in any order and
at any time. On `MemoryStore` an operation is one call, since the lock is held
throughout. On `Database` it is a program of transactions. The clock is read from
outside at every call, so it may do anything; a transaction may also fail without an
effect. A client that dies between two calls is one that issues no more calls. What a
submission answers to its host is a call too, one that touches nothing, so that a run
shows it.

Process-local admission only refuses calls a store would admit. It is left out, so
that what is proved does not depend on it.
-/
import Agentty.System
import Agentty.Harness.Database

set_option autoImplicit false

namespace Agentty.Harness

/-! ## Store operations -/

/-- The operations of `SessionStore`. -/
inductive StoreCall where
  | create_session (config : NewSession) (metadata : Option ModelMetadata)
      (max_history_bytes : Nat)
  | load_session (id : String)
  | switch_model (id : String) (generation : Int) (identity : ExecutionIdentity)
      (metadata : Option ModelMetadata) (capabilities : ModelCapabilities)
  /-- `begin_turn` and, with a request, `begin_request`. -/
  | acquire (session_id : String) (input : TurnInput) (options : TurnOptions)
      (request : Option HostRequest) (generation : Int)
  | load_request (session_id host_id : String)
  /-- `complete_turn` and, with an outcome, `complete_request`. -/
  | complete (owner : TurnOwner) (messages : List ModelMessage) (continuation : Option String)
      (outcome : Option TurnOutcome)
  | renew (owner : TurnOwner)
  | fail_turn (owner : TurnOwner) (error_type : String)
  | interrupt (owner : TurnOwner)
  | load_writes (session_id : String)
  | write_intent (owner : TurnOwner) (call_id root path : String)
      (expected : Option (List UInt8)) (resulting : List UInt8)
  | finish_write (owner : TurnOwner) (id : Nat) (applied : Bool)
  deriving DecidableEq, Repr

def StoreCall.Reply : StoreCall → Type
  | create_session _ _ _ => Unit
  | load_session _ => LoadedSession
  | switch_model _ _ _ _ _ => Int
  | acquire _ _ _ _ _ => HostTurnAcquisition
  | load_request _ _ => Option HostTurnRecord
  | complete _ _ _ _ => Unit
  | renew _ => Int
  | fail_turn _ _ => Unit
  | interrupt _ => Unit
  | load_writes _ => List WriteRecord
  | write_intent _ _ _ _ _ _ => Nat
  | finish_write _ _ _ => Unit

inductive Operation where
  | store (call : StoreCall)
  /-- `acquire_request`: submit a host request, to the store of this identity. The owners are
  those that the registry of abandoned turns holds when the submission reads it. -/
  | submit (session_id : String) (input : TurnInput) (options : TurnOptions)
      (request : HostRequest) (generation : Int) (identity : StoreIdentity)
      (abandoned_turns : List TurnOwner)

/-- Interrupt the turns of owners, one after another; an error ends the rest. -/
def recover_abandoned {C : Type} {R : C → Type}
    (interrupt : TurnOwner → Prog C R SessionError Unit) :
    List TurnOwner → Prog C R SessionError Unit
  | [] => .ret ()
  | owner :: owners => (interrupt owner).bind fun _ => recover_abandoned interrupt owners

/-- Look the request up, and once more when the local queue has been waited for; begin
it only if it is not recorded, and after the session's abandoned turns have been recovered.
A recorded request must be the same one. -/
def acquire_request {C : Type} {R : C → Type}
    (load_request : Prog C R SessionError (Option HostTurnRecord))
    (recover : Prog C R SessionError Unit)
    (begin_request : Prog C R SessionError (Option HostTurnAcquisition)) (request : HostRequest) :
    Prog C R SessionError (Option HostTurnAcquisition) :=
  let checked := fun (record : HostTurnRecord) =>
    match record.check_request request with
    | .error error => Prog.fail error
    | .ok _ => Prog.ret (some (.Recorded record))
  load_request.bind fun
    | some record => checked record
    | none =>
      load_request.bind fun
        | some record => checked record
        | none => recover.bind fun _ => begin_request

/-- Answer what a submission has come to; one that is still retrying has no answer. -/
def respond {C : Type} {R : C → Type}
    (answer : Except SessionError HostTurnAcquisition → Prog C R SessionError Unit) :
    Except SessionError (Option HostTurnAcquisition) → Prog C R SessionError Unit
  | .ok none => .ret ()
  | .ok (some acquisition) => answer (.ok acquisition)
  | .error error => answer (.error error)

/-! ## Memory -/

def MemoryStore.serve [Sha256] (store : MemoryStore) (now : Int) :
    (call : StoreCall) → MemoryStore × Except SessionError call.Reply
  | .create_session config metadata max_history_bytes =>
    store.create_session config metadata max_history_bytes
  | .load_session id => store.load_session now id
  | .switch_model id generation identity metadata capabilities =>
    store.switch_model now id generation identity metadata capabilities
  | .acquire session_id input options request generation =>
    store.acquire now session_id input options request generation
  | .load_request session_id host_id => store.load_request now session_id host_id
  | .complete owner messages continuation outcome =>
    store.complete now owner messages continuation outcome
  | .renew owner => store.renew now owner
  | .fail_turn owner error_type => store.fail_turn now owner error_type
  | .interrupt owner => store.interrupt owner
  | .load_writes session_id => store.load_writes session_id
  | .write_intent owner call_id root path expected resulting =>
    store.write_intent now owner call_id root path expected resulting
  | .finish_write owner id applied => store.finish_write owner id applied

def MemoryStore.new (identity : StoreIdentity) : MemoryStore := ⟨identity, 0, fun _ => none⟩

inductive MemoryCall where
  | store (call : StoreCall)
  /-- A submission answers its host. -/
  | answer (session_id : String) (request : HostRequest)
      (result : Except SessionError HostTurnAcquisition)

def MemoryCall.Reply : MemoryCall → Type
  | store call => call.Reply
  | answer _ _ _ => Unit

abbrev MemoryProg : Type → Type := Prog MemoryCall MemoryCall.Reply SessionError

/-- One store operation; its error ends the program. -/
def store_call (call : StoreCall) : MemoryProg call.Reply := Prog.perform (MemoryCall.store call)

def memory_answer (session_id : String) (request : HostRequest)
    (result : Except SessionError HostTurnAcquisition) : MemoryProg Unit :=
  Prog.perform (MemoryCall.answer session_id request result)

def MemoryStore.program : Operation → MemoryProg Unit
  | .store call => (store_call call).bind fun _ => .ret ()
  | .submit session_id input options request generation identity abandoned_turns =>
    (acquire_request (store_call (.load_request session_id request.id))
      (recover_abandoned (fun owner => store_call (.interrupt owner))
        (Database.for_session abandoned_turns identity session_id))
      ((store_call (.acquire session_id input options (some request) generation)).bind
        fun acquisition => .ret (some acquisition)) request).outcome.bind
      (respond (memory_answer session_id request))

def memory_clients [Sha256] :
    System MemoryCall MemoryCall.Reply SessionError MemoryStore Int Empty Nat
    (Nat × Operation) where
  exec store now call :=
    match call with
    | .store call => store.serve now call
    | .answer _ _ _ => (store, .ok ())
  env _ move := nomatch move
  actor command := command.1
  program command := MemoryStore.program command.2
  admits _ _ _ := true

/-! ## SQLite -/

inductive DatabaseCall where
  | create_session (config : NewSession) (metadata : Option ModelMetadata)
      (max_history_bytes : Nat)
  | recover_stale_turns (session_id : String)
  | load_session_row (id : String)
  | load_turns (session_id : String) (max_history_bytes : Nat)
  | switch_snapshot (id : String) (generation : Int) (capabilities : ModelCapabilities)
  | switch_commit (id : String) (generation next : Int) (identity : ExecutionIdentity)
      (metadata : Option ModelMetadata) (capabilities : ModelCapabilities) (revision : Option Nat)
  | load_turn_acquisition (session_id : String)
  | reserve_turn (session_id : String) (message : EncodedMessage)
      (acquisition : Database.TurnAcquisition) (options : TurnOptions)
      (request : Option HostRequest)
  | load_request (session_id host_id : String)
  | complete (owner : TurnOwner) (messages : List ModelMessage) (continuation : Option String)
      (outcome : Option TurnOutcome)
  | renew (owner : TurnOwner)
  | fail_turn (owner : TurnOwner) (error_type : String)
  | interrupt (owner : TurnOwner)
  | load_writes (session_id : String)
  | write_intent (owner : TurnOwner) (call_id root path : String)
      (expected : Option (List UInt8)) (resulting : List UInt8)
  | finish_write (owner : TurnOwner) (id : Nat) (applied : Bool)
  /-- A submission answers its host. -/
  | answer (session_id : String) (request : HostRequest)
      (result : Except SessionError HostTurnAcquisition)

def DatabaseCall.Reply : DatabaseCall → Type
  | create_session _ _ _ => Unit
  | recover_stale_turns _ => Unit
  | load_session_row _ => LoadedSession
  | load_turns _ _ => List (List ModelMessage)
  | switch_snapshot _ _ _ => Option Nat
  | switch_commit _ _ _ _ _ _ _ => Bool
  | load_turn_acquisition _ => Database.TurnAcquisition
  | reserve_turn _ _ _ _ _ => Database.Reservation
  | load_request _ _ => Option HostTurnRecord
  | complete _ _ _ _ => Unit
  | renew _ => Int
  | fail_turn _ _ => Unit
  | interrupt _ => Unit
  | load_writes _ => List WriteRecord
  | write_intent _ _ _ _ _ _ => Nat
  | finish_write _ _ _ => Unit
  | answer _ _ _ => Unit

namespace Database

def reading {α : Type} (db : Database) (result : Except SessionError α) :
    Except SessionError (α × Database) :=
  result.map (·, db)

/-- One transaction. Those that read the time once read the first one. -/
def transact [Sha256] (db : Database) (input : ReservationInput) :
    (call : DatabaseCall) → Except SessionError (call.Reply × Database)
  | .create_session config metadata max_history_bytes =>
    db.create_session config metadata max_history_bytes
  | .recover_stale_turns session_id =>
    .ok ((), db.recover_stale_turns session_id input.recovery_now)
  | .load_session_row id => db.reading (db.load_session_row id)
  | .load_turns session_id max_history_bytes =>
    db.reading (db.load_turns_from session_id max_history_bytes)
  | .switch_snapshot id generation capabilities =>
    db.reading (db.switch_snapshot id generation capabilities)
  | .switch_commit id generation next identity metadata _ revision =>
    db.switch_commit input.recovery_now id generation next identity metadata revision
  | .load_turn_acquisition session_id => db.reading (db.load_turn_acquisition session_id)
  | .reserve_turn session_id message acquisition options request =>
    db.reserve_turn input session_id message acquisition options request
  | .load_request session_id host_id => db.load_request input.recovery_now session_id host_id
  | .complete owner messages continuation outcome =>
    db.complete input.recovery_now owner messages continuation outcome
  | .renew owner => db.renew input.recovery_now owner
  | .fail_turn owner error_type => db.fail_turn input.recovery_now owner error_type
  | .interrupt owner => db.interrupt owner
  | .load_writes session_id => .ok (db.load_writes session_id, db)
  | .write_intent owner call_id root path expected resulting =>
    db.write_intent input.recovery_now owner call_id root path expected resulting
  | .finish_write owner id applied => db.finish_write owner id applied
  | .answer _ _ _ => .ok ((), db)

/-- A transaction commits or rolls back. -/
def serve [Sha256] (db : Database) (input : ReservationInput) (call : DatabaseCall) :
    Database × Except SessionError call.Reply :=
  match db.transact input call with
  | .error error => (db, .error error)
  | .ok (reply, committed) => (committed, .ok reply)

abbrev DatabaseProg : Type → Type := Prog DatabaseCall DatabaseCall.Reply SessionError

/-- One transaction; its error ends the program. -/
def transaction (call : DatabaseCall) : DatabaseProg call.Reply := Prog.perform call

/-- The continuation a new turn is handed. -/
def handed [Sha256] (acquisition : TurnAcquisition) (options : TurnOptions) : Option String :=
  acquisition.configuration.provider_session_id.filter fun _ =>
    match compatible acquisition.configuration options with
    | .ok compatible => compatible
    | .error _ => false

/-- Read what a reservation depends on, and reserve; again if it has changed. -/
def acquire_loop [Sha256] (session_id : String) (message : EncodedMessage) (options : TurnOptions)
    (request : Option HostRequest) (generation : Int) :
    Nat → DatabaseProg (Option HostTurnAcquisition)
  | 0 => .ret none
  | fuel + 1 =>
    (transaction (.load_turn_acquisition session_id)).bind
      fun (loaded : TurnAcquisition) =>
        let acquisition := { loaded with expected_generation := generation }
        match compatible acquisition.configuration options with
        | .error error => .fail error
        | .ok _ =>
          (transaction (.reserve_turn session_id message acquisition options request)).bind
            fun (reservation : Reservation) =>
              match reservation with
              | .Acquired owner => .ret (some (.Acquired
                  { owner := owner.activate
                    provider_session_id := handed acquisition options
                    turns := acquisition.turns }))
              | .Recorded record => .ret (some (.Recorded record))
              | .Retry => acquire_loop session_id message options request generation fuel

def acquire [Sha256] (fuel : Nat) (session_id : String) (input : TurnInput) (options : TurnOptions)
    (request : Option HostRequest) (generation : Int) : DatabaseProg (Option HostTurnAcquisition) :=
  match EncodedMessage.from_message input.into_user_message with
  | .error error => .fail error
  | .ok message => acquire_loop session_id message options request generation fuel

/-- Validate the history in one transaction and switch in another; again if a turn has
completed in between. -/
def switch_loop (id : String) (generation next : Int) (identity : ExecutionIdentity)
    (metadata : Option ModelMetadata) (capabilities : ModelCapabilities) :
    Nat → DatabaseProg (Option Int)
  | 0 => .ret none
  | fuel + 1 =>
    (transaction (.switch_snapshot id generation capabilities)).bind
      fun (revision : Option Nat) =>
        (transaction
          (.switch_commit id generation next identity metadata capabilities revision)).bind
          fun (committed : Bool) =>
            if committed then .ret (some next)
            else switch_loop id generation next identity metadata capabilities fuel

def switch_model (fuel : Nat) (id : String) (generation : Int) (identity : ExecutionIdentity)
    (metadata : Option ModelMetadata) (capabilities : ModelCapabilities) :
    DatabaseProg (Option Int) :=
  match next_generation generation with
  | .error error => .fail error
  | .ok next => switch_loop id generation next identity metadata capabilities fuel

def load_session (id : String) : DatabaseProg LoadedSession :=
  (transaction (.recover_stale_turns id)).bind fun (_ : Unit) =>
    (transaction (.load_session_row id)).bind fun (session : LoadedSession) =>
      (transaction (.load_turns id session.max_history_bytes)).bind
        fun (turns : List (List ModelMessage)) => .ret { session with turns := turns }

/-- A program whose value nobody waits for. -/
def ignore {α : Type} (prog : DatabaseProg α) : DatabaseProg Unit := prog.bind fun _ => .ret ()

def store_program [Sha256] (fuel : Nat) : StoreCall → DatabaseProg Unit
  | .create_session config metadata max_history_bytes =>
    ignore (transaction (.create_session config metadata max_history_bytes))
  | .load_session id => ignore (load_session id)
  | .switch_model id generation identity metadata capabilities =>
    ignore (switch_model fuel id generation identity metadata capabilities)
  | .acquire session_id input options request generation =>
    ignore (acquire fuel session_id input options request generation)
  | .load_request session_id host_id => ignore (transaction (.load_request session_id host_id))
  | .complete owner messages continuation outcome =>
    ignore (transaction (.complete owner messages continuation outcome))
  | .renew owner => ignore (transaction (.renew owner))
  | .fail_turn owner error_type => ignore (transaction (.fail_turn owner error_type))
  | .interrupt owner => ignore (transaction (.interrupt owner))
  | .load_writes session_id => ignore (transaction (.load_writes session_id))
  | .write_intent owner call_id root path expected resulting =>
    ignore (transaction (.write_intent owner call_id root path expected resulting))
  | .finish_write owner id applied => ignore (transaction (.finish_write owner id applied))

def program [Sha256] (fuel : Nat) : Operation → DatabaseProg Unit
  | .store call => store_program fuel call
  | .submit session_id input options request generation identity abandoned_turns =>
    (acquire_request (transaction (.load_request session_id request.id))
      (recover_abandoned (fun owner => transaction (.interrupt owner))
        (for_session abandoned_turns identity session_id))
      (acquire fuel session_id input options (some request) generation) request).outcome.bind
      (respond fun result => transaction (.answer session_id request result))

def new (identity : StoreIdentity) : Database where
  identity := identity
  session := Table.empty
  session_turn := Table.empty
  session_message := Table.empty
  session_write := Table.empty

end Database

/-- Clients of a database; a command says how often its loops may retry. A transaction
that the database does not carry out says what was attempted, and why it failed. -/
def database_clients [Sha256] : System DatabaseCall DatabaseCall.Reply SessionError Database
    (Except (String × String) Database.ReservationInput) Empty Nat (Nat × Nat × Operation) where
  exec db choice call :=
    match choice with
    | .ok input => db.serve input call
    | .error (operation, reason) => (db, .error (.QueryContext operation reason))
  env _ move := nomatch move
  actor command := command.1
  program command := Database.program command.2.1 command.2.2
  admits _ _ _ := true

end Agentty.Harness
