/-
`MemoryStore`: sessions in memory, one lock around every operation.

An operation is a function of the state and the time it reads, and returns the state
after it also when it fails: what it has changed before the failure stays changed.
-/
import Agentty.Harness.Session

set_option autoImplicit false

namespace Agentty.Harness

/-! ## Records -/

inductive Status where
  | Running
  | Completed
  | Failed
  | Interrupted
  deriving DecidableEq, Repr

structure TurnRecord where
  deadline : Int
  error_type : Option String
  messages : List ModelMessage
  model : RecordedModel
  options : StoredTurnOptions
  outcome : Option TurnOutcome
  owner : TurnOwner
  request : Option HostRequest
  status : Status
  deriving DecidableEq, Repr

/-- One session: the configuration, whose `turns` are not used, and all its turns. -/
structure Record where
  configuration : LoadedSession
  next_turn : Nat
  turns : List TurnRecord
  writes : List WriteRecord
  deriving DecidableEq, Repr

/-- `last_mut` followed by an assignment. -/
def update_last {α : Type} (f : α → α) : List α → List α
  | [] => []
  | [a] => [f a]
  | a :: b :: rest => a :: update_last f (b :: rest)

namespace Record

/-- What a host request looks like to its host. -/
def request (session : Record) (host_id : String) : Option HostTurnRecord :=
  match session.turns.find? fun turn => turn.request.any fun request => request.id = host_id with
  | none => none
  | some turn =>
    match turn.request with
    | none => none
    | some request =>
      let status : Option HostTurnStatus :=
        match turn.status with
        | .Running => some .InProgress
        | .Completed => turn.outcome.map .Completed
        | .Failed => some (.Failed (turn.error_type.getD ""))
        | .Interrupted => some (.Interrupted (turn.error_type.getD ""))
      let turn_position := turn.owner.turn_position
      status.map fun status =>
        { model := some turn.model
          request := request
          status := status
          turn_position := turn_position
          writes := session.writes.filter fun write => write.turn_position = turn_position }

/-- Interrupt a turn: what recovery and cleanup do to the last turn. -/
def interrupt_last (session : Record) (error_type : String) : Record :=
  { session with
    configuration := { session.configuration with provider_session_id := none }
    turns := update_last
      (fun turn => { turn with status := .Interrupted, error_type := some error_type })
      session.turns }

/-- Interrupt the last turn if its lease has run out. -/
def recover (session : Record) (now : Int) : Record :=
  match session.turns.getLast? with
  | none => session
  | some turn =>
    if turn.status = .Running ∧ turn.deadline ≤ now then session.interrupt_last "interrupted"
    else session

/-- The sum of the retained bytes of a turn. -/
def turn_bytes (messages : List ModelMessage) : Nat :=
  messages.foldl (fun bytes message => saturating_add bytes message.retained_bytes) 0

/-- The newest turns that fit, newest first; the first one that does not ends it. -/
def retained (remaining : Nat) : List TurnRecord → List (List ModelMessage)
  | [] => []
  | turn :: turns =>
    let bytes := turn_bytes turn.messages
    if bytes > remaining then [] else turn.messages :: retained (remaining - bytes) turns

/-- Completed turns within the budget, oldest first. -/
def history (session : Record) : List (List ModelMessage) :=
  (retained session.configuration.max_history_bytes
    (session.turns.reverse.filter fun turn => turn.status = .Completed)).reverse

/-- The last turn, if it is running for this owner under a live lease. -/
def live_turn (session : Record) (owner : TurnOwner) (now : Int) : Option TurnRecord :=
  session.turns.getLast?.filter fun turn =>
    turn.owner.identity = owner.identity && turn.status = .Running && now < turn.deadline

def busy (session : Record) : Bool := session.turns.getLast?.any fun turn => turn.status = .Running

end Record

/-! ## The store -/

structure MemoryStore where
  identity : StoreIdentity
  next_write : Nat
  sessions : String → Option Record

namespace MemoryStore

/-- What an operation leaves and answers. -/
abbrev Result (α : Type) : Type := MemoryStore × Except SessionError α

def put (store : MemoryStore) (id : String) (session : Record) : MemoryStore :=
  { store with sessions := Function.update store.sessions id (some session) }

/-- Every owner-scoped operation checks the backing store and the session first. -/
def owned {α : Type} (store : MemoryStore) (owner : TurnOwner)
    (body : Record → Result α) : Result α :=
  if owner.database ≠ store.identity then (store, .error owner.lost)
  else
    match store.sessions owner.session_id with
    | none => (store, .error owner.lost)
    | some session => body session

def create_session (store : MemoryStore) (config : NewSession) (metadata : Option ModelMetadata)
    (max_history_bytes : Nat) : Result Unit :=
  if is_blank config.id then
    (store, .error (.InvalidData "session identifier must not be empty"))
  else if (store.sessions config.id).isSome then (store, .error (.AlreadyExists config.id))
  else
    (store.put config.id
      { configuration :=
          { max_history_bytes := max_history_bytes
            model := metadata.map (·.model)
            model_generation := 0
            provider := metadata.map (·.provider)
            provider_session_id := none
            registration_identity := config.registration_identity
            schema := config.schema
            system_prompt := config.system_prompt
            turns := [] }
        next_turn := 0
        turns := []
        writes := [] }, .ok ())

def load_session (store : MemoryStore) (now : Int) (id : String) : Result LoadedSession :=
  match store.sessions id with
  | none => (store, .error (.NotFound id))
  | some session =>
    let session := session.recover now
    (store.put id session, .ok { session.configuration with turns := session.history })

def switch_model (store : MemoryStore) (now : Int) (id : String) (generation : Int)
    (identity : ExecutionIdentity) (metadata : Option ModelMetadata)
    (capabilities : ModelCapabilities) : Result Int :=
  match store.sessions id with
  | none => (store, .error (.NotFound id))
  | some session =>
    let session := session.recover now
    let recovered := store.put id session
    match check_generation id session.configuration.model_generation generation with
    | .error error => (recovered, .error error)
    | .ok _ =>
      if session.busy then (recovered, .error (.Busy id))
      else
        match check_history capabilities
            ((session.turns.filter fun turn => turn.status = .Completed).flatMap
              (·.messages)) with
        | .error error => (recovered, .error error)
        | .ok _ =>
          match next_generation generation with
          | .error error => (recovered, .error error)
          | .ok next =>
            (store.put id
              { session with
                configuration :=
                  { session.configuration with
                    model_generation := next
                    registration_identity := some identity
                    provider := metadata.map (·.provider)
                    model := metadata.map (·.model)
                    provider_session_id := none } }, .ok next)

/-- `position.to_le_bytes()`. -/
def to_le_bytes (position : Nat) : List UInt8 :=
  (List.range 8).map fun i => UInt8.ofNat (position / 256 ^ i)

/-- The continuation a new turn gets: the stored one, if the last completed turn had
compatible options. -/
def continuation [Sha256] (session : Record) (options : TurnOptions) :
    Except SessionError (Option String) :=
  let previous := session.turns.reverse.find? fun turn => turn.status = .Completed
  match previous with
  | none => .ok none
  | some turn =>
    match turn.options.decode with
    | .error error => .error error
    | .ok snapshot =>
      .ok (session.configuration.provider_session_id.filter fun _ =>
        snapshot.continuation_compatible options)

/-- Classify a request, or reserve a turn. -/
def acquire [Sha256] (store : MemoryStore) (now : Int) (session_id : String) (input : TurnInput)
    (options : TurnOptions) (request : Option HostRequest) (generation : Int) :
    Result HostTurnAcquisition :=
  match store.sessions session_id with
  | none => (store, .error (.NotFound session_id))
  | some session =>
    let session := session.recover now
    let recovered := store.put session_id session
    match request.bind fun request => (session.request request.id).map (request, ·) with
    | some (request, record) =>
      match record.check_request request with
      | .error error => (recovered, .error error)
      | .ok _ => (recovered, .ok (.Recorded record))
    | none =>
      match check_generation session_id session.configuration.model_generation generation with
      | .error error => (recovered, .error error)
      | .ok _ =>
        if session.busy then (recovered, .error (.Busy session_id))
        else
          match continuation session options with
          | .error error => (recovered, .error error)
          | .ok continuation =>
            let position := session.next_turn
            let owner :=
              TurnOwner.new store.identity session_id position (to_le_bytes position)
            let turn : TurnRecord :=
              { model := session.configuration.recorded_model
                deadline := now + TURN_LEASE_SECONDS
                error_type := none
                messages := [input.into_user_message]
                options := StoredTurnOptions.encode options
                outcome := none
                owner := owner
                request := request
                status := .Running }
            (store.put session_id
              { session with
                turns := session.turns ++ [turn]
                next_turn := position + 1
                configuration :=
                  { session.configuration with provider_session_id := continuation } },
              .ok (.Acquired
                { owner := owner.activate
                  provider_session_id := continuation
                  turns := session.history }))

def load_request (store : MemoryStore) (now : Int) (session_id host_id : String) :
    Result (Option HostTurnRecord) :=
  match store.sessions session_id with
  | none => (store, .error (.NotFound session_id))
  | some session =>
    let session := session.recover now
    (store.put session_id session, .ok (session.request host_id))

/-- Complete a turn; a host turn only with its outcome. -/
def complete (store : MemoryStore) (now : Int) (owner : TurnOwner) (messages : List ModelMessage)
    (provider_session_id : Option String) (outcome : Option TurnOutcome) : Result Unit :=
  store.owned owner fun session =>
    match session.live_turn owner now with
    | none => (store, .error owner.lost)
    | some turn =>
      if turn.request.isSome && outcome.isNone then
        (store, .error (.InvalidData "host turn completion requires its terminal outcome"))
      else
        (store.put owner.session_id
          { session with
            turns := update_last
              (fun turn =>
                { turn with
                  outcome := outcome
                  messages := turn.messages ++ messages
                  status := .Completed })
              session.turns
            configuration :=
              { session.configuration with provider_session_id := provider_session_id } },
          .ok ())

def renew (store : MemoryStore) (now : Int) (owner : TurnOwner) : Result Int :=
  store.owned owner fun session =>
    match session.live_turn owner now with
    | none => (store, .error owner.lost)
    | some _ =>
      let deadline := now + TURN_LEASE_SECONDS
      (store.put owner.session_id
        { session with
          turns := update_last (fun turn => { turn with deadline := deadline }) session.turns },
        .ok deadline)

/-- Fail a turn; `error_type` is the class of its error. -/
def fail_turn (store : MemoryStore) (now : Int) (owner : TurnOwner) (error_type : String) :
    Result Unit :=
  store.owned owner fun session =>
    match session.live_turn owner now with
    | none => (store, .error owner.lost)
    | some _ =>
      (store.put owner.session_id
        { session with
          turns := update_last
            (fun turn => { turn with status := .Failed, error_type := some error_type })
            session.turns
          configuration := { session.configuration with provider_session_id := none } },
        .ok ())

/-- Interrupt a turn that is still running, lease or not. -/
def interrupt (store : MemoryStore) (owner : TurnOwner) : Result Unit :=
  if owner.database ≠ store.identity then (store, .error owner.lost)
  else
    match store.sessions owner.session_id with
    | none => (store, .ok ())
    | some session =>
      match session.turns.getLast? with
      | none => (store, .ok ())
      | some turn =>
        if turn.owner.identity = owner.identity ∧ turn.status = .Running then
          (store.put owner.session_id (session.interrupt_last owner.interruption_error_type),
            .ok ())
        else (store, .ok ())

def load_writes (store : MemoryStore) (session_id : String) : Result (List WriteRecord) :=
  (store, .ok (match store.sessions session_id with
    | none => []
    | some session => session.writes))

def write_intent [Sha256] (store : MemoryStore) (now : Int) (owner : TurnOwner)
    (call_id root path : String) (expected : Option (List UInt8)) (resulting : List UInt8) :
    Result Nat :=
  store.owned owner fun session =>
    match session.live_turn owner now with
    | none => (store, .error owner.lost)
    | some _ =>
      let id := store.next_write + 1
      let store' := store.put owner.session_id
        { session with
          writes := session.writes ++
            [{ call_id := call_id
               expected_hash := expected.map content_hash
               id := id
               path := path
               repository_root := root
               resulting_hash := content_hash resulting
               status := .Pending
               turn_position := owner.turn_position }] }
      ({ store' with next_write := id }, .ok id)

/-- Settle the first write that is the one meant. -/
def settle_write (id turn_position : Nat) (status : WriteStatus) :
    List WriteRecord → Option (List WriteRecord)
  | [] => none
  | write :: writes =>
    if write.id = id ∧ write.turn_position = turn_position ∧
        (write.status = .Pending ∨ write.status = status) then
      some ({ write with status := status } :: writes)
    else (settle_write id turn_position status writes).map (write :: ·)

def finish_write (store : MemoryStore) (owner : TurnOwner) (id : Nat) (applied : Bool) :
    Result Unit :=
  store.owned owner fun session =>
    if !session.turns.any fun turn => turn.owner.identity = owner.identity then
      (store, .error owner.lost)
    else
      let status : WriteStatus := if applied then .Applied else .Failed
      match settle_write id owner.turn_position status session.writes with
      | none => (store, .error owner.lost)
      | some writes => (store.put owner.session_id { session with writes := writes }, .ok ())

end MemoryStore

end Agentty.Harness
