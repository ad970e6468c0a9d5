/-
`Database`: sessions in SQLite.

The tables are the ones the migrations leave, without timestamps. A transaction is a
function of the database and the times it reads. It returns an error and rolls back,
or returns a value and the database it commits; constraint violations are errors.

`acquire`, `switch_model` and `load_session` consist of several transactions and are
programs over them; between two transactions of a program anything may happen. The
two loops retry when a transaction finds its snapshot outdated. They take fuel, one
unit for each attempt, and say `none` when it runs out.
-/
import Agentty.Table
import Agentty.Query
import Agentty.Harness.MemoryStore

set_option autoImplicit false

namespace Agentty.Harness

open Query (order_by)

/-! ## Rows -/

/-- `session_turn.status`. -/
inductive TurnStatus where
  | pending
  | running
  | completed
  | failed
  | interrupted
  deriving DecidableEq, Repr

/-- `status IN ('pending', 'running')`. -/
def TurnStatus.active : TurnStatus → Bool
  | pending => true
  | running => true
  | _ => false

/-- A row of `session`, under its `id`. -/
structure SessionRow where
  max_history_bytes : Int
  model : Option String
  model_generation : Int
  output_schema : Value
  provider : Option String
  provider_session_id : Option String
  registration_key : Option String
  registration_revision : Option String
  system_prompt : Option String
  deriving DecidableEq, Repr

/-- The JSON object of `session_turn.model_snapshot`. -/
structure Snapshot where
  generation : Int
  key : Option String
  model : Option String
  provider : Option String
  revision : Option String
  deriving DecidableEq, Repr

/-- A row of `session_turn`, under its session and position. -/
structure TurnRow where
  error_type : Option String
  host_id : Option String
  host_request : Option HostRequest
  lease_expires_at : Option Int
  model_snapshot : Option Snapshot
  owner_token : Option (List UInt8)
  status : TurnStatus
  terminal_outcome : Option TurnOutcome
  turn_options : Option StoredTurnOptions
  deriving DecidableEq, Repr

/-- `session_message.kind`. -/
inductive MessageKind where
  | assistant
  | assistant_reasoning
  | assistant_tool_call
  | assistant_tool_calls
  | tool_result
  | user
  | user_input
  deriving DecidableEq, Repr

structure StoredToolCall where
  arguments : Value
  id : String
  name : String
  reasoning_content : Option String
  deriving DecidableEq, Repr

/-- The JSON value of `session_message.payload`. -/
inductive Payload where
  | text (content : String)
  | reasoning (content reasoning_content : String)
  | tool_call (call : StoredToolCall)
  | tool_calls (calls : List StoredToolCall)
  | tool_result (call_id content name : String)
  | input (blocks : List InputBlock)
  deriving DecidableEq, Repr

/-- A row of `session_message`, under its `AUTOINCREMENT` identifier. -/
structure MessageRow where
  kind : MessageKind
  message_position : Nat
  payload : Payload
  retained_bytes : Int
  session_id : String
  turn_position : Nat
  deriving DecidableEq, Repr

/-- A row of `session_write`, under its `AUTOINCREMENT` identifier. -/
structure WriteRow where
  call_id : String
  expected_hash : Option String
  path : String
  repository_root : String
  resulting_hash : String
  session_id : String
  status : WriteStatus
  turn_position : Nat
  deriving DecidableEq, Repr

/-- The tables, and the identity of the file they are in. -/
structure Database where
  identity : StoreIdentity
  session : Table String SessionRow
  session_turn : Table (String × Nat) TurnRow
  session_message : Table Nat MessageRow
  session_write : Table Nat WriteRow

/-! ## Codecs -/

namespace StoredToolCall

def from_call (call : ToolCall) : StoredToolCall where
  arguments := call.arguments_json
  id := call.id
  name := call.name
  reasoning_content := call.reasoning_content

def into_call (stored : StoredToolCall) : Except SessionError ToolCall :=
  if stored.name = "read" then .ok ⟨.Read stored.arguments, stored.id, stored.reasoning_content⟩
  else if stored.name = "write" then
    .ok ⟨.Write stored.arguments, stored.id, stored.reasoning_content⟩
  else .error (.InvalidData ("unknown persistent tool " ++ stored.name))

end StoredToolCall

structure EncodedMessage where
  kind : MessageKind
  payload : Payload
  retained_bytes : Int
  deriving DecidableEq, Repr

def invalid_json : SessionError := .InvalidData "invalid persistent message JSON"

namespace EncodedMessage

/-- `i64::try_from(..).unwrap_or(i64::MAX)`. -/
def clamp (bytes : Nat) : Int := min (bytes : Int) i64_max

/-- System prompts are stored on the session, so they are rejected here. -/
def from_message (message : ModelMessage) : Except SessionError EncodedMessage :=
  match message with
  | .Assistant content => .ok ⟨.assistant, .text content, clamp message.retained_bytes⟩
  | .AssistantReasoning content reasoning_content =>
    .ok ⟨.assistant_reasoning, .reasoning content reasoning_content,
      clamp message.retained_bytes⟩
  | .AssistantToolCall call =>
    .ok ⟨.assistant_tool_call, .tool_call (StoredToolCall.from_call call),
      clamp message.retained_bytes⟩
  | .AssistantToolCalls calls =>
    .ok ⟨.assistant_tool_calls, .tool_calls (calls.map StoredToolCall.from_call),
      clamp message.retained_bytes⟩
  | .System _ => .error (.InvalidData "system prompts must be stored on the session")
  | .ToolResult call_id content name =>
    .ok ⟨.tool_result, .tool_result call_id content name, clamp message.retained_bytes⟩
  | .User content => .ok ⟨.user, .text content, clamp message.retained_bytes⟩
  | .UserInput input => .ok ⟨.user_input, .input input.blocks, clamp message.retained_bytes⟩

/-- A payload that does not have the shape of its kind is rejected. Stored input is
made a user message again, so text-only input comes back as one text. -/
def into_message : MessageKind → Payload → Except SessionError ModelMessage
  | .assistant, .text content => .ok (.Assistant content)
  | .assistant_reasoning, .reasoning content reasoning_content =>
    .ok (.AssistantReasoning content reasoning_content)
  | .assistant_tool_call, .tool_call call => call.into_call.map .AssistantToolCall
  | .assistant_tool_calls, .tool_calls calls =>
    (calls.mapM StoredToolCall.into_call).map .AssistantToolCalls
  | .tool_result, .tool_result call_id content name => .ok (.ToolResult call_id content name)
  | .user, .text content => .ok (.User content)
  | .user_input, .input blocks => .ok (TurnInput.into_user_message ⟨blocks⟩)
  | _, _ => .error invalid_json

end EncodedMessage

/-- Key and revision come together, and so do provider and model, which are not blank. -/
def RecordedModel.decode (snapshot : Snapshot) : Except SessionError RecordedModel := do
  let registration_identity ← match snapshot.key, snapshot.revision with
    | none, none => pure none
    | some key, some revision => (ExecutionIdentity.new key revision).map some
    | _, _ => throw invalid_snapshot
  match snapshot.provider, snapshot.model with
  | none, none => pure ()
  | some provider, some model =>
    if !is_blank provider && !is_blank model then pure () else throw invalid_snapshot
  | _, _ => throw invalid_snapshot
  if snapshot.generation < 0 then throw invalid_snapshot
  pure
    { generation := snapshot.generation
      registration_identity := registration_identity
      model := snapshot.model
      provider := snapshot.provider }

namespace Database

/-! ## Queries -/

/-- `FROM session_turn WHERE session_id = ?`, with the positions. -/
def turn_rows (db : Database) (session_id : String) : List (Nat × TurnRow) :=
  db.session_turn.rows.filterMap fun row =>
    if row.1.1 = session_id then some (row.1.2, row.2) else none

/-- `FROM session_message WHERE session_id = ?`, with the identifiers. -/
def message_rows (db : Database) (session_id : String) : List (Nat × MessageRow) :=
  db.session_message.select fun _ row => row.session_id = session_id

/-- `FROM session_write WHERE session_id = ?`, with the identifiers. -/
def write_rows (db : Database) (session_id : String) : List (Nat × WriteRow) :=
  db.session_write.select fun _ row => row.session_id = session_id

/-- `JOIN session_turn … WHERE turn.status = 'completed'`. -/
def in_completed_turn (db : Database) (row : MessageRow) : Bool :=
  (db.session_turn.get? (row.session_id, row.turn_position)).any fun turn =>
    turn.status = .completed

/-- What a reservation depends on. -/
structure TurnConfigurationRow where
  max_history_bytes : Int
  model_generation : Int
  provider_session_id : Option String
  turn_options : Option StoredTurnOptions
  deriving DecidableEq, Repr

/-- The configuration, with the options of the newest completed turn. -/
def load_turn_configuration (db : Database) (session_id : String) :
    Except SessionError TurnConfigurationRow :=
  match db.session.get? session_id with
  | none => .error (.NotFound session_id)
  | some row =>
    let newest := order_by (fun a b => b.1 ≤ a.1)
      ((db.turn_rows session_id).filter fun turn => turn.2.status = .completed)
    .ok
      { max_history_bytes := row.max_history_bytes
        model_generation := row.model_generation
        provider_session_id := row.provider_session_id
        turn_options := newest.head?.bind fun turn => turn.2.turn_options }

def decode_max_history_bytes (id : String) (max_history_bytes : Int) : Except SessionError Nat :=
  if max_history_bytes < 0 then
    .error (.InvalidData ("session " ++ id ++ " has an invalid history byte limit"))
  else .ok max_history_bytes.toNat

/-- `COALESCE(MAX(turn_position), -1) + 1`. -/
def next_turn_position (db : Database) (session_id : String) : Nat :=
  match ((db.turn_rows session_id).map Prod.fst).max? with
  | none => 0
  | some position => position + 1

def latest_completed_turn (db : Database) (session_id : String) : Option Nat :=
  (((db.turn_rows session_id).filter fun turn => turn.2.status = .completed).map Prod.fst).max?

/-! ### History -/

def TURN_SIZE_PAGE_SIZE : Nat := 64

/-- `SUM` of a group; an integer overflow is an error. -/
def sum_retained (rows : List MessageRow) : Except SessionError Int :=
  let total := (rows.map (·.retained_bytes)).sum
  if total ≤ i64_max then .ok total
  else .error (.QueryContext "load persistent session history" "integer overflow")

/-- Sizes of the newest completed turns before a position, newest first. -/
def load_turn_size_page (db : Database) (session_id : String) (before_turn : Option Nat) :
    Except SessionError (List (Nat × Int)) :=
  let rows := ((db.message_rows session_id).map Prod.snd).filter fun row =>
    before_turn.all (fun position => (row.turn_position : Int) ≤ (position : Int) - 1) &&
      db.in_completed_turn row
  let positions := (order_by (fun a b => b ≤ a) (rows.map (·.turn_position)).dedup).take
    TURN_SIZE_PAGE_SIZE
  positions.mapM fun position =>
    (sum_retained (rows.filter fun row => row.turn_position = position)).map (position, ·)

/-- How far the scan of one page has come: whether it goes on, the bytes retained so
far, and the oldest turn that fits. -/
structure BudgetScan where
  within : Bool
  retained_bytes : Nat
  oldest_turn : Option Nat
  deriving DecidableEq, Repr

/-- One turn of a page; the first one that does not fit ends the scan. -/
def scan_turn (max_history_bytes : Nat) (scan : BudgetScan) (turn : Nat × Int) : BudgetScan :=
  if !scan.within then scan
  else
    let next_retained_bytes := saturating_add scan.retained_bytes turn.2.toNat
    if next_retained_bytes > max_history_bytes then { scan with within := false }
    else { within := true, retained_bytes := next_retained_bytes, oldest_turn := some turn.1 }

/-- Page by page, from the newest turn on. A page that is not full is the last one. -/
def scan_pages (db : Database) (session_id : String) (max_history_bytes : Nat) :
    Nat → BudgetScan → Except SessionError (Option Nat)
  | 0, scan => .ok scan.oldest_turn
  | fuel + 1, scan =>
    match db.load_turn_size_page session_id scan.oldest_turn with
    | .error error => .error error
    | .ok turn_sizes =>
      if turn_sizes.isEmpty then .ok scan.oldest_turn
      else
        let scan := turn_sizes.foldl (scan_turn max_history_bytes) scan
        if scan.within && turn_sizes.length = TURN_SIZE_PAGE_SIZE then
          scan_pages db session_id max_history_bytes fuel scan
        else .ok scan.oldest_turn

/-- The oldest turn of the history within the budget. Every page starts before the
last one, so there are no more pages than turns. -/
def oldest_turn_within_budget (db : Database) (session_id : String) (max_history_bytes : Nat) :
    Except SessionError (Option Nat) :=
  db.scan_pages session_id max_history_bytes ((db.turn_rows session_id).length + 1)
    ⟨true, 0, none⟩

/-- A new turn starts where the position changes. -/
def push_message (turns : List (List ModelMessage) × Option Nat) (row : MessageRow) :
    Except SessionError (List (List ModelMessage) × Option Nat) := do
  let started :=
    if turns.2 = some row.turn_position then turns.1 else turns.1 ++ [[]]
  let message ← EncodedMessage.into_message row.kind row.payload
  return (update_last (· ++ [message]) started, some row.turn_position)

/-- `ORDER BY message.turn_position, message.message_position`. -/
def precedes (a b : MessageRow) : Prop :=
  a.turn_position < b.turn_position ∨
    (a.turn_position = b.turn_position ∧ a.message_position ≤ b.message_position)

instance : DecidableRel precedes := fun _ _ => inferInstanceAs (Decidable (_ ∨ _))

def load_turns_from (db : Database) (session_id : String) (max_history_bytes : Nat) :
    Except SessionError (List (List ModelMessage)) := do
  match ← db.oldest_turn_within_budget session_id max_history_bytes with
  | none => return []
  | some oldest_turn =>
    let rows := order_by precedes (((db.message_rows session_id).map Prod.snd).filter fun row =>
      oldest_turn ≤ row.turn_position && db.in_completed_turn row)
    let turns ← rows.foldlM push_message ([], none)
    return turns.1

/-! ### Model switches -/

/-- Messages of completed turns that a switch has to look at, after an identifier. -/
def switch_page (db : Database) (session_id : String) (after : Nat) : List (Nat × MessageRow) :=
  (order_by (fun a b => a.1 ≤ b.1) ((db.message_rows session_id).filter fun row =>
    db.in_completed_turn row.2 && after < row.1 && row.2.kind ≠ .user &&
      row.2.kind ≠ .assistant)).take 64

def check_switch_row (capabilities : ModelCapabilities) (_after : Nat) (row : Nat × MessageRow) :
    Except SessionError Nat := do
  let message ← EncodedMessage.into_message row.2.kind row.2.payload
  check_history capabilities [message]
  return row.1

def check_switch_pages (db : Database) (session_id : String) (capabilities : ModelCapabilities) :
    Nat → Nat → Except SessionError Unit
  | 0, _ => .ok ()
  | fuel + 1, after =>
    let rows := db.switch_page session_id after
    if rows.isEmpty then .ok ()
    else
      match rows.foldlM (check_switch_row capabilities) after with
      | .error error => .error error
      | .ok after => check_switch_pages db session_id capabilities fuel after

/-- Every page but the last one has a row, so there are no more pages than messages. -/
def check_switch_history (db : Database) (session_id : String) (capabilities : ModelCapabilities) :
    Except SessionError Unit :=
  db.check_switch_pages session_id capabilities ((db.message_rows session_id).length + 1) 0

/-! ### Requests and writes -/

/-- `WriteRecordRow::into_record`. -/
def write_record (row : Nat × WriteRow) : WriteRecord where
  call_id := row.2.call_id
  expected_hash := row.2.expected_hash
  id := row.1
  path := row.2.path
  repository_root := row.2.repository_root
  resulting_hash := row.2.resulting_hash
  status := row.2.status
  turn_position := row.2.turn_position

def host_turn_status (row : TurnRow) : Except SessionError HostTurnStatus :=
  match row.status with
  | .pending => .ok .InProgress
  | .running => .ok .InProgress
  | .completed =>
    match row.terminal_outcome with
    | none => .error invalid_json
    | some outcome => .ok (.Completed outcome)
  | .failed => .ok (.Failed (row.error_type.getD ""))
  | .interrupted => .ok (.Interrupted (row.error_type.getD ""))

def load_request_from (db : Database) (session_id host_id : String) :
    Except SessionError (Option HostTurnRecord) :=
  match (db.turn_rows session_id).find? fun turn => turn.2.host_id = some host_id with
  | none => .ok none
  | some (position, row) => do
      let request ← match row.host_request with
        | none => throw invalid_json
        | some request => pure request
      let status ← host_turn_status row
      let writes := order_by (fun a b => a.1 ≤ b.1)
        ((db.write_rows session_id).filter fun write => write.2.turn_position = position)
      let model ← match row.model_snapshot with
        | none => pure none
        | some snapshot => (RecordedModel.decode snapshot).map some
      return some {
        model := model
        request := request
        status := status
        turn_position := position
        writes := writes.map write_record }

/-! ## Updates -/

/-- `UPDATE session SET provider_session_id = ? WHERE id = ?`. -/
def set_continuation (db : Database) (session_id : String) (provider_session_id : Option String) :
    Database :=
  { db with
    session := db.session.update session_id (fun _ => true) fun row =>
      { row with provider_session_id := provider_session_id } }

/-- `lease_expires_at <= ?`; a missing lease is not comparable. -/
def lapsed (now : Int) (row : TurnRow) : Bool := row.lease_expires_at.any fun lease => lease ≤ now

/-- `owner_token = ? AND status = 'running' AND lease_expires_at > ?`. -/
def live (owner : TurnOwner) (now : Int) (row : TurnRow) : Bool :=
  row.owner_token = some owner.token && row.status = .running &&
    row.lease_expires_at.any fun lease => now < lease

/-- End a turn: it loses its lease. -/
def TurnRow.finish (row : TurnRow) (status : TurnStatus) (error_type : Option String) : TurnRow :=
  { row with status := status, error_type := error_type, lease_expires_at := none }

/-- Interrupt every active turn of the session whose lease has run out. -/
def recover_stale_turns (db : Database) (session_id : String) (now : Int) : Database :=
  let stale := fun (key : String × Nat) (row : TurnRow) =>
    decide (key.1 = session_id) && row.status.active && lapsed now row
  let recovered :=
    { db with
      session_turn := db.session_turn.updateAll stale fun row =>
        TurnRow.finish row .interrupted (some "interrupted") }
  if (db.session_turn.select stale).isEmpty then recovered
  else recovered.set_continuation session_id none

/-- Interrupt the turn of an owner, lease or not. -/
def interrupt_owned_turn (db : Database) (owner : TurnOwner) : Database :=
  let owned := fun (row : TurnRow) =>
    decide (row.owner_token = some owner.token) && row.status.active
  let interrupted :=
    { db with
      session_turn := db.session_turn.update (owner.session_id, owner.turn_position) owned
        fun row => TurnRow.finish row .interrupted (some owner.interruption_error_type) }
  if db.session_turn.affects (owner.session_id, owner.turn_position) owned then
    interrupted.set_continuation owner.session_id none
  else interrupted

/-- `INSERT INTO session_message`; a position is used once. -/
def insert_message (db : Database) (session_id : String) (turn_position message_position : Nat)
    (message : EncodedMessage) (operation : String) : Except SessionError Database :=
  if ((db.message_rows session_id).any fun row =>
    row.2.turn_position = turn_position && row.2.message_position = message_position) then
    .error (.QueryContext operation "UNIQUE constraint failed: session_message")
  else
    .ok { db with
      session_message := db.session_message.push
        { kind := message.kind
          message_position := message_position
          payload := message.payload
          retained_bytes := message.retained_bytes
          session_id := session_id
          turn_position := turn_position } }

/-- `INSERT INTO session_turn`. The position, the active turn and the host identifier
of a session are unique. -/
def insert_turn (db : Database) (session_id : String) (turn_position : Nat) (row : TurnRow) :
    Option Database :=
  if h : db.session_turn.get? (session_id, turn_position) = none then
    if (row.status.active && (db.turn_rows session_id).any fun turn => turn.2.status.active) ||
        (row.host_id.isSome && (db.turn_rows session_id).any fun turn =>
          turn.2.host_id = row.host_id) then none
    else some { db with session_turn := db.session_turn.insert (session_id, turn_position) row h }
  else none

/-! ## Transactions -/

def create_session (db : Database) (config : NewSession) (metadata : Option ModelMetadata)
    (max_history_bytes : Nat) : Except SessionError (Unit × Database) :=
  if is_blank config.id then .error (.InvalidData "session identifier must not be empty")
  else if i64_max < (max_history_bytes : Int) then
    .error (.InvalidData "history byte limit exceeds SQLite integer range")
  else if max_history_bytes = 0 then
    .error (.QueryContext "create persistent session"
      "CHECK constraint failed: max_history_bytes > 0")
  else if h : db.session.get? config.id = none then
    let row : SessionRow :=
      { max_history_bytes := max_history_bytes
        model := metadata.map (·.model)
        model_generation := 0
        output_schema := config.schema.value
        provider := metadata.map (·.provider)
        provider_session_id := none
        registration_key := config.registration_identity.map (·.key)
        registration_revision := config.registration_identity.map (·.revision)
        system_prompt := config.system_prompt }
    .ok ((), { db with session := db.session.insert config.id row h })
  else .error (.AlreadyExists config.id)

/-- What `load_session` reads of the session before its history. -/
def load_session_row [Sha256] (db : Database) (id : String) :
    Except SessionError LoadedSession := do
  let row ← match db.session.get? id with
    | none => throw (.NotFound id)
    | some row => pure row
  let max_history_bytes ← decode_max_history_bytes id row.max_history_bytes
  let newest := order_by (fun a b => b.1 ≤ a.1) (db.turn_rows id)
  match newest.head?.bind fun turn => turn.2.turn_options with
  | none => pure ()
  | some snapshot => snapshot.decode.map fun _ => ()
  let registration_identity ← match row.registration_key, row.registration_revision with
    | none, none => pure none
    | some key, some revision => (ExecutionIdentity.new key revision).map some
    | _, _ => throw (.InvalidData ("session " ++ id ++ " has incomplete registration identity"))
  return {
    model_generation := row.model_generation
    max_history_bytes := max_history_bytes
    model := row.model
    provider := row.provider
    provider_session_id := row.provider_session_id
    registration_identity := registration_identity
    schema := ⟨row.output_schema⟩
    system_prompt := row.system_prompt
    turns := [] }

/-- The first transaction of a switch: check the history, and say up to which turn. -/
def switch_snapshot (db : Database) (id : String) (generation : Int)
    (capabilities : ModelCapabilities) : Except SessionError (Option Nat) := do
  let configuration ← db.load_turn_configuration id
  check_generation id configuration.model_generation generation
  db.check_switch_history id capabilities
  return db.latest_completed_turn id

/-- The second transaction of a switch: `false` when a turn has completed since. -/
def switch_commit (db : Database) (now : Int) (id : String) (generation next : Int)
    (identity : ExecutionIdentity) (metadata : Option ModelMetadata) (revision : Option Nat) :
    Except SessionError (Bool × Database) := do
  let db := db.recover_stale_turns id now
  let current ← db.load_turn_configuration id
  check_generation id current.model_generation generation
  if ((db.turn_rows id).filter fun turn => turn.2.status.active).length ≠ 0 then
    throw (.Busy id)
  if db.latest_completed_turn id ≠ revision then return (false, db)
  let switched := db.session.update id (fun _ => true) fun row =>
    { row with
      model_generation := next
      registration_key := some identity.key
      registration_revision := some identity.revision
      provider := metadata.map (·.provider)
      model := metadata.map (·.model)
      provider_session_id := none }
  return (true, { db with session := switched })

/-- What a reservation is prepared from. -/
structure TurnAcquisition where
  configuration : TurnConfigurationRow
  expected_generation : Int
  latest_completed_turn : Option Nat
  turn_position : Nat
  turns : List (List ModelMessage)
  deriving DecidableEq, Repr

def load_turn_acquisition (db : Database) (session_id : String) :
    Except SessionError TurnAcquisition := do
  let configuration ← db.load_turn_configuration session_id
  let max_history_bytes ← decode_max_history_bytes session_id configuration.max_history_bytes
  let turns ← db.load_turns_from session_id max_history_bytes
  return {
    expected_generation := configuration.model_generation
    configuration := configuration
    latest_completed_turn := db.latest_completed_turn session_id
    turn_position := db.next_turn_position session_id
    turns := turns }

/-- Whether a reservation may still be made from what was read. -/
def is_current (db : Database) (session_id : String) (acquisition : TurnAcquisition) :
    Except SessionError Bool := do
  let configuration ← db.load_turn_configuration session_id
  check_generation session_id configuration.model_generation acquisition.expected_generation
  return configuration = acquisition.configuration &&
    db.next_turn_position session_id = acquisition.turn_position &&
    db.latest_completed_turn session_id = acquisition.latest_completed_turn

/-- Whether the newest completed turn had options compatible with new ones. -/
def compatible [Sha256] (configuration : TurnConfigurationRow) (options : TurnOptions) :
    Except SessionError Bool :=
  match configuration.turn_options with
  | none => .ok false
  | some snapshot =>
    snapshot.decode.map fun previous => previous.continuation_compatible options

def clear_incompatible_continuation [Sha256] (db : Database) (session_id : String)
    (configuration : TurnConfigurationRow) (options : TurnOptions) :
    Except SessionError Database := do
  if ← compatible configuration options then return db
  else return db.set_continuation session_id none

/-- `json_object(…)` of the selected model. -/
def model_snapshot (row : SessionRow) : Snapshot where
  generation := row.model_generation
  key := row.registration_key
  model := row.model
  provider := row.provider
  revision := row.registration_revision

/-- What the outside contributes to a reservation: the two times it reads, the random
token, and the owners this process has abandoned. -/
structure ReservationInput where
  recovery_now : Int
  reservation_now : Int
  token : List UInt8
  abandoned_turns : List TurnOwner
  deriving Repr

def for_session (abandoned_turns : List TurnOwner) (database : StoreIdentity)
    (session_id : String) : List TurnOwner :=
  abandoned_turns.filter fun owner => owner.database = database && owner.session_id = session_id

inductive Reservation where
  | Acquired (owner : TurnOwner)
  | Recorded (record : HostTurnRecord)
  | Retry
  deriving DecidableEq, Repr

/-- Insert the turn and its first message, and clear a continuation it cannot use. -/
def insert_reservation [Sha256] (db : Database) (input : ReservationInput) (session_id : String)
    (message : EncodedMessage) (acquisition : TurnAcquisition) (options : TurnOptions)
    (request : Option HostRequest) : Except SessionError (Reservation × Database) := do
  let operation := "reserve persistent session turn"
  let session ← match db.session.get? session_id with
    | none => throw (.QueryContext "begin persistent session turn" "no rows returned")
    | some row => pure row
  let row : TurnRow :=
    { error_type := none
      host_id := request.map (·.id)
      host_request := request
      lease_expires_at := some (saturating_add_i64 input.reservation_now TURN_LEASE_SECONDS)
      model_snapshot := some (model_snapshot session)
      owner_token := some input.token
      status := .running
      terminal_outcome := none
      turn_options := some (StoredTurnOptions.encode options) }
  let inserted ← match db.insert_turn session_id acquisition.turn_position row with
    | none => throw (.Busy session_id)
    | some db => pure db
  let recorded ← inserted.insert_message session_id acquisition.turn_position 0 message operation
  let reserved ←
    recorded.clear_incompatible_continuation session_id acquisition.configuration options
  return (.Acquired (TurnOwner.new db.identity session_id acquisition.turn_position input.token),
    reserved)

/-- Recover, classify the request, and reserve a turn if what was read is current. -/
def reserve_turn [Sha256] (db : Database) (input : ReservationInput) (session_id : String)
    (message : EncodedMessage) (acquisition : TurnAcquisition) (options : TurnOptions)
    (request : Option HostRequest) : Except SessionError (Reservation × Database) := do
  let recovered := db.recover_stale_turns session_id input.recovery_now
  let abandoned_turns := for_session input.abandoned_turns db.identity session_id
  let db := abandoned_turns.foldl interrupt_owned_turn recovered
  let record ← match request with
    | none => pure none
    | some request => db.load_request_from session_id request.id
  match request, record with
  | some request, some record =>
    record.check_request request
    return (.Recorded record, db)
  | _, _ =>
    if ← db.is_current session_id acquisition then
      db.insert_reservation input session_id message acquisition options request
    else return (.Retry, db)

def load_request (db : Database) (now : Int) (session_id host_id : String) :
    Except SessionError (Option HostTurnRecord × Database) := do
  let _ ← db.load_turn_configuration session_id
  let db := db.recover_stale_turns session_id now
  let record ← db.load_request_from session_id host_id
  return (record, db)

/-- Insert the messages of a completed turn after its first one. -/
def insert_messages (db : Database) (session_id : String) (turn_position : Nat) :
    Nat → List EncodedMessage → Except SessionError Database
  | _, [] => .ok db
  | message_position, message :: messages => do
      let inserted ← db.insert_message session_id turn_position message_position message
        "complete persistent session turn"
      insert_messages inserted session_id turn_position (message_position + 1) messages

/-- Every owner-scoped transaction checks the backing store first. -/
def validate_owner (db : Database) (owner : TurnOwner) : Except SessionError Unit :=
  if owner.database ≠ db.identity then .error owner.lost else .ok ()

def complete (db : Database) (now : Int) (owner : TurnOwner) (messages : List ModelMessage)
    (provider_session_id : Option String) (outcome : Option TurnOutcome) :
    Except SessionError (Unit × Database) := do
  let encoded_messages ← messages.mapM EncodedMessage.from_message
  db.validate_owner owner
  let key := (owner.session_id, owner.turn_position)
  let completes := fun (row : TurnRow) =>
    live owner now row && (row.host_id.isNone || outcome.isSome)
  if !db.session_turn.affects key completes then throw owner.lost
  let turns := db.session_turn.update key completes fun row =>
    { TurnRow.finish row .completed none with terminal_outcome := outcome }
  let completed := { db with session_turn := turns }
  let recorded ← completed.insert_messages owner.session_id owner.turn_position 1 encoded_messages
  return ((), recorded.set_continuation owner.session_id provider_session_id)

def fail_turn (db : Database) (now : Int) (owner : TurnOwner) (error_type : String) :
    Except SessionError (Unit × Database) := do
  db.validate_owner owner
  let key := (owner.session_id, owner.turn_position)
  if !db.session_turn.affects key (live owner now) then throw owner.lost
  let turns := db.session_turn.update key (live owner now) fun row =>
    TurnRow.finish row .failed (some error_type)
  let failed := { db with session_turn := turns }
  return ((), failed.set_continuation owner.session_id none)

/-- Renew a lease; the confirmed deadline is one second short of the stored one. -/
def renew (db : Database) (now : Int) (owner : TurnOwner) :
    Except SessionError (Int × Database) := do
  db.validate_owner owner
  let key := (owner.session_id, owner.turn_position)
  if !db.session_turn.affects key (live owner now) then throw owner.lost
  let turns := db.session_turn.update key (live owner now) fun row =>
    { row with lease_expires_at := some (saturating_add_i64 now TURN_LEASE_SECONDS) }
  return (now + TURN_LEASE_SECONDS - 1, { db with session_turn := turns })

def interrupt (db : Database) (owner : TurnOwner) : Except SessionError (Unit × Database) := do
  db.validate_owner owner
  return ((), db.interrupt_owned_turn owner)

/-- `ORDER BY w.turn_position, w.id`. -/
def write_precedes (a b : Nat × WriteRow) : Prop :=
  a.2.turn_position < b.2.turn_position ∨ (a.2.turn_position = b.2.turn_position ∧ a.1 ≤ b.1)

instance : DecidableRel write_precedes := fun _ _ => inferInstanceAs (Decidable (_ ∨ _))

def load_writes (db : Database) (session_id : String) : List WriteRecord :=
  (order_by write_precedes (db.write_rows session_id)).map write_record

def write_intent [Sha256] (db : Database) (now : Int) (owner : TurnOwner)
    (call_id root path : String) (expected : Option (List UInt8)) (resulting : List UInt8) :
    Except SessionError (Nat × Database) := do
  db.validate_owner owner
  if !db.session_turn.affects (owner.session_id, owner.turn_position) (live owner now) then
    throw owner.lost
  let row : WriteRow :=
    { call_id := call_id
      expected_hash := expected.map content_hash
      path := path
      repository_root := root
      resulting_hash := content_hash resulting
      session_id := owner.session_id
      status := .Pending
      turn_position := owner.turn_position }
  return (db.session_write.nextId, { db with session_write := db.session_write.push row })

def finish_write (db : Database) (owner : TurnOwner) (id : Nat) (applied : Bool) :
    Except SessionError (Unit × Database) := do
  db.validate_owner owner
  let status : WriteStatus := if applied then .Applied else .Failed
  let owned := db.session_turn.affects (owner.session_id, owner.turn_position) fun turn =>
    turn.owner_token = some owner.token
  let settles := fun (row : WriteRow) =>
    decide (row.session_id = owner.session_id) &&
      decide (row.turn_position = owner.turn_position) &&
      (decide (row.status = .Pending) || decide (row.status = status)) && owned
  if !db.session_write.affects id settles then throw owner.lost
  let writes := db.session_write.update id settles fun row => { row with status := status }
  return ((), { db with session_write := writes })

end Database

end Agentty.Harness
