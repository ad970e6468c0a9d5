/-
What both session stores share: configuration, owners, host requests, write
records, stored options and model admission.

SHA-256 is a parameter. JSON columns hold the value they encode; a snapshot of turn
options is kept as its fields, because its decoder checks more than the syntax. Turn
positions and write identifiers, `i64` in the source, start at zero and are only counted
up, so they are natural numbers.
-/
import Agentty.Harness.Engine

set_option autoImplicit false

namespace Agentty.Harness

/-! ## Constants and scalars -/

/-- `i64::MAX`. -/
def i64_max : Int := 2 ^ 63 - 1

/-- The lease of a turn, renewed while the turn runs. -/
def TURN_LEASE_SECONDS : Int := 300

/-- `i64::saturating_add` of a non-negative number. -/
def saturating_add_i64 (a b : Int) : Int := min (a + b) i64_max

/-- `str::trim().is_empty()`. -/
def is_blank (text : String) : Bool := (Text.trim text.toList).isEmpty

/-! ## Identities -/

/-- The host assertion about model and execution configuration. Both components have
1 to 256 bytes and are not blank. -/
def validate_identifier (id : String) : Bool := !is_blank id && len id ≤ 256

structure ExecutionIdentity where
  key : String
  revision : String
  valid : validate_identifier key = true ∧ validate_identifier revision = true
  deriving DecidableEq, Repr

/-- Provider and model name, neither of them blank. -/
structure ModelMetadata where
  model : String
  provider : String
  named : is_blank provider = false ∧ is_blank model = false
  deriving DecidableEq, Repr

structure ModelCapabilities where
  image_input : Bool
  native_continuation : Bool
  tool_calls : Bool
  deriving DecidableEq, Repr

/-- The backing store of a handle. -/
inductive StoreIdentity where
  | File (path : String)
  | Host (store key : String)
  | Temporary (number : Nat)
  deriving DecidableEq, Repr

structure TurnOwner where
  database : StoreIdentity
  interruption_error_type : String
  session_id : String
  token : List UInt8
  turn_position : Nat
  deriving DecidableEq, Repr

namespace TurnOwner

/-- A new owner; its reservation is interrupted unless it is activated. -/
def new (database : StoreIdentity) (session_id : String) (turn_position : Nat)
    (token : List UInt8) : TurnOwner where
  database := database
  interruption_error_type := "interrupted"
  session_id := session_id
  token := token
  turn_position := turn_position

/-- What equality of owners compares: everything but the interruption diagnostic. -/
def identity (owner : TurnOwner) : StoreIdentity × String × Nat × List UInt8 :=
  (owner.database, owner.session_id, owner.turn_position, owner.token)

/-- From the acknowledged reservation on, dropping the turn counts as cancelling it. -/
def activate (owner : TurnOwner) : TurnOwner :=
  { owner with interruption_error_type := "cancelled" }

end TurnOwner

/-! ## Host requests and writes -/

/-- The fingerprint of an effective request, under its session-scoped identifier. -/
structure HostRequest where
  fingerprint : String
  id : String
  deriving DecidableEq, Repr

/-- The model a turn was reserved with. -/
structure RecordedModel where
  generation : Int
  model : Option String
  provider : Option String
  registration_identity : Option ExecutionIdentity
  deriving DecidableEq, Repr

/-- The acknowledged outcome of a filesystem write. -/
inductive WriteStatus where
  | Pending
  | Applied
  | Failed
  deriving DecidableEq, Repr

structure WriteRecord where
  call_id : String
  expected_hash : Option String
  id : Nat
  path : String
  repository_root : String
  resulting_hash : String
  status : WriteStatus
  turn_position : Nat
  deriving DecidableEq, Repr

/-- The recorded state of a host request. -/
inductive HostTurnStatus where
  | InProgress
  | Completed (outcome : TurnOutcome)
  | Failed (error_type : String)
  | Interrupted (error_type : String)
  deriving DecidableEq, Repr

/-- A host request with the writes of its turn. -/
structure HostTurnRecord where
  model : Option RecordedModel
  request : HostRequest
  status : HostTurnStatus
  turn_position : Nat
  writes : List WriteRecord
  deriving DecidableEq, Repr

/-! ## Errors -/

/-- Errors of session operations. A statement the database rejects is given by the
operation and what rejects it. -/
inductive SessionError where
  | StaleModel (id : String)
  | UnsupportedModelHistory (reason : String)
  | HostTurnConflict
  | AlreadyExists (id : String)
  | Busy (id : String)
  | InvalidData (reason : String)
  | NotFound (id : String)
  | OwnershipLost (id : String) (turn_position : Nat)
  | QueryContext (operation reason : String)
  deriving DecidableEq, Repr

/-- The owner's token or lease is no longer valid. -/
def TurnOwner.lost (owner : TurnOwner) : SessionError :=
  .OwnershipLost owner.session_id owner.turn_position

/-- A retry must be the recorded request. -/
def HostTurnRecord.check_request (record : HostTurnRecord) (request : HostRequest) :
    Except SessionError Unit :=
  if record.request ≠ request then .error .HostTurnConflict else .ok ()

/-- An identity is read back from its components. -/
def ExecutionIdentity.new (key revision : String) : Except SessionError ExecutionIdentity :=
  if h : validate_identifier key = true ∧ validate_identifier revision = true then
    .ok ⟨key, revision, h⟩
  else .error (.InvalidData "host identity must contain 1–256 bytes and not be blank")

/-! ## Sessions -/

/-- The configuration stored when a session is created. -/
structure NewSession where
  id : String
  registration_identity : Option ExecutionIdentity
  schema : OutputSchema
  system_prompt : Option String
  deriving DecidableEq, Repr

/-- Configuration and bounded completed turns, oldest first. -/
structure LoadedSession where
  max_history_bytes : Nat
  model : Option String
  model_generation : Int
  provider : Option String
  provider_session_id : Option String
  registration_identity : Option ExecutionIdentity
  schema : OutputSchema
  system_prompt : Option String
  turns : List (List ModelMessage)
  deriving DecidableEq, Repr

/-- The current selection, as provenance of a turn. -/
def LoadedSession.recorded_model (session : LoadedSession) : RecordedModel where
  generation := session.model_generation
  model := session.model
  provider := session.provider
  registration_identity := session.registration_identity

/-- A reservation with what its turn starts from. -/
structure AcquiredTurn where
  owner : TurnOwner
  provider_session_id : Option String
  turns : List (List ModelMessage)
  deriving DecidableEq, Repr

/-- A request is classified, or its first attempt acquired. -/
inductive HostTurnAcquisition where
  | Acquired (turn : AcquiredTurn)
  | Recorded (record : HostTurnRecord)
  deriving DecidableEq, Repr

/-! ## Stored options of a turn -/

/-- The options a fingerprint covers. -/
structure EffectiveOptions where
  comparison_base : Option ComparisonBase
  max_tool_calls : Nat
  output_schema : Value
  tool_policy : ToolPolicy
  version : Nat
  deriving DecidableEq, Repr

/-- SHA-256, which the crate `sha2` computes: the hexadecimal digest of a content, and of
effective options as JSON text. -/
class Sha256 where
  content : List UInt8 → String
  options : EffectiveOptions → String

/-- `content_hash` of the write journal. -/
def content_hash [Sha256] (content : List UInt8) : String := Sha256.content content

structure StoredTurnOptions where
  comparison_base : Option ComparisonBase
  fingerprint : Option String
  max_tool_calls : Nat
  output_schema : Value
  tool_policy : ToolPolicy
  version : Nat
  deriving DecidableEq, Repr

namespace StoredTurnOptions

def effective_options (stored : StoredTurnOptions) : EffectiveOptions where
  comparison_base := stored.comparison_base
  max_tool_calls := stored.max_tool_calls
  output_schema := stored.output_schema
  tool_policy := stored.tool_policy
  version := stored.version

/-- `fingerprint`, of the options as they stand. -/
def digest [Sha256] (stored : StoredTurnOptions) : String :=
  Sha256.options stored.effective_options

/-- The current version, with its fingerprint. -/
def encode [Sha256] (options : TurnOptions) : StoredTurnOptions :=
  let stored : StoredTurnOptions :=
    { comparison_base := options.comparison_base
      fingerprint := none
      max_tool_calls := options.limits.max_tool_calls
      output_schema := options.schema.value
      tool_policy := options.tool_policy
      version := 3 }
  { stored with fingerprint := some stored.digest }

/-- Versions 1 to 3 are supported; from the second on the fingerprint must match. -/
def decode [Sha256] (stored : StoredTurnOptions) : Except SessionError StoredTurnOptions :=
  if ¬ (1 ≤ stored.version ∧ stored.version ≤ 3) then
    .error (.InvalidData ("unsupported turn options version " ++ toString stored.version))
  else
    let valid :=
      if stored.version = 1 then stored.comparison_base.isNone && stored.fingerprint.isNone
      else stored.fingerprint == some stored.digest
    if valid then .ok stored
    else .error (.InvalidData "invalid comparison identity or effective-options fingerprint")

/-- Whether a native continuation may be reused under new options. The tool budget does
not matter. -/
def continuation_compatible (stored : StoredTurnOptions) (options : TurnOptions) : Bool :=
  (stored.version = 2 || stored.version = 3) && stored.output_schema == options.schema.value &&
    stored.tool_policy == options.tool_policy && stored.comparison_base == options.comparison_base

theorem decode_encode [Sha256] (options : TurnOptions) :
    decode (encode options) = .ok (encode options) := by
  simp [decode, encode, digest, effective_options]

end StoredTurnOptions

/-! ## Model admission -/

/-- A handle must have the current generation. -/
def check_generation (id : String) (actual expected : Int) : Except SessionError Unit :=
  if actual ≠ expected then .error (.StaleModel id) else .ok ()

theorem check_generation_ok {id : String} {actual expected : Int} {u : Unit}
    (h : check_generation id actual expected = .ok u) : actual = expected := by
  by_contra hne
  simp [check_generation, hne] at h

def invalid_snapshot : SessionError := .InvalidData "invalid model selection snapshot"

/-- `generation.checked_add(1)`. -/
def next_generation (generation : Int) : Except SessionError Int :=
  if generation + 1 ≤ i64_max then .ok (generation + 1) else .error invalid_snapshot

theorem next_generation_ok {generation next : Int} (h : next_generation generation = .ok next) :
    generation + 1 ≤ i64_max ∧ next = generation + 1 := by
  unfold next_generation at h
  split at h
  · next hle => exact ⟨hle, (Except.ok.inj h).symm⟩
  · cases h

def tool_history_error : SessionError :=
  .UnsupportedModelHistory "target does not support tool history"

def reasoning_history_error : SessionError :=
  .UnsupportedModelHistory "provider reasoning cannot be transferred between model selections"

def image_history_error : SessionError :=
  .UnsupportedModelHistory "target does not support image history"

/-- Whether a model can take over one message of the history. -/
def check_message (capabilities : ModelCapabilities) : ModelMessage → Except SessionError Unit
  | .AssistantToolCall call =>
    if !capabilities.tool_calls then .error tool_history_error
    else if call.reasoning_content.isSome then .error reasoning_history_error
    else .ok ()
  | .AssistantToolCalls calls =>
    if !capabilities.tool_calls then .error tool_history_error
    else if calls.any fun call => call.reasoning_content.isSome then
      .error reasoning_history_error
    else .ok ()
  | .ToolResult _ _ _ =>
    if !capabilities.tool_calls then .error tool_history_error else .ok ()
  | .AssistantReasoning _ _ => .error reasoning_history_error
  | .UserInput input =>
    if input.has_images && !capabilities.image_input then .error image_history_error else .ok ()
  | .Assistant _ => .ok ()
  | .System _ => .ok ()
  | .User _ => .ok ()

/-- The first message that cannot be taken over rejects the switch. -/
def check_history (capabilities : ModelCapabilities) : List ModelMessage → Except SessionError Unit
  | [] => .ok ()
  | message :: messages =>
    match check_message capabilities message with
    | .error error => .error error
    | .ok _ => check_history capabilities messages

theorem check_history_ok_iff {capabilities : ModelCapabilities} {messages : List ModelMessage} :
    check_history capabilities messages = .ok () ↔
      ∀ message ∈ messages, check_message capabilities message = .ok () := by
  induction messages with
  | nil => simp [check_history]
  | cons message messages ih =>
    simp only [check_history, List.forall_mem_cons]
    split
    · next error h => simp [h]
    · next h => simp [h, ih]

end Agentty.Harness
