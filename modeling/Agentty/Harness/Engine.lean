/-
The turn loop of the harness engine.

One run of the engine asks a model for a response, executes the tools the response
calls, returns their results to the model, and stops at the first response that is
an output. The model and the tools are outside: a run is a program whose calls are
one model request and one tool execution, and whose answers are arbitrary. An
answer that is an error of the program stands for a wait that never comes back with
a value: the future is dropped there, or the tool fails for good.

The loop of the source has no bound of its own, so the model of it takes fuel, one
unit for each iteration, and says `none` when it runs out.

Left out: durations, and the lifecycle observer, which only receives events.
-/
import Agentty.Prog
import Agentty.Harness.Message

set_option autoImplicit false

namespace Agentty.Harness

/-! ## Options of a turn -/

/-- Default-deny permissions for the built-in tools. -/
structure ToolPolicy where
  read : Bool
  write : Bool
  deriving DecidableEq, Repr

/-- Whether the policy permits executing and advertising a tool. -/
def ToolPolicy.allows (policy : ToolPolicy) : Tool → Bool
  | .Read => policy.read
  | .Write => policy.write

/-- Execution bounds of a turn: at least one tool call is permitted. -/
structure TurnLimits where
  max_tool_calls : Nat
  positive : 0 < max_tool_calls
  deriving DecidableEq, Repr

/-- A commit validated in one repository scope. -/
structure ComparisonBase where
  oid : String
  repository_root : String
  deriving DecidableEq, Repr

structure Repository where
  git_executable : String
  root : String
  deriving DecidableEq, Repr

/-- Whether the base was validated for this repository. -/
def ComparisonBase.matches_repository (base : ComparisonBase) (repository : Repository) : Bool :=
  base.repository_root = repository.root

structure OutputSchema where
  value : Value
  deriving DecidableEq, Repr

structure TurnOptions where
  comparison_base : Option ComparisonBase
  limits : TurnLimits
  schema : OutputSchema
  tool_policy : ToolPolicy
  deriving DecidableEq, Repr

/-! ## Errors -/

/-- Stable classes of model failures. -/
inductive ModelErrorType where
  | Request | Transport | Provider | InvalidProviderResponse | InvalidResponse
  | UnsupportedOutput | UnsupportedInput | ResponseTooLarge | InvalidOutput | InvalidToolCall
  deriving DecidableEq, Repr

/-- Failure of one model request. A wrapped request error is given by its class, the
HTTP status it carries and its text. -/
inductive ModelError where
  | Request (error_type : ModelErrorType) (http_status : Option Nat) (source : String)
  | InvalidResponse
  | ResumeUnavailable
  | IncompleteResponse (reason : String)
  | ResponseBodyTooLarge
  | UnsupportedOutputSchema (reason : String)
  | UnsupportedImageInput (reason : String)
  | ResponseContentTooLarge
  | InvalidJson (reason : String)
  | SchemaViolation (path reason : String)
  | MissingToolCall
  | InvalidToolCallId
  | MultipleToolCalls
  | DuplicateToolCallId (id : String)
  | TerminalResponseWithToolCalls
  | UnsupportedToolType (kind : String)
  | UnsupportedToolName (name : String)
  | InvalidToolArguments (reason : String)
  deriving DecidableEq, Repr

/-- Failed local validation of an output. -/
inductive OutputValidationError where
  | InvalidJson (reason : String)
  | SchemaViolation (path reason : String)
  | TooLarge
  deriving DecidableEq, Repr

def ModelError.of_validation : OutputValidationError → ModelError
  | .InvalidJson reason => .InvalidJson reason
  | .SchemaViolation path reason => .SchemaViolation path reason
  | .TooLarge => .ResponseContentTooLarge

/-- Where a request with a provider continuation failed. -/
inductive ResumeFailure where
  | Native (source : ModelError)
  | Replay (source : ModelError)
  deriving DecidableEq, Repr

/-- A wrapped request error says which attempt it comes from; every other error is
passed on as it is. -/
def ResumeFailure.into_model_error : ResumeFailure → ModelError
  | .Native (.Request error_type http_status source) =>
    .Request error_type http_status
      ("native provider continuation failed: model request failed: " ++ source)
  | .Replay (.Request error_type http_status source) =>
    .Request error_type http_status
      ("native provider continuation was unavailable and history replay failed: "
        ++ "model request failed: " ++ source)
  | .Native source => source
  | .Replay source => source

inductive TurnError where
  | Cancelled
  | Model (error : ModelError)
  | ToolDenied (name : String)
  | Read (error : String)
  | RepositoryRequired
  | ComparisonRepositoryMismatch
  | Write (error : String)
  | ToolCallLimit (limit : Nat)
  deriving DecidableEq, Repr

/-! ## Model requests and responses -/

/-- Provider-supported reasoning depths. -/
inductive ReasoningEffort where
  | Low | Medium | High | XHigh | Max
  deriving DecidableEq, Repr

/-- A native tool as it is advertised to a model. The texts of the definition depend
on the selected base only. -/
inductive ToolDefinition where
  | read_with_comparison_base (base : Option ComparisonBase)
  | write
  deriving DecidableEq, Repr

def ToolDefinition.name : ToolDefinition → String
  | .read_with_comparison_base _ => Tool.Read.name
  | .write => Tool.Write.name

/-- Provider-neutral input for one model request. -/
structure ModelRequest where
  lifecycle_observed : Bool
  messages : List ModelMessage
  model_reasoning_effort : Option ReasoningEffort
  prompt : String
  provider_session_id : Option String
  schema : OutputSchema
  tools : List ToolDefinition
  deriving DecidableEq, Repr

namespace ModelRequest

/-- A request that continues a conversation with new user input. -/
def with_history (messages : List ModelMessage) (input : TurnInput) (schema : OutputSchema) :
    ModelRequest where
  lifecycle_observed := false
  messages := messages ++ [input.into_user_message]
  model_reasoning_effort := none
  prompt := input.joined_text
  provider_session_id := none
  schema := schema
  tools := []

def advertises_tool (request : ModelRequest) (name : String) : Bool :=
  request.tools.any fun tool => tool.name = name

/-- Advertise a tool once. -/
def with_tool (request : ModelRequest) (tool : ToolDefinition) : ModelRequest :=
  if request.advertises_tool tool.name then request
  else { request with tools := request.tools ++ [tool] }

def record_tool_result (request : ModelRequest) (call : ToolCall) (content : String) :
    ModelRequest :=
  { request with messages := request.messages
      ++ [.AssistantToolCall call, .ToolResult call.id content call.name] }

def record_tool_results (request : ModelRequest) (calls : List ToolCall)
    (contents : List String) : ModelRequest :=
  { request with messages := request.messages ++ .AssistantToolCalls calls ::
      (calls.zip contents).map fun result => .ToolResult result.1.id result.2 result.1.name }

def record_output_with_reasoning (request : ModelRequest) (output : Value)
    (reasoning_content : Option String) : ModelRequest :=
  { request with messages := request.messages
      ++ [match reasoning_content with
        | some reasoning_content => .AssistantReasoning output reasoning_content
        | none => .Assistant output] }

end ModelRequest

/-- Token counts a provider reports. -/
structure CompletionUsage where
  cache_hit : Option Nat
  cache_miss : Option Nat
  input : Option Nat
  output : Option Nat
  reasoning : Option Nat
  total : Option Nat
  deriving DecidableEq, Repr

/-- Facts a provider reports about a completed request. -/
structure CompletionMetadata where
  finish_reason : String
  response_id : Option String
  response_model : Option String
  system_fingerprint : Option String
  usage : Option CompletionUsage
  deriving DecidableEq, Repr

def is_control (c : Char) : Bool := c.toNat ≤ 0x1F || (0x7F ≤ c.toNat && c.toNat ≤ 0x9F)

/-- Control characters become U+FFFD. -/
def sanitize_report_text (text : String) : String :=
  String.ofList (text.toList.map fun c => if is_control c then Char.ofNat 0xFFFD else c)

def sanitized_completion_metadata (metadata : CompletionMetadata) : CompletionMetadata where
  finish_reason := sanitize_report_text metadata.finish_reason
  response_id := metadata.response_id.map sanitize_report_text
  response_model := metadata.response_model.map sanitize_report_text
  system_fingerprint := metadata.system_fingerprint.map sanitize_report_text
  usage := metadata.usage

inductive ModelResponse where
  | Output (output : Value)
  | ToolCall (call : ToolCall)
  | ToolCalls (calls : List ToolCall)
  deriving DecidableEq, Repr

namespace ModelResponse

def output : ModelResponse → Option Value
  | Output output => some output
  | ToolCall _ => none
  | ToolCalls _ => none

def calls : ModelResponse → List Harness.ToolCall
  | Output _ => []
  | ToolCall call => [call]
  | ToolCalls calls => calls

end ModelResponse

inductive ModelResponseType where
  | Output | ToolCall | ResumeUnavailable
  deriving DecidableEq, Repr

def ModelResponse.response_type : ModelResponse → ModelResponseType
  | .Output _ => .Output
  | .ToolCall _ => .ToolCall
  | .ToolCalls _ => .ToolCall

/-- A response with its provider metadata and continuation. -/
structure ModelCompletion where
  metadata : Option CompletionMetadata
  provider_session_id : Option String
  reasoning_content : Option String
  response : ModelResponse
  deriving DecidableEq, Repr

/-! ## Reports -/

/-- Observable facts about one model request. -/
structure ModelRequestActivity where
  completion : Option CompletionMetadata
  response_type : ModelResponseType
  deriving DecidableEq, Repr

/-- Sanitized facts about one tool operation: the tool, whether it was rejected, and
its target or a summary of it. -/
structure ToolActivity where
  tool : Tool
  rejected : Bool
  path : String
  deriving DecidableEq, Repr

structure TurnReport where
  model_requests : List ModelRequestActivity
  tool_calls : List ToolActivity
  deriving DecidableEq, Repr

structure TurnOutcome where
  output : Value
  report : TurnReport
  deriving DecidableEq, Repr

/-! ## What the engine calls -/

structure ReadTool where
  root : String
  git_executable : String
  comparison_base : Option ComparisonBase
  deriving DecidableEq, Repr

/-- The journal of the turn a write belongs to. -/
structure WriteJournal where
  session_id : String
  turn_position : Int
  deriving DecidableEq, Repr

structure WriteTool where
  root : String
  journal : Option WriteJournal
  deriving DecidableEq, Repr

/-- A tool with the arguments it is executed on. -/
inductive ToolExecution where
  | Read (tool : ReadTool) (arguments : Value)
  | Write (tool : WriteTool) (arguments : Value)
  deriving DecidableEq, Repr

/-- The two calls of a run. A model request carries its index within the turn. -/
inductive EngineCall where
  | complete (request : ModelRequest) (model_request_index : Nat)
  | execute_tool (execution : ToolExecution) (call_id : String)
  deriving DecidableEq, Repr

def EngineCall.Reply : EngineCall → Type
  | complete _ _ => Except ModelError ModelCompletion
  | execute_tool _ _ => String × ToolActivity

abbrev EngineProg : Type → Type := Prog EngineCall EngineCall.Reply TurnError

/-- The dependencies and the configuration of one turn. The JSON Schema validator is
an external library. -/
structure Engine where
  lifecycle_enabled : Bool
  model_reasoning_effort : Option ReasoningEffort
  options : TurnOptions
  repository : Option Repository
  validate_value : OutputSchema → Value → Except OutputValidationError Unit

/-! ## The engine -/

def complete (request : ModelRequest) (model_request_index : Nat) :
    EngineProg (Except ModelError ModelCompletion) :=
  Prog.perform (EngineCall.complete request model_request_index)

def execute_tool (execution : ToolExecution) (call_id : String) :
    EngineProg (String × ToolActivity) :=
  Prog.perform (EngineCall.execute_tool execution call_id)

def DIAGNOSTIC_LIMIT_CHARS : Nat := 512

/-- A diagnostic, cut after the limit. -/
def bounded_diagnostic (reason : String) : String :=
  if reason.length ≤ DIAGNOSTIC_LIMIT_CHARS then reason
  else String.ofList (reason.toList.take DIAGNOSTIC_LIMIT_CHARS) ++ " ..."

/-- Reports the first identifier that occurs twice. -/
def ensure_unique_tool_call_ids_from (seen : List String) :
    List ToolCall → Except ModelError Unit
  | [] => .ok ()
  | call :: calls =>
    if call.id ∈ seen then .error (.DuplicateToolCallId (bounded_diagnostic call.id))
    else ensure_unique_tool_call_ids_from (call.id :: seen) calls

def ensure_unique_tool_call_ids (calls : List ToolCall) : Except ModelError Unit :=
  ensure_unique_tool_call_ids_from [] calls

namespace Engine

variable (engine : Engine)

def max_tool_calls : Nat := engine.options.limits.max_tool_calls

/-- Mark an observed turn, and fill in the reasoning depth of the harness when the
request does not ask for one. -/
def with_defaults (request : ModelRequest) : ModelRequest :=
  { request with
    lifecycle_observed := engine.lifecycle_enabled || request.lifecycle_observed
    model_reasoning_effort := request.model_reasoning_effort.or engine.model_reasoning_effort }

/-- Whether the selected base was validated for another repository scope. -/
def comparison_mismatch : Bool :=
  match engine.options.comparison_base with
  | some base => !(engine.repository.any fun repository => base.matches_repository repository)
  | none => false

/-- Check the comparison base, advertise the permitted tools and build them. -/
def prepare_request (request : ModelRequest) (journal : Option WriteJournal) :
    Except TurnError (ModelRequest × Option ReadTool × Option WriteTool) :=
  let read_allowed := engine.options.tool_policy.allows .Read
  let write_allowed := engine.options.tool_policy.allows .Write
  if engine.comparison_mismatch then .error .ComparisonRepositoryMismatch
  else if !read_allowed && !write_allowed then .ok (engine.with_defaults request, none, none)
  else match engine.repository with
    | none => .error .RepositoryRequired
    | some repository =>
      let reading := if read_allowed then (engine.with_defaults request).with_tool
          (.read_with_comparison_base engine.options.comparison_base)
        else engine.with_defaults request
      let read_tool := if read_allowed then some {
          root := repository.root
          git_executable := repository.git_executable
          comparison_base := engine.options.comparison_base }
        else none
      let write_tool := if write_allowed then some { root := repository.root, journal } else none
      .ok (if write_allowed then reading.with_tool .write else reading, read_tool, write_tool)

/-- Why a response cannot be accepted: it is an output that violates the schema. -/
def output_error (schema : OutputSchema) (response : ModelResponse) : Option ModelError :=
  match response.output with
  | none => none
  | some output =>
    match engine.validate_value schema output with
    | .error error => some (ModelError.of_validation error)
    | .ok _ => none

/-- One model request; an output is validated against the schema of the request. -/
def complete_model_attempt (request : ModelRequest) (model_request_index : Nat) :
    EngineProg (Except ModelError
      (ModelResponse × ModelRequestActivity × Option String × Option String)) := do
  match ← complete request model_request_index with
  | .error error => return .error error
  | .ok completion =>
    match engine.output_error request.schema completion.response with
    | some error => return .error error
    | none =>
      let activity := ModelRequestActivity.mk
        (completion.metadata.map sanitized_completion_metadata)
        completion.response.response_type
      return .ok (completion.response, activity, completion.provider_session_id,
        completion.reasoning_content)

/-- A request whose native continuation is unavailable is replayed once, without the
continuation. -/
def complete_model_request (request : ModelRequest) (model_request_index : Nat) :
    EngineProg (ModelResponse × List ModelRequestActivity × Option String × Bool
      × Option String) := do
  let native_resume := request.provider_session_id.isSome
  match ← engine.complete_model_attempt request model_request_index with
  | .ok (response, activity, provider_session_id, reasoning_content) =>
    return (response, [activity], provider_session_id, false, reasoning_content)
  | .error error =>
    if error = .ResumeUnavailable ∧ native_resume then
      let rejected_activity := ModelRequestActivity.mk none .ResumeUnavailable
      let replay_request := { request with provider_session_id := none }
      let replay_index := min (model_request_index + 1) (2 ^ 64 - 1)
      match ← engine.complete_model_attempt replay_request replay_index with
      | .ok (response, replay_activity, provider_session_id, reasoning_content) =>
        return (response, [rejected_activity, replay_activity], provider_session_id, true,
          reasoning_content)
      | .error error => Prog.fail (.Model (ResumeFailure.Replay error).into_model_error)
    else if native_resume then
      Prog.fail (.Model (ResumeFailure.Native error).into_model_error)
    else Prog.fail (.Model error)

/-- The execution a call asks for, if its tool was built. -/
def execution (read_tool : Option ReadTool) (write_tool : Option WriteTool) (call : ToolCall) :
    Option ToolExecution :=
  match call.arguments with
  | .Read arguments => read_tool.map fun tool => .Read tool arguments
  | .Write arguments => write_tool.map fun tool => .Write tool arguments

/-- One tool call: permission and budget are checked before it is executed. -/
def execute_tool_call (read_tool : Option ReadTool) (write_tool : Option WriteTool)
    (call : ToolCall) (completed_tool_calls : Nat) : EngineProg (String × ToolActivity) :=
  match execution read_tool write_tool call with
  | none => Prog.fail (.ToolDenied call.name)
  | some execution =>
    if completed_tool_calls ≥ engine.max_tool_calls then
      Prog.fail (.ToolCallLimit engine.max_tool_calls)
    else execute_tool execution call.id

/-- The calls of a batch in order; each one raises the number of completed calls. -/
def execute_tool_calls (read_tool : Option ReadTool) (write_tool : Option WriteTool) :
    List ToolCall → Nat → EngineProg (List (String × ToolActivity))
  | [], _ => return []
  | call :: calls, completed_tool_calls => do
      let result ← engine.execute_tool_call read_tool write_tool call completed_tool_calls
      let results ← execute_tool_calls read_tool write_tool calls (completed_tool_calls + 1)
      return result :: results

/-- The variables of the loop. -/
structure Loop where
  request : ModelRequest
  completed_tool_calls : Nat
  model_request_index : Nat
  model_requests : List ModelRequestActivity
  tool_calls : List ToolActivity

/-- What a turn returns: its outcome, the transcript and the continuation. -/
structure Finished where
  outcome : TurnOutcome
  messages : List ModelMessage
  provider_session_id : Option String
  deriving DecidableEq, Repr

def run_loop (read_tool : Option ReadTool) (write_tool : Option WriteTool) :
    Nat → Loop → EngineProg (Option Finished)
  | 0, _ => return none
  | fuel + 1, vars => do
      let (response, activities, provider_session_id, native_resume_rejected, reasoning_content) ←
        engine.complete_model_request vars.request vars.model_request_index
      let request := if native_resume_rejected || provider_session_id.isSome then
          { vars.request with provider_session_id }
        else vars.request
      let model_request_index := min (vars.model_request_index + activities.length) (2 ^ 64 - 1)
      let model_requests := vars.model_requests ++ activities
      match response with
      | .Output output =>
        let request := request.record_output_with_reasoning output reasoning_content
        return some {
          outcome := { output, report := { model_requests, tool_calls := vars.tool_calls } }
          messages := request.messages
          provider_session_id := request.provider_session_id }
      | .ToolCall call => do
          let (result, activity) ←
            engine.execute_tool_call read_tool write_tool call vars.completed_tool_calls
          run_loop read_tool write_tool fuel {
            request := request.record_tool_result call result
            completed_tool_calls := vars.completed_tool_calls + 1
            model_request_index
            model_requests
            tool_calls := vars.tool_calls ++ [activity] }
      | .ToolCalls calls =>
        if calls.isEmpty then Prog.fail (.Model .MissingToolCall)
        else match ensure_unique_tool_call_ids calls with
          | .error error => Prog.fail (.Model error)
          | .ok _ =>
            if calls.length > engine.max_tool_calls - vars.completed_tool_calls then
              Prog.fail (.ToolCallLimit engine.max_tool_calls)
            else do
              let results ← engine.execute_tool_calls read_tool write_tool calls
                vars.completed_tool_calls
              run_loop read_tool write_tool fuel {
                request := request.record_tool_results calls (results.map Prod.fst)
                completed_tool_calls := vars.completed_tool_calls + calls.length
                model_request_index
                model_requests
                tool_calls := vars.tool_calls ++ results.map Prod.snd }

def run (fuel : Nat) (request : ModelRequest) (journal : Option WriteJournal) :
    EngineProg (Option Finished) :=
  match engine.prepare_request request journal with
  | .error error => Prog.fail error
  | .ok (request, read_tool, write_tool) =>
    engine.run_loop read_tool write_tool fuel {
      request
      completed_tool_calls := 0
      model_request_index := 0
      model_requests := []
      tool_calls := [] }

end Engine

end Agentty.Harness
