/-
Conversations of the harness: tool calls, user input, messages and their size.

A JSON value is represented by its compact text, and the validated arguments of a
tool call by the JSON they serialise to; both codecs are exact. Image bytes are
kept, since their number enters the size of a message. The bounds that input is
checked against when it is built (`TurnInput::from_blocks`) are not: nothing below
depends on them.
-/
import Mathlib.Algebra.GroupWithZero.Nat
import Mathlib.Algebra.Ring.Int.Defs
import Agentty.Text

set_option autoImplicit false

namespace Agentty.Harness

/-! ## Machine sizes -/

/-- `usize::MAX`. -/
def usize_max : Nat := 2 ^ 64 - 1

def saturating_add (a b : Nat) : Nat := min (a + b) usize_max

def len (s : String) : Nat := s.utf8ByteSize

/-! ## Tool calls -/

/-- A JSON value, by its compact text. -/
abbrev Value : Type := String

inductive Tool where
  | Read
  | Write
  deriving DecidableEq, Repr

def Tool.name : Tool → String
  | .Read => "read"
  | .Write => "write"

inductive ToolArguments where
  | Read (arguments : Value)
  | Write (arguments : Value)
  deriving DecidableEq, Repr

structure ToolCall where
  arguments : ToolArguments
  id : String
  reasoning_content : Option String
  deriving DecidableEq, Repr

namespace ToolCall

def tool (call : ToolCall) : Tool :=
  match call.arguments with
  | .Read _ => .Read
  | .Write _ => .Write

def name (call : ToolCall) : String := call.tool.name

/-- The validated arguments, serialised. -/
def arguments_json (call : ToolCall) : Value :=
  match call.arguments with
  | .Read arguments => arguments
  | .Write arguments => arguments

end ToolCall

/-! ## User input -/

inductive ImageMediaType where
  | Jpeg
  | Png
  deriving DecidableEq, Repr

/-- The IANA media type identifier. -/
def ImageMediaType.as_str : ImageMediaType → String
  | .Jpeg => "image/jpeg"
  | .Png => "image/png"

/-- Image bytes with their declared media type. -/
structure ImageContent where
  bytes : List UInt8
  media_type : ImageMediaType
  deriving DecidableEq, Repr

/-- Length of the base64 text of some bytes. -/
def base64_len (bytes : Nat) : Nat := min ((bytes + 2) / 3 * 4) usize_max

/-- The deterministic length of the image as a base64 data URL. -/
def ImageContent.encoded_data_url_bytes (image : ImageContent) : Nat :=
  saturating_add (saturating_add (saturating_add (len "data:") (len image.media_type.as_str))
    (len ";base64,")) (base64_len image.bytes.length)

inductive InputBlock where
  | Image (image : ImageContent)
  | Text (text : String)
  deriving DecidableEq, Repr

def InputBlock.is_image : InputBlock → Bool
  | .Image _ => true
  | .Text _ => false

/-- Ordered user content for one turn. -/
structure TurnInput where
  blocks : List InputBlock
  deriving DecidableEq, Repr

namespace TurnInput

/-- Text-only input from one text block. -/
def text (text : String) : TurnInput := ⟨[.Text text]⟩

def has_images (input : TurnInput) : Bool := input.blocks.any InputBlock.is_image

/-- The text blocks joined by a blank line. -/
def joined_text (input : TurnInput) : String :=
  input.blocks.foldl (fun joined block =>
    match block with
    | .Image _ => joined
    | .Text text => (if joined = "" then joined else joined ++ "\n\n") ++ text) ""

/-- Text bytes and data-URL lengths, as history replay sends them. -/
def retained_bytes (input : TurnInput) : Nat :=
  input.blocks.foldl (fun total block => saturating_add total
    (match block with
    | .Image image => image.encoded_data_url_bytes
    | .Text text => len text)) 0

end TurnInput

/-! ## Messages -/

/-- A provider-neutral conversation entry. -/
inductive ModelMessage where
  | Assistant (content : String)
  | AssistantReasoning (content reasoning_content : String)
  | AssistantToolCall (call : ToolCall)
  | AssistantToolCalls (calls : List ToolCall)
  | System (content : String)
  | ToolResult (call_id content name : String)
  | User (content : String)
  | UserInput (input : TurnInput)
  deriving DecidableEq, Repr

/-- The canonical user message of an input: text-only input becomes one text. -/
def TurnInput.into_user_message (input : TurnInput) : ModelMessage :=
  if input.has_images then .UserInput input else .User input.joined_text

/-- What one call adds to the size of its message. -/
def ToolCall.add_retained_bytes (bytes : Nat) (call : ToolCall) : Nat :=
  saturating_add (saturating_add (saturating_add (saturating_add bytes (len call.id))
    (len call.name)) (len call.arguments_json))
    (match call.reasoning_content with
    | some reasoning => len reasoning
    | none => 0)

/-- Payload bytes as the bounded session history counts them. -/
def ModelMessage.retained_bytes : ModelMessage → Nat
  | .Assistant content => len content
  | .AssistantReasoning content reasoning_content =>
    saturating_add (len content) (len reasoning_content)
  | .AssistantToolCall call => call.add_retained_bytes 0
  | .AssistantToolCalls calls => calls.foldl ToolCall.add_retained_bytes 0
  | .System content => len content
  | .ToolResult call_id content name =>
    saturating_add (saturating_add (len call_id) (len content)) (len name)
  | .User content => len content
  | .UserInput input => input.retained_bytes

end Agentty.Harness
