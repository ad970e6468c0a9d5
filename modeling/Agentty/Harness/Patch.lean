/-
Unified diffs: what a patch says, and what it does to a file.

`parse_unified_diff` reads the two file headers and the hunks. `HunkApplier` runs over
the lines of the file once: it copies up to a hunk, checks the lines the hunk keeps and
removes, and puts out those it keeps and adds. `apply_unified_diff` goes from the bytes
of the file to the new bytes: the byte order mark and the line ending of the file stay.

Text is a list of characters, and an iterator over lines is the list of those it has not
given yet. The size limit of the target and its replacement on disk are not part of
these functions.
-/
import Agentty.Lines
import Agentty.Harness.Replace
import Agentty.Harness.Engine

set_option autoImplicit false

namespace Agentty.Harness

open Text

/-! ## The patch -/

structure TextLine where
  content : List Char
  newline : Bool
  deriving DecidableEq, Repr

inductive PatchLineKind where
  | Addition | Context | Removal
  deriving DecidableEq, Repr

structure PatchLine where
  kind : PatchLineKind
  text : TextLine
  deriving DecidableEq, Repr

structure Hunk where
  lines : List PatchLine
  new_count : Nat
  new_start : Nat
  old_count : Nat
  old_start : Nat
  deriving DecidableEq, Repr

structure UnifiedDiff where
  hunks : List Hunk
  modified_path : List Char
  original_path : List Char
  deriving DecidableEq, Repr

/-- The errors of `WriteError` that come from the patch and the text of its target. -/
inductive WriteError where
  | BinaryTarget (path : List Char)
  | Patch (reason : String)
  | PathMismatch (path : List Char)
  | Unsupported (reason : String)
  deriving DecidableEq, Repr

def patch_error (reason : String) : WriteError := .Patch (bounded_diagnostic reason)

/-! ## Reading a patch -/

/-- Which sides of the file a marker has ended. -/
structure PatchTermination where
  new_side : Bool
  old_side : Bool
  deriving DecidableEq, Repr

namespace PatchTermination

def default : PatchTermination := ⟨false, false⟩

/-- A marker takes the newline from the line before it. -/
def apply_marker (termination : PatchTermination) (hunk_lines : List PatchLine)
    (marker_repeated : Bool) : Except WriteError (PatchTermination × List PatchLine) :=
  if marker_repeated then .error (patch_error "newline marker cannot be repeated")
  else
    match hunk_lines.getLast? with
    | none => .error (patch_error "newline marker has no preceding patch line")
    | some previous =>
      let hunk_lines :=
        hunk_lines.dropLast ++ [{ previous with text := { previous.text with newline := false } }]
      match previous.kind with
      | .Addition => .ok ({ termination with new_side := true }, hunk_lines)
      | .Context => .ok (⟨true, true⟩, hunk_lines)
      | .Removal => .ok ({ termination with old_side := true }, hunk_lines)

def validate_line (termination : PatchTermination) (kind : PatchLineKind) :
    Except WriteError Unit :=
  if (termination.old_side ∧ kind ≠ .Addition) ∨ (termination.new_side ∧ kind ≠ .Removal) then
    .error (patch_error "newline marker must terminate its affected file side")
  else .ok ()

end PatchTermination

def ends_with_newline (line : List Char) : Bool := line.getLast? = some '\n'

def strip_patch_newline (line : List Char) : List Char :=
  if ends_with_newline line then line.dropLast else line

/-- The prefix of a patch line is its first byte: a line that begins with a longer
character cannot be split there. -/
def parse_patch_line (line : List Char) : Except WriteError PatchLine :=
  match line with
  | [] => .error (patch_error "hunk contains an empty patch line")
  | c :: content =>
    if c.utf8Size ≠ 1 then .error (patch_error "hunk contains an empty patch line")
    else if c = '+' then .ok ⟨.Addition, content, true⟩
    else if c = ' ' then .ok ⟨.Context, content, true⟩
    else if c = '-' then .ok ⟨.Removal, content, true⟩
    else .error (patch_error "hunk line must start with space, `+`, or `-`")

def no_newline_marker : List Char := "\\ No newline at end of file".toList

def hunk_prefix : List Char := "@@ ".toList

/-- The lines up to the next hunk, and what follows them. -/
def parse_hunk_lines : List (List Char) → PatchTermination → List PatchLine → Bool →
    Except WriteError (List PatchLine × PatchTermination × List (List Char))
  | [], termination, hunk_lines, _ => .ok (hunk_lines, termination, [])
  | next :: lines, termination, hunk_lines, previous_line_had_marker =>
    if hunk_prefix.isPrefixOf next then .ok (hunk_lines, termination, next :: lines)
    else if strip_patch_newline next = no_newline_marker then
      match termination.apply_marker hunk_lines previous_line_had_marker with
      | .error error => .error error
      | .ok (termination, hunk_lines) => parse_hunk_lines lines termination hunk_lines true
    else
      match parse_patch_line (strip_patch_newline next) with
      | .error error => .error error
      | .ok patch_line =>
        match termination.validate_line patch_line.kind with
        | .error error => .error error
        | .ok () => parse_hunk_lines lines termination (hunk_lines ++ [patch_line]) false

/-- What a hunk says about one file. -/
def PatchLine.old_side (line : PatchLine) : Bool := line.kind ≠ .Addition
def PatchLine.new_side (line : PatchLine) : Bool := line.kind ≠ .Removal

def validate_hunk_line_counts (hunk_lines : List PatchLine) (old_count new_count : Nat) :
    Except WriteError Unit :=
  let actual_old := (hunk_lines.filter PatchLine.old_side).length
  let actual_new := (hunk_lines.filter PatchLine.new_side).length
  if actual_old ≠ old_count ∨ actual_new ≠ new_count then
    .error (patch_error "hunk line counts do not match its header")
  else .ok ()

def parse_header (line : Option (List Char)) (strip : List Char) : Except WriteError (List Char) :=
  match line with
  | none => .error (patch_error "patch is missing file headers")
  | some line =>
    match strip_prefix strip (strip_patch_newline line) with
    | none => .error (patch_error "patch must start with `---` and `+++` file headers")
    | some rest =>
      let path := rest.takeWhile (· ≠ '\t')
      if path = [] then .error (patch_error "patch file header path must not be empty")
      else .ok path

def parse_range (range : List Char) : Except WriteError (Nat × Nat) :=
  let (start, count) := (split_once [','] range).getD (range, ['1'])
  match parse_nat usize_max start with
  | none => .error (patch_error "hunk range start is not a valid integer")
  | some start =>
    match parse_nat usize_max count with
    | none => .error (patch_error "hunk range count is not a valid integer")
    | some count => .ok (start, count)

/-- The ranges of a hunk header: the original start and count, and the modified ones. -/
def parse_hunk_header (header : List Char) : Except WriteError (Nat × Nat × Nat × Nat) :=
  match strip_prefix "@@ -".toList header >>= split_once " @@".toList with
  | none => .error (patch_error "invalid unified diff hunk header")
  | some (ranges, _) =>
    match split_once " +".toList ranges with
    | none => .error (patch_error "invalid unified diff hunk ranges")
    | some (old_range, new_range) => do
        let (old_start, old_count) ← parse_range old_range
        let (new_start, new_count) ← parse_range new_range
        return (old_start, old_count, new_start, new_count)

theorem parse_hunk_lines_length {lines rest : List (List Char)}
    {termination last : PatchTermination} {hunk_lines found : List PatchLine} {marker : Bool}
    (h : parse_hunk_lines lines termination hunk_lines marker = .ok (found, last, rest)) :
    rest.length ≤ lines.length := by
  fun_induction parse_hunk_lines lines termination hunk_lines marker with
  | case1 | case2 => simp_all
  | case3 | case5 | case6 => cases h
  | case4 | case7 =>
    rename_i ih
    exact Nat.le_succ_of_le (ih h)

/-- The hunks of a patch, after those already read. -/
def parse_hunks (lines : List (List Char)) (termination : PatchTermination) (hunks : List Hunk) :
    Except WriteError (List Hunk) :=
  match lines with
  | [] => .ok hunks
  | header :: lines =>
    match parse_hunk_header (strip_patch_newline header) with
    | .error error => .error error
    | .ok (old_start, old_count, new_start, new_count) =>
      match _hread : parse_hunk_lines lines termination [] false with
      | .error error => .error error
      | .ok (hunk_lines, termination, rest) =>
        match validate_hunk_line_counts hunk_lines old_count new_count with
        | .error error => .error error
        | .ok () =>
          parse_hunks rest termination
            (hunks ++ [⟨hunk_lines, new_count, new_start, old_count, old_start⟩])
termination_by lines.length
decreasing_by exact Nat.lt_succ_of_le (parse_hunk_lines_length _hread)

def parse_unified_diff (patch : List Char) : Except WriteError UnifiedDiff :=
  let normalized := replace_pair '\r' '\n' '\n' patch
  if '\r' ∈ normalized then .error (patch_error "patch contains unsupported carriage returns")
  else do
    let lines := split_inclusive '\n' normalized
    let original_path ← parse_header lines[0]? "--- ".toList
    let modified_path ← parse_header lines[1]? "+++ ".toList
    let hunks ← parse_hunks (lines.drop 2) .default []
    return ⟨hunks, modified_path, original_path⟩

/-! ## The target -/

def header_path (path : List Char) : List Char :=
  let original := strip_prefix "a/".toList path
  let modified := strip_prefix "b/".toList path
  (original.or modified).getD path

def dev_null : List Char := "/dev/null".toList

def validate_headers (path : List Char) (exists_ : Bool) (diff : UnifiedDiff) :
    Except WriteError Unit :=
  if diff.modified_path = dev_null then .error (.Unsupported "file deletion is not supported")
  else if header_path diff.modified_path ≠ path then .error (.PathMismatch path)
  else if exists_ then
    if diff.original_path = dev_null then
      .error (.Unsupported "create patch targets an existing file")
    else if header_path diff.original_path ≠ path then
      .error (.Unsupported "file rename is not supported")
    else .ok ()
  else if diff.original_path ≠ dev_null then
    .error (.Unsupported "new files require `/dev/null` as the original path")
  else .ok ()

def BYTE_ORDER_MARK : Bytes := [0xEF, 0xBB, 0xBF]

def decode_text (path : List Char) (bytes : Bytes) : Except WriteError (Bytes × List Char) :=
  let (bom, text) :=
    if BYTE_ORDER_MARK.isPrefixOf bytes then (BYTE_ORDER_MARK, bytes.drop BYTE_ORDER_MARK.length)
    else ([], bytes)
  match from_utf8 text with
  | none => .error (.BinaryTarget path)
  | some text => .ok (bom, text)

/-- A carriage return before a newline. -/
def has_crlf (text : List Char) : Bool :=
  (text.zip text.tail).any fun pair => pair.1 = '\r' ∧ pair.2 = '\n'

/-- A newline without a carriage return before it. -/
def has_bare_lf (text : List Char) : Bool :=
  (text.zip (none :: text.map some)).any fun pair => pair.1 = '\n' ∧ pair.2 ≠ some '\r'

/-- A carriage return without a newline behind it. -/
def has_lone_cr (text : List Char) : Bool :=
  (text.zip (text.tail.map some ++ [none])).any fun pair => pair.1 = '\r' ∧ pair.2 ≠ some '\n'

def lf : List Char := ['\n']
def crlf : List Char := ['\r', '\n']

/-- The line ending of a text, and the text with plain newlines. -/
def normalize_line_endings (path text : List Char) : Except WriteError (List Char × List Char) :=
  if has_lone_cr text ∨ (has_crlf text ∧ has_bare_lf text) then
    .error (.Unsupported s!"mixed or unsupported line endings in `{String.ofList path}`")
  else if has_crlf text then .ok (crlf, replace_pair '\r' '\n' '\n' text)
  else .ok (lf, text)

/-! ## Applying hunks -/

def hunk_start (start count : Nat) (side : String) : Except WriteError Nat :=
  if count = 0 then .ok start
  else if start = 0 then
    .error (patch_error s!"non-empty hunk cannot start at {side} line zero")
  else .ok (start - 1)

def source_line_matches (source : List Char) (expected : TextLine) : Bool :=
  ends_with_newline source = expected.newline ∧ strip_patch_newline source = expected.content

/-- What `push_text_line` puts out. -/
def push_text_line (output : List Char) (line : TextLine) : List Char :=
  output ++ line.content ++ if line.newline then ['\n'] else []

structure HunkApplier where
  new_side_terminated : Bool
  output : List Char
  output_index : Nat
  previous_original_end : Option Nat
  source_index : Nat
  /-- The lines of the source that are still to come. -/
  source_lines : List (List Char)
  deriving DecidableEq, Repr

namespace HunkApplier

def new (current : List Char) : HunkApplier where
  new_side_terminated := false
  output := []
  output_index := 0
  previous_original_end := none
  source_index := 0
  source_lines := split_inclusive '\n' current

def validate_original_range (applier : HunkApplier) (original_index old_count : Nat) :
    Except WriteError HunkApplier :=
  if applier.previous_original_end.any (fun limit => original_index < limit) then
    .error (patch_error "hunks must use ascending, non-overlapping original ranges")
  else if usize_max < original_index + old_count then
    .error (patch_error "hunk original range overflowed")
  else .ok { applier with previous_original_end := some (original_index + old_count) }

def copy_source (applier : HunkApplier) : Nat → Except WriteError HunkApplier
  | 0 => .ok applier
  | n + 1 =>
    if applier.new_side_terminated then
      .error (patch_error "newline marker must terminate its affected file side")
    else
      match applier.source_lines with
      | [] => .error (patch_error "hunk starts beyond the end of the target")
      | source_line :: source_lines =>
        copy_source
          { applier with
            output := applier.output ++ source_line
            output_index := applier.output_index + 1
            source_index := applier.source_index + 1
            source_lines } n

/-- The loop runs while the source index is below the one of the hunk. -/
def copy_source_until (applier : HunkApplier) (original_index : Nat) :
    Except WriteError HunkApplier :=
  applier.copy_source (original_index - applier.source_index)

/-- The next source line, and the applier behind it. -/
def next_matching_source_line (applier : HunkApplier) (expected : TextLine)
    (mismatch_error : String) : Except WriteError (List Char × HunkApplier) :=
  match applier.source_lines with
  | [] => .error (patch_error mismatch_error)
  | source_line :: source_lines =>
    if source_line_matches source_line expected then
      .ok (source_line, { applier with source_lines })
    else .error (patch_error mismatch_error)

def apply_line (applier : HunkApplier) (line : PatchLine) : Except WriteError HunkApplier :=
  match line.kind with
  | .Addition =>
    .ok { applier with
          output := push_text_line applier.output line.text
          output_index := applier.output_index + 1
          new_side_terminated := !line.text.newline }
  | .Context => do
      let (source_line, applier) ←
        applier.next_matching_source_line line.text "hunk context does not match the target"
      return { applier with
               output := applier.output ++ source_line
               output_index := applier.output_index + 1
               source_index := applier.source_index + 1
               new_side_terminated := !line.text.newline }
  | .Removal => do
      let (_, applier) ←
        applier.next_matching_source_line line.text "hunk removal does not match the target"
      return { applier with source_index := applier.source_index + 1 }

def apply_lines (applier : HunkApplier) : List PatchLine → Except WriteError HunkApplier
  | [] => .ok applier
  | line :: lines => do
      let applier ← applier.apply_line line
      applier.apply_lines lines

def apply_hunk (applier : HunkApplier) (hunk : Hunk) : Except WriteError HunkApplier := do
  let original_index ← hunk_start hunk.old_start hunk.old_count "original"
  let modified_index ← hunk_start hunk.new_start hunk.new_count "modified"
  let applier ← applier.validate_original_range original_index hunk.old_count
  let applier ← applier.copy_source_until original_index
  if modified_index ≠ applier.output_index then
    .error (patch_error "hunk modified range does not match its original range")
  else applier.apply_lines hunk.lines

def apply_each (applier : HunkApplier) : List Hunk → Except WriteError HunkApplier
  | [] => .ok applier
  | hunk :: hunks => do
      let applier ← applier.apply_hunk hunk
      applier.apply_each hunks

def finish (applier : HunkApplier) : Except WriteError (List Char) :=
  if applier.new_side_terminated ∧ applier.source_lines ≠ [] then
    .error (patch_error "newline marker must terminate its affected file side")
  else .ok (applier.output ++ applier.source_lines.flatten)

end HunkApplier

def apply_hunks (current : List Char) (hunks : List Hunk) : Except WriteError (List Char) := do
  let applier ← (HunkApplier.new current).apply_each hunks
  applier.finish

def apply_unified_diff (requested_path : List Char) (current : Option Bytes)
    (unified_patch : List Char) : Except WriteError Bytes := do
  let diff ← parse_unified_diff unified_patch
  validate_headers requested_path current.isSome diff
  let (bom, text) ← decode_text requested_path (current.getD [])
  let (line_ending, normalized) ← normalize_line_endings requested_path text
  let output ← apply_hunks normalized diff.hunks
  let output := if line_ending = crlf then replace_char '\n' crlf output else output
  return bom ++ utf8 output

end Agentty.Harness
