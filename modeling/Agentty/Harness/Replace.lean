/-
Stale-safe replacement of one file by descriptor-relative renames.

`replace_beneath` prepares the new content under a temporary name of its own, and
installs it at the target name: by a rename that fails on an existing file when a
file is created, and by an atomic exchange when one is replaced. A replacement
checks the target before the exchange, the displaced file after it, and exchanges
back when the displaced file is not the one it expected.

One call of the program is one system call on the parent directory, or a group of
them that reads one file which nobody changes (`verify_target` opens a file and
reads it; `copy_metadata` works on two descriptors). Every call may fail without an
effect. The coordination lock is advisory; here it may be granted at any time, so
that what is proved does not depend on it.

Other writers work on the target name with files of their own: they rename one over
it, exchange one with it, or unlink it. They do not touch temporary names and do not
change a file.
-/
import Agentty.System

set_option autoImplicit false

namespace Agentty.Harness

/-! ## The directory -/

/-- File content. -/
abbrev Bytes : Type := List UInt8

/-- The identity of a file: device and inode. Identities are not reused here, since a
prepared file stays open. -/
abbrev FileId : Type := Nat

/-- One call of `replace_beneath`: its number in the temporary sequence, the content it
expects (`none` to create a file) and the new content. -/
structure Replacement where
  sequence : Nat
  expected : Option Bytes
  content : Bytes
  deriving DecidableEq, Repr

/-- The names the harness uses in the parent directory. -/
inductive Name where
  | file_name
  | temporary_name (op : Replacement)
  deriving DecidableEq, Repr

/-- The parent directory, and where files have gone from it. -/
structure Directory where
  /-- The file at the target name. -/
  target : Option FileId
  /-- The file at the temporary name of an operation. -/
  temporary : Replacement → Option FileId
  /-- What a file contains; `none` for what is not a regular file. -/
  content : FileId → Option Bytes
  /-- Files that other writers hold under names of their own. -/
  elsewhere : List FileId
  /-- Files that other writers have removed or replaced. -/
  removed : List FileId
  /-- The next file identity. -/
  next_file : FileId

namespace Directory

def lookup (directory : Directory) : Name → Option FileId
  | .file_name => directory.target
  | .temporary_name op => directory.temporary op

def set_temporary (directory : Directory) (op : Replacement) (file : Option FileId) : Directory :=
  { directory with temporary := Function.update directory.temporary op file }

def set_content (directory : Directory) (file : FileId) (content : Option Bytes) : Directory :=
  { directory with content := Function.update directory.content file content }

def create (directory : Directory) (content : Option Bytes) : Directory :=
  { directory.set_content directory.next_file content with next_file := directory.next_file + 1 }

/-- `RENAME_EXCHANGE` of a temporary name and the target name. -/
def exchange (directory : Directory) (op : Replacement) : Option Directory :=
  match directory.temporary op, directory.target with
  | some temporary, some target =>
    some { directory.set_temporary op (some target) with target := some temporary }
  | _, _ => none

/-- `RENAME_NOREPLACE` of a temporary name to the target name. -/
def rename_noreplace (directory : Directory) (op : Replacement) : Option Directory :=
  match directory.temporary op, directory.target with
  | some temporary, none =>
    some { directory.set_temporary op none with target := some temporary }
  | _, _ => none

end Directory

/-! ## Errors -/

inductive ErrorKind where
  | NotFound | AlreadyExists | InvalidInput | InvalidData | TimedOut | Other
  deriving DecidableEq, Repr

structure IoError where
  kind : ErrorKind
  message : String
  deriving DecidableEq, Repr

def not_found : IoError := ⟨.NotFound, "entity not found"⟩

def already_exists : IoError := ⟨.AlreadyExists, "entity already exists"⟩

def target_changed_error : IoError := ⟨.InvalidData, "write target changed since it was read"⟩

def not_regular_error : IoError := ⟨.InvalidInput, "write path must name a regular file"⟩

def concurrent_target_error : IoError :=
  ⟨.InvalidData, "write target changed during atomic replacement"⟩

/-- A target that is gone at an exchange was changed concurrently. -/
def map_exchange_error (error : IoError) : IoError :=
  if error.kind = .NotFound then concurrent_target_error else error

/-! ## System calls -/

/-- The calls of an operation. The last one hands the result to the caller. -/
inductive FileCall where
  /-- `openat` with `O_CREAT | O_EXCL` at the temporary name. -/
  | open_temporary (op : Replacement)
  | write_all (file : FileId) (content : Bytes)
  | sync_all (file : FileId)
  | acquire_update_lock
  | verify_target (name : Name) (expected : Bytes)
  | exchange (op : Replacement)
  | rename_noreplace (op : Replacement)
  | copy_metadata (source destination : FileId)
  | path_matches_file (name : Name) (file : FileId)
  | fsync
  | unlink_temporary (op : Replacement)
  | acknowledge (result : Except IoError Unit)

def FileCall.Reply : FileCall → Type
  | open_temporary _ => FileId
  | write_all _ _ => Unit
  | sync_all _ => Unit
  | acquire_update_lock => Unit
  | verify_target _ _ => FileId
  | exchange _ => Unit
  | rename_noreplace _ => Unit
  | copy_metadata _ _ => Unit
  | path_matches_file _ _ => Bool
  | fsync => Unit
  | unlink_temporary _ => Unit
  | acknowledge _ => Unit

/-- What the outside decides about a call: it fails without an effect, or it is carried
out. A write that fails may have written something. -/
inductive FileChoice where
  | succeed
  | fail (error : IoError)
  | write_some (written : Bytes) (error : IoError)

namespace Directory

def perform (directory : Directory) : (call : FileCall) → Directory × Except IoError call.Reply
  | .open_temporary op =>
    match directory.temporary op with
    | some _ => (directory, .error already_exists)
    | none => ((directory.create (some [])).set_temporary op (some directory.next_file),
        .ok directory.next_file)
  | .write_all file content => (directory.set_content file (some content), .ok ())
  | .sync_all _ => (directory, .ok ())
  | .acquire_update_lock => (directory, .ok ())
  | .verify_target name expected =>
    match directory.lookup name with
    | none => (directory, .error not_found)
    | some file =>
      match directory.content file with
      | none => (directory, .error not_regular_error)
      | some content =>
        if content = expected then (directory, .ok file)
        else (directory, .error target_changed_error)
  | .exchange op =>
    match directory.exchange op with
    | some exchanged => (exchanged, .ok ())
    | none => (directory, .error not_found)
  | .rename_noreplace op =>
    match directory.rename_noreplace op with
    | some renamed => (renamed, .ok ())
    | none => (directory, .error already_exists)
  | .copy_metadata _ _ => (directory, .ok ())
  | .path_matches_file name file => (directory, .ok (directory.lookup name == some file))
  | .fsync => (directory, .ok ())
  | .unlink_temporary op =>
    match directory.temporary op with
    | some _ => (directory.set_temporary op none, .ok ())
    | none => (directory, .error not_found)
  | .acknowledge _ => (directory, .ok ())

/-- One call. The result of an operation always reaches its caller. -/
def exec (directory : Directory) (choice : FileChoice) (call : FileCall) :
    Directory × Except IoError call.Reply :=
  match choice, call with
  | _, .acknowledge result => directory.perform (.acknowledge result)
  | .succeed, call => directory.perform call
  | .fail error, _ => (directory, .error error)
  | .write_some written error, .write_all file _ =>
    (directory.set_content file (some written), .error error)
  | .write_some _ error, _ => (directory, .error error)

end Directory

/-! ## Other writers -/

inductive WriterMove where
  /-- Prepare a file under a name of their own. -/
  | prepare (content : Option Bytes)
  /-- Rename one of their files over the target name. -/
  | rename (file : FileId)
  /-- Exchange one of their files with the target. -/
  | exchange (file : FileId)
  /-- Unlink the target name. -/
  | unlink

def Directory.other (directory : Directory) : WriterMove → Option Directory
  | .prepare content =>
    some { directory.create content with
      elsewhere := directory.next_file :: directory.elsewhere }
  | .rename file =>
    if file ∈ directory.elsewhere then
      some { directory with
        target := some file
        elsewhere := directory.elsewhere.erase file
        removed := directory.target.toList ++ directory.removed }
    else none
  | .exchange file =>
    match directory.target with
    | none => none
    | some target =>
      if file ∈ directory.elsewhere then
        some { directory with
          target := some file
          elsewhere := target :: directory.elsewhere.erase file }
      else none
  | .unlink =>
    match directory.target with
    | none => none
    | some target =>
      some { directory with target := none, removed := target :: directory.removed }

/-! ## The operation -/

abbrev FileProg : Type → Type := Prog FileCall FileCall.Reply IoError

/-- The result of a part of the operation, and whether the temporary file is to be
removed at the end. -/
abbrev Installed : Type := Except IoError Unit × Bool

/-- One system call whose error is looked at. -/
def system_call (call : FileCall) : FileProg (Except IoError call.Reply) := Prog.attempt call

/-- Whether a name still refers to an open file. -/
def path_matches_file (name : Name) (file : FileId) : FileProg (Except IoError Bool) :=
  system_call (.path_matches_file name file)

section Operation

variable (op : Replacement) (prepared : FileId)

/-- Exchange back. When the prepared file does not come back, somebody has changed the
target since, and the exchange is undone. -/
def roll_back_exchange : FileProg Installed := do
  match ← system_call (.exchange op) with
  | .error error => return (.error (map_exchange_error error), false)
  | .ok _ =>
    match ← path_matches_file (.temporary_name op) prepared with
    | .error error => return (.error error, false)
    | .ok matched =>
      if matched then
        match ← system_call .fsync with
        | .error error => return (.error error, true)
        | .ok _ => return (.ok (), true)
      else
        match ← system_call (.exchange op) with
        | .error error => return (.error error, false)
        | .ok _ => return (.error concurrent_target_error, false)

/-- Roll back and report an error; an error of the roll-back goes first. -/
def roll_back_with (error : IoError) : FileProg Installed := do
  match ← roll_back_exchange op prepared with
  | (.error rollback, remove_temporary) => return (.error rollback, remove_temporary)
  | (.ok _, remove_temporary) => return (.error error, remove_temporary)

/-- The displaced file must be the expected one and the target must still be the
prepared one; then the displaced file is unlinked. -/
def validate_exchange (expected : Bytes) : FileProg Installed := do
  match ← system_call (.verify_target (.temporary_name op) expected) with
  | .error error => roll_back_with op prepared error
  | .ok _ =>
    match ← path_matches_file .file_name prepared with
    | .error error => return (.error error, false)
    | .ok matched =>
      if matched then
        match ← system_call .fsync with
        | .error _ => return (.ok (), false)
        | .ok _ =>
          match ← system_call (.unlink_temporary op) with
          | .error _ => return (.ok (), false)
          | .ok _ =>
            let _ ← system_call .fsync
            return (.ok (), false)
      else return (.error concurrent_target_error, false)

/-- Copy the metadata of the original file to the prepared one and make it durable. -/
def preserve_metadata (original : FileId) : FileProg (Except IoError Unit) := do
  match ← system_call (.copy_metadata original prepared) with
  | .error error => return .error error
  | .ok _ =>
    match ← system_call (.sync_all prepared) with
    | .error error => return .error error
    | .ok _ => return .ok ()

def install_update (expected : Bytes) : FileProg Installed := do
  match ← system_call .acquire_update_lock with
  | .error error => return (.error error, true)
  | .ok _ =>
    match ← system_call (.verify_target .file_name expected) with
    | .error error =>
      return (.error (if error.kind = .NotFound then target_changed_error else error), true)
    | .ok original =>
      match ← system_call (.exchange op) with
      | .error error => return (.error error, true)
      | .ok _ =>
        match ← preserve_metadata prepared original with
        | .error error => roll_back_with op prepared error
        | .ok _ => validate_exchange op prepared expected

/-- A file that is created is renamed to the target name. -/
def install_new : FileProg Installed := do
  match ← system_call (.rename_noreplace op) with
  | .error error => return (.error error, true)
  | .ok _ =>
    let _ ← system_call .fsync
    return (.ok (), false)

/-- Write the prepared file and install it. -/
def install : FileProg Installed := do
  match ← system_call (.write_all prepared op.content) with
  | .error error => return (.error error, true)
  | .ok _ =>
    match ← system_call (.sync_all prepared) with
    | .error error => return (.error error, true)
    | .ok _ =>
      match op.expected with
      | some expected => install_update op prepared expected
      | none => install_new op

end Operation

/-- Prepare a temporary file, install it, and remove it if it is still there. -/
def replace_beneath (op : Replacement) : FileProg (Except IoError Unit) := do
  match ← system_call (.open_temporary op) with
  | .error error => return .error error
  | .ok prepared =>
    let (result, remove_temporary) ← install op prepared
    if remove_temporary then
      let _ ← system_call (.unlink_temporary op)
      return result
    else return result

/-- The operation with its caller. -/
def serve_replacement (op : Replacement) : FileProg Unit := do
  let result ← replace_beneath op
  let _ ← system_call (.acknowledge result)
  return ()

/-- Any number of operations and other writers on one target. -/
def writers : System FileCall FileCall.Reply IoError Directory FileChoice WriterMove Replacement
    Replacement where
  exec := Directory.exec
  env := Directory.other
  actor op := op
  program := serve_replacement
  admits _ _ _ := true

end Agentty.Harness
