/-
Any number of replacements and other writers on one target name.

What an operation has done so far is a stage, read off its own log. The stage says
which call may come next, and in every directory a run reaches it says what is at the
temporary name: the prepared file, or the file the exchange displaced, which from the
check on is known to have the expected content. Nobody else touches that name, so a
stage cannot go stale.

From there: an operation unlinks its own prepared file, or a displaced file with the
expected content; it returns success only when one exchange took the target from the
expected content to the new one; and a file somebody else has put at the target is
lost to a failed operation in no case.
-/
import Agentty.Harness.Replace

set_option autoImplicit false

namespace Agentty.Harness

open Prog (Meets)

/-! ## Stages -/

/-- How far an operation has come; `p` is its prepared file. -/
inductive Stage where
  | begun
  /-- The temporary file exists. -/
  | opened (p : FileId)
  /-- It has the new content. -/
  | prepared (p : FileId)
  /-- It is at the target; the temporary name has the displaced file. -/
  | exchanged (p : FileId)
  /-- The displaced file has the expected content. -/
  | checked (p : FileId)
  /-- After that, the target still was the prepared file. -/
  | confirmed (p : FileId)
  /-- Exchanged back; the temporary name has whatever was at the target. -/
  | rolled_back (p : FileId)
  /-- That is the prepared file. -/
  | recovered (p : FileId)
  /-- Exchanged for the third time, and left alone. -/
  | left (p : FileId)
  /-- The prepared file was renamed to a free target. -/
  | created (p : FileId)
  /-- The prepared file was unlinked. -/
  | withdrawn (p : FileId)
  /-- The displaced file was unlinked. -/
  | replaced (p : FileId)
  deriving DecidableEq, Repr

namespace Stage

/-- What one call and its answer do to the stage. -/
def next : Stage → (call : FileCall) → Except IoError call.Reply → Stage
  | begun, .open_temporary _, .ok p => opened p
  | opened p, .write_all _ _, .ok _ => prepared p
  | prepared p, .exchange _, .ok _ => exchanged p
  | exchanged p, .exchange _, .ok _ => rolled_back p
  | rolled_back p, .exchange _, .ok _ => left p
  | prepared p, .rename_noreplace _, .ok _ => created p
  | exchanged p, .verify_target _ _, .ok _ => checked p
  | checked p, .path_matches_file _ _, .ok true => confirmed p
  | rolled_back p, .path_matches_file _ _, .ok true => recovered p
  | opened p, .unlink_temporary _, .ok _ => withdrawn p
  | prepared p, .unlink_temporary _, .ok _ => withdrawn p
  | recovered p, .unlink_temporary _, .ok _ => withdrawn p
  | confirmed p, .unlink_temporary _, .ok _ => replaced p
  | stage, _, _ => stage

/-- The target has gone from the expected content to the new one. -/
def succeeded : Stage → Bool
  | confirmed _ | created _ | replaced _ => true
  | _ => false

/-- The prepared file is at the temporary name. -/
def holds_prepared : Stage → Bool
  | opened _ | prepared _ | recovered _ => true
  | _ => false

end Stage

/-- Everything an operation has seen, newest first. -/
abbrev FileLog : Type := Prog.Log FileCall FileCall.Reply IoError

/-- The stage after the calls of a log. -/
def stage : FileLog → Stage
  | [] => .begun
  | ⟨call, reply⟩ :: older => (stage older).next call reply

def Permits (op : Replacement) (stage : Stage) : FileCall → Prop
  | .open_temporary op' => op' = op ∧ stage = .begun
  | .write_all file content => stage = .opened file ∧ content = op.content
  | .exchange op' => op' = op ∧
      ((∃ p, stage = .prepared p) ∨ (∃ p, stage = .exchanged p) ∨ ∃ p, stage = .rolled_back p)
  | .rename_noreplace op' => op' = op ∧ op.expected = none ∧ ∃ p, stage = .prepared p
  | .verify_target name expected => op.expected = some expected ∧
      ((name = .file_name ∧ ∃ p, stage = .prepared p) ∨
        (name = .temporary_name op ∧ ∃ p, stage = .exchanged p))
  | .path_matches_file name file =>
    (name = .file_name ∧ stage = .checked file) ∨
      (name = .temporary_name op ∧ stage = .rolled_back file)
  | .unlink_temporary op' => op' = op ∧
      (stage.holds_prepared = true ∨ ∃ p, stage = .confirmed p)
  | .acknowledge (.ok _) => stage.succeeded = true
  | .acknowledge (.error _) => stage.succeeded = false
  | .sync_all _ => True
  | .acquire_update_lock => True
  | .copy_metadata _ _ => True
  | .fsync => True

/-! ## The program respects its stages -/

section Program

variable {op : Replacement} {p : FileId} {log : FileLog}

/-- The specifications below: any answer is possible and every call is permitted. -/
abbrev Respects (op : Replacement) {α : Type} (Q : FileLog → α → Prop) (prog : FileProg α)
    (log : FileLog) : Prop :=
  Meets (fun _ _ => True) (fun log call => Permits op (stage log) call) Q (fun _ => True) prog log

/-- What the end of an operation finds. -/
def Settled (log : FileLog) : Installed → Prop
  | (.ok _, remove_temporary) => remove_temporary = false ∧ (stage log).succeeded = true
  | (.error _, remove_temporary) => (stage log).succeeded = false ∧
      (remove_temporary = true → (stage log).holds_prepared = true)

/-- The rule for one call: it is permitted, and whatever the answer is, the rest
respects the stage after it. -/
theorem respects_call {α : Type} {Q : FileLog → α → Prop} {call : FileCall} {s : Stage}
    {k : Except IoError call.Reply → FileProg α} (hs : stage log = s) (h : Permits op s call)
    (hk : ∀ reply log', stage log' = s.next call reply → Respects op Q (k reply) log') :
    Respects op Q ((system_call call).bind k) log := by
  subst hs
  exact ⟨h, fun reply _ => hk (.ok reply) _ rfl, fun error => hk (.error error) _ rfl⟩

theorem respects_ret {α : Type} {Q : FileLog → α → Prop} {a : α} (h : Q log a) :
    Respects op Q (Prog.ret a) log := h

/-- A roll-back never counts as a success, and has the temporary file removed only
when the prepared file has come back. -/
theorem roll_back_exchange_respects (h : stage log = .exchanged p) :
    Respects op (fun log' result => (stage log').succeeded = false ∧
        (result.2 = true → (stage log').holds_prepared = true))
      (roll_back_exchange op p) log := by
  refine respects_call h ⟨rfl, .inr (.inl ⟨p, rfl⟩)⟩ ?_
  rintro (error | _) log₁ h₁
  · exact respects_ret ⟨by rw [h₁]; rfl, fun h => nomatch h⟩
  replace h₁ : stage log₁ = .rolled_back p := h₁
  refine respects_call h₁ (.inr ⟨rfl, rfl⟩) ?_
  rintro (error | matched) log₂ h₂
  · exact respects_ret ⟨by rw [h₂]; rfl, fun h => nomatch h⟩
  cases matched with
  | true =>
    replace h₂ : stage log₂ = .recovered p := h₂
    refine respects_call h₂ trivial ?_
    rintro (error | _) log₃ h₃ <;>
      exact respects_ret ⟨by rw [h₃]; rfl, fun _ => by rw [h₃]; rfl⟩
  | false =>
    replace h₂ : stage log₂ = .rolled_back p := h₂
    refine respects_call h₂ ⟨rfl, .inr (.inr ⟨p, rfl⟩)⟩ ?_
    rintro (error | _) log₃ h₃ <;>
      exact respects_ret ⟨by rw [h₃]; rfl, fun h => nomatch h⟩

theorem roll_back_with_respects (h : stage log = .exchanged p) (error : IoError) :
    Respects op Settled (roll_back_with op p error) log := by
  refine (roll_back_exchange_respects h).bind ?_
  rintro log' ⟨_ | _, remove_temporary⟩ h' <;> exact h'

theorem validate_exchange_respects {expected : Bytes} (hop : op.expected = some expected)
    (h : stage log = .exchanged p) :
    Respects op Settled (validate_exchange op p expected) log := by
  refine respects_call h ⟨hop, .inr ⟨rfl, p, rfl⟩⟩ ?_
  rintro (error | _) log₁ h₁
  · exact roll_back_with_respects h₁ error
  replace h₁ : stage log₁ = .checked p := h₁
  refine respects_call h₁ (.inl ⟨rfl, rfl⟩) ?_
  rintro (error | matched) log₂ h₂
  · exact respects_ret ⟨by rw [h₂]; rfl, fun h => nomatch h⟩
  cases matched with
  | false => exact respects_ret ⟨by rw [h₂]; rfl, fun h => nomatch h⟩
  | true =>
    replace h₂ : stage log₂ = .confirmed p := h₂
    refine respects_call h₂ trivial ?_
    rintro (error | _) log₃ h₃
    · exact respects_ret ⟨rfl, by rw [h₃]; rfl⟩
    replace h₃ : stage log₃ = .confirmed p := h₃
    refine respects_call h₃ ⟨rfl, .inr ⟨p, rfl⟩⟩ ?_
    rintro (error | _) log₄ h₄
    · exact respects_ret ⟨rfl, by rw [h₄]; rfl⟩
    replace h₄ : stage log₄ = .replaced p := h₄
    refine respects_call h₄ trivial ?_
    rintro (error | _) log₅ h₅ <;> exact respects_ret ⟨rfl, by rw [h₅]; rfl⟩

theorem preserve_metadata_respects (h : stage log = .exchanged p) (original : FileId) :
    Respects op (fun log' _ => stage log' = .exchanged p) (preserve_metadata p original) log := by
  refine respects_call h trivial ?_
  rintro (error | _) log₁ h₁
  · exact respects_ret h₁
  replace h₁ : stage log₁ = .exchanged p := h₁
  refine respects_call h₁ trivial ?_
  rintro (error | _) log₂ h₂ <;> exact respects_ret h₂

/-- A failure before the exchange leaves the prepared file at the temporary name. -/
theorem settled_of_prepared {error : IoError} (h : stage log = .prepared p) :
    Settled log (.error error, true) :=
  ⟨by rw [h]; rfl, fun _ => by rw [h]; rfl⟩

theorem install_update_respects {expected : Bytes} (hop : op.expected = some expected)
    (h : stage log = .prepared p) : Respects op Settled (install_update op p expected) log := by
  refine respects_call h trivial ?_
  rintro (error | _) log₁ h₁
  · exact respects_ret (settled_of_prepared h₁)
  replace h₁ : stage log₁ = .prepared p := h₁
  refine respects_call h₁ ⟨hop, .inl ⟨rfl, p, rfl⟩⟩ ?_
  rintro (error | original) log₂ h₂
  · exact respects_ret (settled_of_prepared h₂)
  replace h₂ : stage log₂ = .prepared p := h₂
  refine respects_call h₂ ⟨rfl, .inl ⟨p, rfl⟩⟩ ?_
  rintro (error | _) log₃ h₃
  · exact respects_ret (settled_of_prepared h₃)
  refine (preserve_metadata_respects h₃ original).bind ?_
  rintro log₄ (error | _) h₄
  · exact roll_back_with_respects h₄ error
  · exact validate_exchange_respects hop h₄

theorem install_new_respects (hop : op.expected = none) (h : stage log = .prepared p) :
    Respects op Settled (install_new op) log := by
  refine respects_call h ⟨rfl, hop, p, rfl⟩ ?_
  rintro (error | _) log₁ h₁
  · exact respects_ret (settled_of_prepared h₁)
  replace h₁ : stage log₁ = .created p := h₁
  refine respects_call h₁ trivial ?_
  rintro (error | _) log₂ h₂ <;> exact respects_ret ⟨rfl, by rw [h₂]; rfl⟩

theorem install_respects (h : stage log = .opened p) : Respects op Settled (install op p) log := by
  refine respects_call h ⟨rfl, rfl⟩ ?_
  rintro (error | _) log₁ h₁
  · exact respects_ret ⟨by rw [h₁]; rfl, fun _ => by rw [h₁]; rfl⟩
  replace h₁ : stage log₁ = .prepared p := h₁
  refine respects_call h₁ trivial ?_
  rintro (error | _) log₂ h₂
  · exact respects_ret (settled_of_prepared h₂)
  replace h₂ : stage log₂ = .prepared p := h₂
  dsimp only
  split
  · next expected hop => exact install_update_respects hop h₂
  · next hop => exact install_new_respects hop h₂

theorem replace_beneath_respects (h : stage log = .begun) :
    Respects op (fun log' result => (stage log').succeeded = result.isOk)
      (replace_beneath op) log := by
  refine respects_call h ⟨rfl, rfl⟩ ?_
  rintro (error | prepared) log₁ h₁
  · exact respects_ret (by rw [h₁]; rfl)
  refine (install_respects h₁).bind ?_
  rintro log₂ ⟨result, remove_temporary⟩ h₂
  cases remove_temporary with
  | false =>
    refine respects_ret ?_
    cases result with
    | ok _ => exact h₂.2
    | error error => exact h₂.1
  | true =>
    cases result with
    | ok _ => exact absurd h₂.1 (by decide)
    | error error =>
      have hholds := h₂.2 rfl
      refine respects_call rfl ⟨rfl, .inl hholds⟩ ?_
      intro reply log₃ h₃
      refine respects_ret ?_
      rw [h₃]
      cases hs : stage log₂ with
      | opened | prepared | recovered => cases reply <;> rfl
      | _ => rw [hs] at hholds; cases hholds

end Program

theorem writers_certified :
    writers.Certified (fun _ _ => True) (fun op log call => Permits op (stage log) call) where
  valid _ _ _ _ _ := trivial
  meets op := by
    refine (replace_beneath_respects rfl).bind ?_
    intro log result hresult
    refine respects_call rfl ?_ fun _ _ _ => trivial
    cases result with
    | ok | error => exact hresult

/-! ## Where files are -/

/-- The places a file can be found at. -/
inductive Place where
  | target
  | temporary (op : Replacement)
  | elsewhere
  deriving DecidableEq

namespace Directory

def At (directory : Directory) (file : FileId) : Place → Prop
  | .target => directory.target = some file
  | .temporary op => directory.temporary op = some file
  | .elsewhere => file ∈ directory.elsewhere

/-- No file is at two places, and every one has been created. -/
structure WellFormed (directory : Directory) : Prop where
  one_place : ∀ file place place', directory.At file place → directory.At file place' →
    place = place'
  nodup : directory.elsewhere.Nodup
  created : ∀ file place, directory.At file place → file < directory.next_file

variable {directory directory' : Directory}

/-- Some files have moved, each to one place, and the others have stayed or gone. -/
theorem WellFormed.moved (h : directory.WellFormed) (moved : FileId → Option Place)
    (hat : ∀ file place, directory'.At file place → moved file = some place ∨
      (moved file = none ∧ directory.At file place))
    (hcreated : ∀ file place, moved file = some place → file < directory'.next_file)
    (hnodup : directory'.elsewhere.Nodup) (hnext : directory.next_file ≤ directory'.next_file) :
    directory'.WellFormed := by
  refine ⟨fun file place place' h₁ h₂ => ?_, hnodup, fun file place h₁ => ?_⟩
  · rcases hat file place h₁ with hm | ⟨hm, h₁⟩
    · rcases hat file place' h₂ with hm' | ⟨hm', -⟩
      · exact Option.some.inj (hm.symm.trans hm')
      · rw [hm] at hm'
        cases hm'
    · rcases hat file place' h₂ with hm' | ⟨-, h₂⟩
      · rw [hm] at hm'
        cases hm'
      · exact h.one_place file place place' h₁ h₂
  · rcases hat file place h₁ with hm | ⟨-, h₁⟩
    · exact hcreated file place hm
    · exact Nat.lt_of_lt_of_le (h.created file place h₁) hnext

theorem WellFormed.stayed (h : directory.WellFormed)
    (hat : ∀ file place, directory'.At file place → directory.At file place)
    (helsewhere : directory'.elsewhere = directory.elsewhere)
    (hnext : directory'.next_file = directory.next_file) : directory'.WellFormed :=
  h.moved (fun _ => none) (fun file place h => .inr ⟨rfl, hat file place h⟩)
    (fun _ _ h => nomatch h) (helsewhere ▸ h.nodup) (Nat.le_of_eq hnext.symm)

theorem WellFormed.arrived (h : directory.WellFormed) (file : FileId) (place : Place)
    (hat : ∀ f q, directory'.At f q → (f = file ∧ q = place) ∨ (f ≠ file ∧ directory.At f q))
    (hcreated : file < directory'.next_file) (hnodup : directory'.elsewhere.Nodup)
    (hnext : directory.next_file ≤ directory'.next_file) : directory'.WellFormed := by
  refine h.moved (fun f => if f = file then some place else none) (fun f q hf => ?_)
    (fun f q hf => ?_) hnodup hnext
  · rcases hat f q hf with ⟨rfl, rfl⟩ | ⟨hne, hf⟩
    · exact .inl (if_pos rfl)
    · exact .inr ⟨if_neg hne, hf⟩
  · split at hf
    · next heq => exact heq ▸ hcreated
    · cases hf

end Directory

/-! ### What a call does -/

/-- What an answer says about a directory that stays as it is. -/
def Observed (directory : Directory) : (call : FileCall) → Except IoError call.Reply → Prop
  | .open_temporary _, .ok _ => False
  | .write_all _ _, .ok _ => False
  | .exchange _, .ok _ => False
  | .rename_noreplace _, .ok _ => False
  | .unlink_temporary _, .ok _ => False
  | .verify_target name expected, .ok file =>
    directory.lookup name = some file ∧ directory.content file = some expected
  | .path_matches_file name file, .ok matched => matched = (directory.lookup name == some file)
  | _, _ => True

inductive Effect (directory : Directory) :
    (call : FileCall) → Except IoError call.Reply → Directory → Prop where
  | quiet {call : FileCall} {reply : Except IoError call.Reply}
      (observed : Observed directory call reply) : Effect directory call reply directory
  | opened {op : Replacement} (free : directory.temporary op = none) :
      Effect directory (.open_temporary op) (.ok directory.next_file)
        ((directory.create (some [])).set_temporary op (some directory.next_file))
  | wrote {file : FileId} {content written : Bytes} {reply : Except IoError Unit}
      (whole : reply = .ok () → written = content) :
      Effect directory (.write_all file content) reply
        (directory.set_content file (some written))
  | exchanged {op : Replacement} {temporary target : FileId}
      (at_temporary : directory.temporary op = some temporary)
      (at_target : directory.target = some target) :
      Effect directory (.exchange op) (.ok ())
        { directory.set_temporary op (some target) with target := some temporary }
  | renamed {op : Replacement} {temporary : FileId}
      (at_temporary : directory.temporary op = some temporary)
      (free : directory.target = none) :
      Effect directory (.rename_noreplace op) (.ok ())
        { directory.set_temporary op none with target := some temporary }
  | unlinked {op : Replacement} {file : FileId}
      (at_temporary : directory.temporary op = some file) :
      Effect directory (.unlink_temporary op) (.ok ()) (directory.set_temporary op none)

theorem perform_effect (directory : Directory) (call : FileCall) :
    Effect directory call (directory.perform call).2 (directory.perform call).1 := by
  cases call with
  | open_temporary op =>
    simp only [Directory.perform]
    split
    · exact .quiet trivial
    · next free => exact .opened free
  | write_all => exact .wrote fun _ => rfl
  | verify_target name expected =>
    simp only [Directory.perform]
    split
    · exact .quiet trivial
    rename_i file hfile
    split
    · exact .quiet trivial
    · next content hcontent =>
      split
      · next heq => exact .quiet ⟨hfile, heq ▸ hcontent⟩
      · exact .quiet trivial
  | exchange op =>
    simp only [Directory.perform, Directory.exchange]
    cases htemporary : directory.temporary op with
    | none => exact .quiet trivial
    | some =>
      cases htarget : directory.target with
      | none => exact .quiet trivial
      | some target => exact .exchanged htemporary htarget
  | rename_noreplace op =>
    simp only [Directory.perform, Directory.rename_noreplace]
    cases htemporary : directory.temporary op with
    | none => exact .quiet trivial
    | some =>
      cases htarget : directory.target with
      | none => exact .renamed htemporary htarget
      | some target => exact .quiet trivial
  | path_matches_file => exact .quiet rfl
  | unlink_temporary op =>
    simp only [Directory.perform]
    split
    · next file hfile => exact .unlinked hfile
    · exact .quiet trivial
  | _ => exact .quiet trivial

theorem exec_effect (directory : Directory) (choice : FileChoice) (call : FileCall) :
    Effect directory call (directory.exec choice call).2 (directory.exec choice call).1 := by
  have hfail : ∀ (call : FileCall) (error : IoError),
      Effect directory call (.error error) directory := by
    intro call error
    refine .quiet ?_
    cases call <;> trivial
  have hperform := perform_effect directory call
  cases choice with
  | succeed => cases call <;> exact hperform
  | fail error =>
    cases call with
    | acknowledge result => exact hperform
    | _ => exact hfail _ error
  | write_some written error =>
    cases call with
    | acknowledge result => exact hperform
    | write_all => exact .wrote fun h => nomatch h
    | _ => exact hfail _ error

theorem effect_of_exec {directory directory' : Directory} {choice : FileChoice} {call : FileCall}
    {reply : Except IoError call.Reply} (h : directory.exec choice call = (directory', reply)) :
    Effect directory call reply directory' := by
  have := exec_effect directory choice call
  rwa [h] at this

namespace Directory

variable {directory directory' : Directory}

@[simp] theorem temporary_set_temporary (op op' : Replacement) (file : Option FileId) :
    (directory.set_temporary op file).temporary op'
      = if op' = op then file else directory.temporary op' := by
  simp [set_temporary, Function.update_apply]

section

variable (h : directory.WellFormed)

include h

theorem WellFormed.swapped {file file' : FileId} {place place' : Place}
    (hfile : directory.At file place) (hfile' : directory.At file' place')
    (hat : ∀ f q, directory'.At f q → (f = file ∧ q = place') ∨ (f = file' ∧ q = place) ∨
      (f ≠ file ∧ f ≠ file' ∧ directory.At f q))
    (hnodup : directory'.elsewhere.Nodup) (hnext : directory'.next_file = directory.next_file)
    (hne : file ≠ file') : directory'.WellFormed := by
  refine h.moved (fun f => if f = file then some place' else if f = file' then some place else none)
    (fun f q hf => ?_) (fun f q hf => ?_) hnodup (Nat.le_of_eq hnext.symm)
  · rcases hat f q hf with ⟨rfl, rfl⟩ | ⟨rfl, rfl⟩ | ⟨h₁, h₂, hf⟩
    · exact .inl (if_pos rfl)
    · exact .inl (by simp [hne.symm])
    · exact .inr ⟨by simp [h₁, h₂], hf⟩
  · rw [hnext]
    split at hf
    · next heq => exact heq ▸ h.created file place hfile
    · split at hf
      · next heq => exact heq ▸ h.created file' place' hfile'
      · cases hf

theorem WellFormed.ne {file f : FileId} {p q : Place} (hfile : directory.At file p)
    (hf : directory.At f q) (hne : q ≠ p) : f ≠ file := by
  rintro rfl
  exact hne (h.one_place f q p hf hfile)

theorem WellFormed.effect {call : FileCall} {reply : Except IoError call.Reply}
    (heffect : Effect directory call reply directory') : directory'.WellFormed := by
  cases heffect with
  | quiet _ => exact h
  | @opened op free =>
    have hnew : ∀ f q, directory.At f q → f ≠ directory.next_file := fun f q hf =>
      Nat.ne_of_lt (h.created f q hf)
    refine h.arrived directory.next_file (.temporary op) (fun f q hf => ?_) (Nat.lt_succ_self _)
      h.nodup (Nat.le_succ _)
    cases q with
    | target => exact .inr ⟨hnew f .target hf, hf⟩
    | elsewhere => exact .inr ⟨hnew f .elsewhere hf, hf⟩
    | temporary op' =>
      simp only [At, temporary_set_temporary] at hf
      split at hf
      · next heq => exact .inl ⟨(Option.some.inj hf).symm, by rw [heq]⟩
      · exact .inr ⟨hnew f (.temporary op') hf, hf⟩
  | wrote _ => exact h.stayed (fun f q hf => by cases q <;> exact hf) rfl rfl
  | @exchanged op temporary target at_temporary at_target =>
    have h₁ : directory.At temporary (.temporary op) := at_temporary
    have h₂ : directory.At target .target := at_target
    refine h.swapped h₁ h₂ (fun f q hf => ?_) h.nodup rfl (h.ne h₂ h₁ (by simp))
    cases q with
    | target => exact .inl ⟨(Option.some.inj hf).symm, rfl⟩
    | elsewhere =>
      have hf : directory.At f .elsewhere := hf
      exact .inr (.inr ⟨h.ne h₁ hf (by simp), h.ne h₂ hf (by simp), hf⟩)
    | temporary op' =>
      simp only [At, temporary_set_temporary] at hf
      split at hf
      · next heq => exact .inr (.inl ⟨(Option.some.inj hf).symm, by rw [heq]⟩)
      · next hop =>
        have hf : directory.At f (.temporary op') := hf
        exact .inr (.inr ⟨h.ne h₁ hf (by simpa using hop), h.ne h₂ hf (by simp), hf⟩)
  | @renamed op temporary at_temporary free =>
    have h₁ : directory.At temporary (.temporary op) := at_temporary
    refine h.arrived temporary .target (fun f q hf => ?_) (h.created _ _ h₁) h.nodup (Nat.le_refl _)
    cases q with
    | target => exact .inl ⟨(Option.some.inj hf).symm, rfl⟩
    | elsewhere =>
      have hf : directory.At f .elsewhere := hf
      exact .inr ⟨h.ne h₁ hf (by simp), hf⟩
    | temporary op' =>
      simp only [At, temporary_set_temporary] at hf
      split at hf
      · cases hf
      · next hop =>
        have hf : directory.At f (.temporary op') := hf
        exact .inr ⟨h.ne h₁ hf (by simpa using hop), hf⟩
  | @unlinked op file at_temporary =>
    refine h.stayed (fun f q hf => ?_) rfl rfl
    cases q with
    | target | elsewhere => exact hf
    | temporary op' =>
      simp only [At, temporary_set_temporary] at hf
      split at hf
      · cases hf
      · exact hf

/-- Other writers keep files apart, and leave temporary names and files alone. -/
theorem WellFormed.other {move : WriterMove} (hmove : directory.other move = some directory') :
    directory'.WellFormed ∧ directory'.temporary = directory.temporary ∧
      ∀ file, file < directory.next_file → directory'.content file = directory.content file := by
  cases move with
  | prepare =>
    cases hmove
    have hnew : ∀ f q, directory.At f q → f ≠ directory.next_file := fun f q hf =>
      Nat.ne_of_lt (h.created f q hf)
    refine ⟨h.arrived directory.next_file .elsewhere (fun f q hf => ?_) (Nat.lt_succ_self _)
      (List.nodup_cons.mpr ⟨fun hmem => hnew _ .elsewhere hmem rfl, h.nodup⟩) (Nat.le_succ _),
      rfl, fun file hlt => Function.update_of_ne (Nat.ne_of_lt hlt) _ _⟩
    cases q with
    | target => exact .inr ⟨hnew f .target hf, hf⟩
    | temporary op => exact .inr ⟨hnew f (.temporary op) hf, hf⟩
    | elsewhere =>
      rcases List.mem_cons.mp hf with rfl | hmem
      · exact .inl ⟨rfl, rfl⟩
      · exact .inr ⟨hnew f .elsewhere hmem, hmem⟩
  | rename file =>
    simp only [Directory.other] at hmove
    split at hmove
    · next hmem =>
      cases hmove
      have h₁ : directory.At file .elsewhere := hmem
      refine ⟨h.arrived file .target (fun f q hf => ?_) (h.created _ _ h₁) (h.nodup.erase _)
        (Nat.le_refl _), rfl, fun _ _ => rfl⟩
      cases q with
      | target => exact .inl ⟨(Option.some.inj hf).symm, rfl⟩
      | temporary op =>
        have hf : directory.At f (.temporary op) := hf
        exact .inr ⟨h.ne h₁ hf (by simp), hf⟩
      | elsewhere => exact .inr (h.nodup.mem_erase_iff.mp hf)
    · cases hmove
  | exchange file =>
    simp only [Directory.other] at hmove
    split at hmove
    · cases hmove
    rename_i target htarget
    split at hmove
    · next hmem =>
      cases hmove
      have h₁ : directory.At file .elsewhere := hmem
      have h₂ : directory.At target .target := htarget
      have hnot : target ∉ directory.elsewhere.erase file := fun hmem' =>
        h.ne (q := .elsewhere) h₂ (List.mem_of_mem_erase hmem') (by simp) rfl
      refine ⟨h.swapped h₁ h₂ (fun f q hf => ?_)
        (List.nodup_cons.mpr ⟨hnot, h.nodup.erase _⟩) rfl (h.ne h₂ h₁ (by simp)), rfl,
        fun _ _ => rfl⟩
      cases q with
      | target => exact .inl ⟨(Option.some.inj hf).symm, rfl⟩
      | temporary op =>
        have hf : directory.At f (.temporary op) := hf
        exact .inr (.inr ⟨h.ne h₁ hf (by simp), h.ne h₂ hf (by simp), hf⟩)
      | elsewhere =>
        rcases List.mem_cons.mp hf with rfl | hf
        · exact .inr (.inl ⟨rfl, rfl⟩)
        · obtain ⟨hne, hf⟩ := h.nodup.mem_erase_iff.mp hf
          exact .inr (.inr ⟨hne, h.ne h₂ (q := .elsewhere) hf (by simp), hf⟩)
    · cases hmove
  | unlink =>
    simp only [Directory.other] at hmove
    split at hmove
    · cases hmove
    cases hmove
    refine ⟨h.stayed (fun f q hf => ?_) rfl rfl, rfl, fun _ _ => rfl⟩
    cases q with
    | target => cases hf
    | _ => exact hf

end

end Directory

end Agentty.Harness
