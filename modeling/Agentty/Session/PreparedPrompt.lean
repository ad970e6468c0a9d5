/-
What becomes of a saved prompt.

The transaction of the worker is the only step that may take the prompt: it starts the
operation, writes the transcript and clears the prompt at once. So an operation that has
started has no saved prompt, and the other way round. The recovery of the foreground reads
the row of the operation alone, and takes every row that is not queued and not an unstarted
failure for a prompt that was accepted. A row that was canceled before its start is such a
row, though the worker never began the prompt: a retired worker leaves one, and so does a
cancellation that the worker meets first. Where the recovery meets no such row the prompt is
kept until it is begun.

The invariant follows the parties: at most one command is under way, it stands where its
operation and the saved prompt say, and the foreground and the preparation task exclude each
other from the state of the preparation.
-/
import Agentty.System
import Agentty.Session.Preparation

set_option autoImplicit false

namespace Agentty.Session.Preparation

open List

open Worker.Operations (Status Outcome Pc)

variable {P M : Type}

/-! ## What the log says -/

def begun : List Event → Option Nat
  | [] => none
  | .begun number :: _ => some number
  | _ :: log => begun log

def executed : List Event → Option Nat
  | [] => none
  | .executed number :: _ => some number
  | _ :: log => executed log

/-- What an event says about the events before it. -/
def Justified (event : Event) (older : List Event) : Prop :=
  match event with
  | .begun _ => begun older = none
  | .executed number => begun older = some number ∧ executed older = none
  | .recorded number | .cleared number => begun older = some number

/-! ## The invariant -/

def State.state (s : State P M) : Option SessionPreparationState :=
  s.preparation.map SessionPreparationRow.state

def State.status (s : State P M) : Option Status := s.operation.map Operation.status

def State.started (s : State P M) : Bool := s.operation.any Operation.started

/-- The task may still write the state of the preparation. -/
def Task.active : Option Task → Bool
  | some .load | some .working => true
  | _ => false

/-- The workspace was ready, and only a cancellation has changed that. -/
def Ready (s : State P M) : Prop := s.state = some .ready ∨ s.state = some .canceled

/-- What holds of the command at its point. -/
def CommandInv (s : State P M) (c : Command P) : Prop :=
  match c.pc with
  | .pending | .first_unfinished | .first_cancel | .first_mark | .begin_preparation =>
    begun s.log = none ∧ s.saved = some (c.number, c.prompt) ∧ Ready s ∧
      (s.status = some .queued ∨
        (s.status = none ∧ s.app = .insert ∧ c.pc = .pending ∧ c.gated = true))
  | .last_unfinished | .last_cancel | .last_mark | .start =>
    begun s.log = some c.number ∧ executed s.log = none ∧ s.status = some .running
  | .body | .terminal _ => begun s.log = some c.number ∧ s.status = some .running
  | .unsent | .mark_running | .finished => False

/-- No command was begun, and none is under way. -/
def Untouched (s : State P M) : Prop := begun s.log = none ∧ s.commands = []

/-- The prompt that the foreground has loaded is the saved one, or was begun since. -/
def Loaded (s : State P M) (number : Nat) (prompt : P) : Prop :=
  Task.active s.task = false ∧ Ready s ∧
    match begun s.log with
    | none => s.saved = some (number, prompt)
    | some n => n = number

/-- The prompt that the foreground hands over is the saved one, and was not handed over. -/
def Unaccepted (s : State P M) (number : Nat) (prompt : P) : Prop :=
  Task.active s.task = false ∧ Ready s ∧ Untouched s ∧ s.saved = some (number, prompt)

/-- What holds at the next step of the foreground. -/
def AppInv (s : State P M) : Prop :=
  match s.app with
  | .idle | .refresh _ | .load | .release => True
  | .save _ _ => Untouched s
  | .retry => Untouched s ∨ s.state = some .canceled ∨ s.pending = true
  | .prepare => (Untouched s ∨ s.state = some .canceled) ∧ s.pending = false
  | .reclaim number prompt => Loaded s number prompt
  | .status number prompt =>
    Loaded s number prompt ∧ (s.started = false → s.status ≠ some .failed)
  | .messages number _ | .append number _ => begun s.log = some number
  | .clear => begun s.log ≠ none
  | .start number prompt | .worktree_ready number prompt | .has_saved_prompt number prompt
  | .submit_gated number prompt | .claim number prompt =>
    Unaccepted s number prompt ∧ s.operation = none
  | .insert => Task.active s.task = false ∧ Ready s ∧ begun s.log = none ∧ s.operation = none
  | .submit number prompt =>
    Unaccepted s number prompt ∧ (s.status = some .queued)
  | .fail => Task.active s.task = false ∧ Untouched s

structure Inv (s : State P M) : Prop where
  trace : Every Justified s.log
  settled : begun s.log ≠ none →
    s.saved = none ∧ Ready s ∧ s.started = true ∧ s.status ≠ some .queued
  unsettled : begun s.log = none → executed s.log = none ∧ s.started = false
  unstarted : s.started = false → s.status ≠ some .running ∧ s.status ≠ some .done
  single : s.commands.length ≤ 1
  command : ∀ c ∈ s.commands, CommandInv s c
  app : AppInv s
  task : Task.active s.task = true →
    Untouched s ∧ (s.state = some .preparing ∨ s.state = some .canceled)
  pending : s.pending = s.task.isSome
  shown : s.shown = true → (∃ dispatch, s.app = .refresh dispatch) ∨ s.pending = true ∨
    s.state = some .preparing ∨ s.state = some .failed ∨ s.state = some .canceled
  stopped : s.phase ≠ .running →
    s.app = .idle ∧ s.commands = [] ∧ s.task = none ∧ s.shown = false

theorem inv_new (user_prompts : List M) : Inv (State.new user_prompts : State P M) := by
  constructor <;> simp [State.new, Every, begun, executed, State.started, State.status, AppInv,
    Task.active]

/-- A canceled operation that never started is not taken for an accepted prompt. -/
def NotCanceledUnstarted (s : State P M) (l : Label P) : Prop :=
  ∀ choice number prompt, l = .foreground choice → s.app = .status number prompt →
    s.status = some .canceled → s.started = true

attribute [grind =] State.state State.saved State.status State.started Task.active CommandInv AppInv
attribute [grind =] Ready Untouched Loaded Unaccepted
attribute [grind =] begun executed Justified Every

/-! ## Moves of the foreground

What a step leaves as it is, `hs` says of the new state too; only the other parts of the
invariant are named and proved. -/

variable {s : State P M}

theorem Inv.running (hs : Inv s) (h : s.app ≠ .idle) : s.phase = .running := by
  by_contra hphase
  exact h (hs.stopped hphase).1

theorem Inv.app_to (hs : Inv s) {app : App P} (hphase : s.phase = .running)
    (hinsert : s.app ≠ .insert) (hrefresh : ∀ dispatch, s.app ≠ .refresh dispatch)
    (happ : AppInv { s with app }) : Inv { s with app } := by
  refine ⟨hs.trace, hs.settled, hs.unsettled, hs.unstarted, hs.single, ?_, happ, hs.task,
    hs.pending, ?_, fun hstopped => absurd hphase hstopped⟩
  · intro c hc
    have hcommand := hs.command c hc
    grind -linarith
  · intro hshown
    rcases hs.shown hshown with ⟨dispatch, hat⟩ | hrest
    · exact absurd hat (hrefresh dispatch)
    · exact .inr hrest

theorem Inv.step_to (hs : Inv s) {here app : App P} (hat : s.app = here)
    (hhere : here ≠ .idle ∧ here ≠ .insert ∧ ∀ dispatch, here ≠ .refresh dispatch)
    (happ : AppInv { s with app }) : Inv { s with app } := by
  subst hat
  exact hs.app_to (hs.running hhere.1) hhere.2.1 hhere.2.2 happ

/-- A preparation that is not ready was not begun, and has no command. -/
theorem Inv.untouched (hs : Inv s) (h : ¬ Ready s) : Untouched s := by
  have hbegun : begun s.log = none := by
    by_contra hne
    exact h (hs.settled hne).2.1
  refine ⟨hbegun, ?_⟩
  by_contra hne
  obtain ⟨c, hc⟩ := exists_mem_of_ne_nil _ hne
  have hcommand := hs.command c hc
  grind -linarith

variable {prompt : P}

/-- A prompt whose operation is not there was not handed over. -/
theorem Inv.unaccepted (hs : Inv s) {number : Nat} (hloaded : Loaded s number prompt)
    (hnone : s.operation = none) (hinsert : s.app ≠ .insert) : Unaccepted s number prompt := by
  obtain ⟨htask, hready, hsaved⟩ := hloaded
  have hbegun : begun s.log = none := by
    by_contra hne
    have hstarted := (hs.settled hne).2.2.1
    simp [State.started, hnone] at hstarted
  have hcommands : s.commands = [] := by
    by_contra hne
    obtain ⟨c, hc⟩ := exists_mem_of_ne_nil _ hne
    have hcommand := hs.command c hc
    grind -linarith
  rw [hbegun] at hsaved
  exact ⟨htask, hready, ⟨hbegun, hcommands⟩, hsaved⟩

variable [DecidableEq M] {s' : State P M}

theorem Inv.foreground_step {texts : Texts P M} {choice : Choice} (hs : Inv s)
    (hk : NotCanceledUnstarted s (.foreground choice)) (h : foreground texts s choice = some s') :
    Inv s' := by
  have happ := hs.app
  cases hat : s.app <;> simp only [foreground, AppInv, hat] at h happ
  case idle => cases h
  case save prompt retry =>
    split at h
    · next row hrow =>
      obtain ⟨old, hold, hsave⟩ := Option.bind_eq_some_iff.mp hrow
      unfold save_preparation_prompt at hsave
      obtain ⟨⟨hnone, hcanceled⟩, ⟨⟩⟩ := Option.ite_none_right_eq_some.mp hsave
      cases h
      refine { hs with
        settled := ?_, command := ?_, app := ?_, task := ?_, shown := ?_, stopped := ?_ }
      all_goals cases hs
      all_goals grind -linarith
    · cases h
      exact hs.step_to hat (by simp) trivial
  case retry =>
    split at h
    · cases h
      exact hs.step_to hat (by simp) trivial
    rename_i hcommands
    cases h
    refine hs.step_to hat (by simp) ?_
    split
    · trivial
    · grind -linarith
  case prepare =>
    split at h
    · next hany =>
      obtain ⟨row, hrow, hcanceled⟩ := (Option.any_eq_true _ _).mp hany
      cases h
      refine { hs with
        settled := ?_, command := ?_, app := ?_, task := ?_, pending := ?_, shown := ?_,
        stopped := ?_ }
      all_goals cases hs
      all_goals grind -linarith [update_session_preparation]
    · cases h
      exact hs.step_to hat (by simp) trivial
  case refresh dispatch =>
    cases h
    refine { hs with command := ?_, app := ?_, shown := ?_, stopped := ?_ }
    all_goals cases hs
    all_goals cases hrow : s.preparation
    all_goals grind -linarith [workspace_preparation_shown]
  case load =>
    cases h
    refine hs.step_to hat (by simp) ?_
    unfold load_prepared_prompt
    split
    · next number prompt hrow =>
      have := hs.settled
      have := hs.task
      grind -linarith
    · trivial
  case reclaim number prompt =>
    cases h
    unfold reclaim_preparation_prompt_operation
    refine { hs with
      settled := ?_, unsettled := ?_, unstarted := ?_, command := ?_, app := ?_, shown := ?_,
      stopped := ?_ }
    all_goals cases hs
    all_goals cases hop : s.operation
    all_goals grind -linarith
  case status number prompt =>
    have hcanceled := hk choice number prompt rfl hat
    have hto : ∀ app : App P, AppInv { s with app } → Inv { s with app } :=
      fun app => hs.step_to hat (by simp)
    split at h
    · next hstatus =>
      cases h
      have hnone : s.operation = none := by
        cases hop : s.operation <;> grind -linarith [preparation_prompt_operation_status]
      exact hto _ ⟨hs.unaccepted happ.1 hnone (by simp [hat]), hnone⟩
    · cases h
      exact hto _ trivial
    · next status hne hstatus =>
      cases h
      refine hto _ ?_
      have := hs.unsettled
      have := hs.unstarted
      have : s.status = some status ∧ s.started = true := by
        cases hop : s.operation <;> cases status <;> grind -linarith
          [preparation_prompt_operation_status]
      grind -linarith
  case append | release =>
    cases h
    refine { hs with
      trace := ?_, single := ?_, command := ?_, app := ?_, task := ?_, shown := ?_, stopped := ?_ }
    all_goals cases hs
    all_goals grind -linarith
  case clear =>
    have hsaved := (hs.settled happ).1
    simp only [hsaved, Option.map_none, Option.toList_none, nil_append] at h
    cases h
    refine { hs with
      settled := ?_, command := ?_, app := ?_, task := ?_, shown := ?_, stopped := ?_ }
    all_goals cases hs
    all_goals cases hrow : s.preparation
    all_goals grind -linarith
  case messages | start | worktree_ready =>
    split at h
    all_goals
      cases h
      exact hs.step_to hat (by simp) (by grind -linarith)
  case has_saved_prompt number prompt =>
    rw [if_pos (by rw [happ.1.2.2.2]; rfl)] at h
    cases h
    exact hs.step_to hat (by simp) happ
  case submit_gated number prompt =>
    split at h
    · cases h
      refine { hs with
        single := ?_, command := ?_, app := ?_, task := ?_, shown := ?_, stopped := ?_ }
      all_goals cases hs
      all_goals grind -linarith
    · cases h
      exact hs.step_to hat (by simp)
        ⟨happ.1.1, happ.1.2.2.1⟩
  case insert =>
    obtain ⟨htask', hready, hbegun, hnone⟩ := happ
    simp only [hnone] at h
    cases h
    refine { hs with
      settled := ?_, unsettled := ?_, unstarted := ?_, command := ?_, app := ?_, shown := ?_,
      stopped := ?_ }
    all_goals cases hs
    all_goals grind -linarith [Operation.queued]
  case claim number prompt =>
    simp only [happ.2, claim_session_operation] at h
    cases h
    refine { hs with
      settled := ?_, unsettled := ?_, unstarted := ?_, command := ?_, app := ?_, shown := ?_,
      stopped := ?_ }
    all_goals cases hs
    all_goals grind -linarith [Operation.queued]
  case submit number prompt =>
    split at h
    · cases h
      refine { hs with
        single := ?_, command := ?_, app := ?_, task := ?_, shown := ?_, stopped := ?_ }
      all_goals cases hs
      all_goals grind -linarith
    · cases h
      refine { hs with
        settled := ?_, unsettled := ?_, unstarted := ?_, command := ?_, app := ?_, shown := ?_,
        stopped := ?_ }
      all_goals cases hs
      all_goals cases hop : s.operation
      all_goals grind -linarith [mark_session_operation_failed]
  case fail =>
    cases h
    refine { hs with
      settled := ?_, command := ?_, app := ?_, task := ?_, shown := ?_, stopped := ?_ }
    all_goals cases hs
    all_goals cases hop : s.preparation
    all_goals grind -linarith [update_session_preparation]

/-! ## Moves of the worker -/

section Moves

omit [DecidableEq M]

variable {c : Command P}

theorem Inv.commands_eq (hs : Inv s) {i : Nat} (h : s.commands[i]? = some c) :
    i = 0 ∧ s.commands = [c] := by
  have hsingle := hs.single
  match hcommands : s.commands with
  | [] => simp [hcommands] at h
  | [d] =>
    rw [hcommands] at h
    cases i with
    | zero => exact ⟨rfl, congrArg (fun x => [x]) (Option.some.inj h)⟩
    | succ n => simp at h
  | d :: e :: rest => simp [hcommands] at hsingle

theorem Inv.goto (hs : Inv s) (hcommands : s.commands = [c]) {pc : Pc}
    (hpc : CommandInv s { c with pc }) : Inv (s.goto 0 c pc) := by
  simp only [State.goto, hcommands, set_cons_zero]
  refine ⟨hs.trace, hs.settled, hs.unsettled, hs.unstarted, Nat.le_refl 1, ?_, ?_, ?_, hs.pending,
    hs.shown, ?_⟩
  · intro d hd
    obtain rfl := mem_singleton.mp hd
    exact hpc
  · have happ := hs.app
    grind -linarith
  · have htask := hs.task
    grind -linarith
  · have hstopped := hs.stopped
    grind -linarith

theorem Inv.finish (hs : Inv s) (hcommands : s.commands = [c]) (f : Operation → Operation)
    (hf : ∀ row, s.operation = some row → f row = row ∨
      ((f row).started = row.started ∧ (f row).status.unfinished = false ∧
        (row.started = false → (f row).status = .canceled))) :
    Inv (s.mark 0 f) := by
  have hnonempty : s.commands ≠ [] := by simp [hcommands]
  simp only [State.mark, State.finish, hcommands, eraseIdx_cons_zero]
  cases hop : s.operation with
  | none =>
    refine { hs with
      settled := ?_, unsettled := ?_, unstarted := ?_, single := ?_, command := ?_, app := ?_,
      task := ?_, stopped := ?_ }
    all_goals cases hs
    all_goals grind -linarith
  | some row =>
    have hrow := hf row hop
    refine { hs with
      settled := ?_, unsettled := ?_, unstarted := ?_, single := ?_, command := ?_, app := ?_,
      task := ?_, stopped := ?_ }
    all_goals cases hs
    all_goals grind -linarith [Status.unfinished]

end Moves

variable {texts : Texts P M}

/-- What the transaction that starts a prompt does. -/
theorem begin_eq_some (h : begin_preparation_prompt_operation texts s prompt = some s') :
    ∃ operation row saved, s.operation = some operation ∧ s.preparation = some row ∧
      row.prompt = some saved ∧ operation.status = .queued ∧ row.state = .ready ∧
      texts.stored_message_content (texts.transcript_text prompt) ∈ s'.user_prompts ∧
      s' = { s with
        operation := some { operation with status := .running, started := true }
        user_prompts := s'.user_prompts
        preparation := some { row with prompt := none }
        log := .begun saved.1 :: s.log } := by
  unfold begin_preparation_prompt_operation at h
  split at h
  · next operation row hoperation hrow =>
    obtain ⟨⟨hqueued, -, hready⟩, h⟩ := Option.ite_none_right_eq_some.mp h
    obtain ⟨saved, hsaved, rfl⟩ := Option.map_eq_some_iff.mp h
    refine ⟨operation, row, saved, hoperation, hrow, hsaved, hqueued, hready, ?_, rfl⟩
    dsimp only
    split
    · next hrecorded => exact hrecorded.2
    · simp
  · cases h

variable {c : Command P}

theorem Inv.begin_step {begun : State P M} (hs : Inv s) (hcommands : s.commands = [c])
    (hpc : c.pc = .begin_preparation)
    (h : begin_preparation_prompt_operation texts s c.prompt = some begun) :
    Inv (begun.goto 0 c .last_unfinished) := by
  obtain ⟨operation, row, saved, hoperation, hrow, hsaved, hqueued, hready, -, heq⟩ :=
    begin_eq_some h
  rw [heq]
  simp only [State.goto, hcommands, set_cons_zero]
  have hcommand := hs.command c (by simp [hcommands])
  simp only [CommandInv, hpc] at hcommand
  refine { hs with
    trace := ?_, settled := ?_, unsettled := ?_, unstarted := ?_, single := ?_, command := ?_,
    app := ?_, task := ?_, shown := ?_, stopped := ?_ }
  all_goals cases hs
  all_goals grind -linarith

variable {outcome : Outcome}

theorem Inv.process_step {i : Nat} (hs : Inv s) (hc : s.commands[i]? = some c)
    (h : process_session_command texts s i c outcome = some s') : Inv s' := by
  obtain ⟨rfl, hcommands⟩ := hs.commands_eq hc
  have hcommand := hs.command c (by simp [hcommands])
  have hfinish : Inv (s.finish 0) := by
    simpa [State.mark, State.finish] using hs.finish hcommands id fun _ _ => .inl rfl
  -- the command was begun, so that the operation is started
  have hstarted : begun s.log = some c.number →
      ∀ row, s.operation = some row → row.started = true := by
    intro hbegun row hrow
    have := (hs.settled (by simp [hbegun])).2.2.1
    grind -linarith
  cases hpc : c.pc <;> simp only [process_session_command, CommandInv, hpc] at h hcommand
  case pending => cases h
  case first_unfinished | last_unfinished =>
    split at h
    · cases h
      exact hs.goto hcommands (by grind -linarith)
    · cases h
      exact hfinish
  case first_cancel | last_cancel | body =>
    cases h
    exact hs.goto hcommands (by grind -linarith)
  case first_mark | last_mark =>
    cases h
    exact hs.finish hcommands _ fun row _ => .inr ⟨rfl, rfl, fun _ => rfl⟩
  case begin_preparation =>
    split at h
    · next begun hbegin =>
      cases h
      exact hs.begin_step hcommands hpc hbegin
    · cases h
      exact hfinish
  case start =>
    cases h
    simp only [State.goto, hcommands, set_cons_zero]
    refine { hs with
      trace := ?_, unsettled := ?_, single := ?_, command := ?_, app := ?_, task := ?_,
      stopped := ?_ }
    all_goals cases hs
    all_goals grind -linarith
  case terminal outcome =>
    have hstarted := hstarted hcommand.1
    cases outcome with
    | ok | failed =>
      cases h
      refine hs.finish hcommands _ fun row hrow => .inr ⟨rfl, ?_, by simp [hstarted row hrow]⟩
      grind -linarith [mark_session_operation_done, mark_session_operation_failed,
        Status.unfinished]
    | stopped =>
      cases h
      exact hs.finish hcommands _ fun row _ => .inr ⟨rfl, rfl, fun _ => rfl⟩

/-! ## Other steps, and runs -/

section Moves

omit [DecidableEq M]

/-- The preparation task writes the state only while nothing was begun. -/
theorem Inv.task_step {ok : Bool} (hs : Inv s) (h : prepare_reserved_session s ok = some s') :
    Inv s' := by
  unfold prepare_reserved_session at h
  split at h
  · split at h
    · cases h
      refine { hs with app := ?_, task := ?_, pending := ?_, stopped := ?_ }
      all_goals cases hs
      all_goals grind -linarith
    · cases h
      refine { hs with app := ?_, task := ?_, pending := ?_, stopped := ?_ }
      all_goals cases hs
      all_goals grind -linarith
  · cases h
    refine { hs with
      settled := ?_, command := ?_, app := ?_, task := ?_, pending := ?_, shown := ?_,
      stopped := ?_ }
    all_goals cases hs
    all_goals grind -linarith [update_session_preparation]
  · cases h

theorem Inv.reserve (hs : Inv s) (hphase : s.phase = .running) (hidle : s.app = .idle)
    (hnone : s.preparation = none) (spawn : Bool) :
    Inv { s with
      preparation := some ⟨.preparing, none⟩
      pending := if spawn then true else s.pending
      task := if spawn then some .load else s.task } := by
  have huntouched : Untouched s := hs.untouched (by simp [Ready, State.state, hnone])
  refine { hs with
    settled := ?_, command := ?_, app := ?_, task := ?_, pending := ?_, shown := ?_, stopped := ?_ }
  all_goals cases hs
  all_goals grind -linarith

theorem Inv.request_cancel (hs : Inv s) :
    Inv { s with operation := s.operation.map request_cancel_for_session_operations } := by
  have hstatus : (s.operation.map request_cancel_for_session_operations).map Operation.status =
      s.status := by
    rw [Option.map_map]
    refine congrArg (fun f => s.operation.map f) (funext fun row => ?_)
    simp only [Function.comp_apply, request_cancel_for_session_operations]
    split <;> rfl
  have hstarted : (s.operation.map request_cancel_for_session_operations).any Operation.started =
      s.started := by
    rw [Option.any_map]
    refine congrArg (fun f => s.operation.any f) (funext fun row => ?_)
    simp only [request_cancel_for_session_operations]
    split <;> rfl
  have hnone : s.operation.map request_cancel_for_session_operations = none ↔
      s.operation = none := Option.map_eq_none_iff
  generalize s.operation.map request_cancel_for_session_operations = operation at *
  refine { hs with settled := ?_, unsettled := ?_, unstarted := ?_, command := ?_, app := ?_ }
  all_goals cases hs
  all_goals grind -linarith

theorem Inv.cancel (hs : Inv s) :
    Inv { s with preparation := s.preparation.map cancel_session_preparation } := by
  have hsaved : (s.preparation.map cancel_session_preparation).bind SessionPreparationRow.prompt =
      s.saved := by
    rw [Option.bind_map]
    rfl
  have hstate : (s.preparation.map cancel_session_preparation).map SessionPreparationRow.state =
      s.state.map fun _ => .canceled := by
    simp only [State.state, Option.map_map]
    rfl
  generalize s.preparation.map cancel_session_preparation = preparation at *
  refine { hs with settled := ?_, command := ?_, app := ?_, task := ?_, shown := ?_ }
  all_goals cases hs
  all_goals grind -linarith

end Moves

variable [DecidableEq P]

omit [DecidableEq M] in
theorem Inv.queue_prompt (hs : Inv s) (hphase : s.phase = .running) (hidle : s.app = .idle)
    (prompt : P) {staged : Bool} (hstaged : staged → s.commands = []) :
    Inv (queue_preparation_prompt s prompt staged) := by
  have hto : ∀ app : App P, AppInv { s with app } → Inv { s with app } :=
    fun app => hs.app_to hphase (by simp [hidle]) (by simp [hidle])
  have huntouched := hs.untouched
  have hsettled := hs.settled
  unfold queue_preparation_prompt
  split
  · exact hs
  rename_i row hrow
  split
  · exact hs
  rename_i hcanceled
  split
  · exact hs
  rename_i hready
  dsimp only
  split
  · next saved hprompt =>
    split
    · refine hto _ ?_
      split
      · -- a saved prompt was not begun, and a failed preparation has no command
        grind -linarith
      · trivial
    · exact hs
  · next hprompt =>
    refine hto _ ?_
    grind -linarith

variable {l : Label P}

theorem Inv.running_step (hs : Inv s) (hk : NotCanceledUnstarted s l) (hphase : s.phase = .running)
    (h : running_step texts s l = some s') : Inv s' := by
  cases l with
  | crash | startup => cases h
  | reserve =>
    obtain ⟨⟨hidle, hnone⟩, ⟨⟩⟩ := Option.ite_none_right_eq_some.mp h
    exact hs.reserve hphase hidle (Option.isNone_iff_eq_none.mp hnone) true
  | insert =>
    obtain ⟨⟨hidle, hnone⟩, ⟨⟩⟩ := Option.ite_none_right_eq_some.mp h
    exact hs.reserve hphase hidle (Option.isNone_iff_eq_none.mp hnone) false
  | queue_preparation_prompt prompt staged =>
    obtain ⟨⟨hidle, hstaged⟩, ⟨⟩⟩ := Option.ite_none_right_eq_some.mp h
    exact hs.queue_prompt hphase hidle prompt hstaged
  | retry_workspace_preparation =>
    obtain ⟨⟨hidle, hshown⟩, ⟨⟩⟩ := Option.ite_none_right_eq_some.mp h
    refine hs.app_to hphase (by simp [hidle]) (by simp [hidle]) ?_
    have huntouched := hs.untouched
    have hstate := hs.shown hshown
    grind -linarith
  | complete_session_creation loaded =>
    simp only [Preparation.running_step] at h
    split at h
    · next ok htask =>
      obtain ⟨hidle, ⟨⟩⟩ := Option.ite_none_right_eq_some.mp h
      refine { hs with
        command := ?_, app := ?_, task := ?_, pending := ?_, shown := ?_, stopped := ?_ }
      all_goals cases hs
      all_goals grind -linarith
    · cases h
  | resume_ready_workspace_prompts =>
    obtain ⟨⟨hidle, -⟩, ⟨⟩⟩ := Option.ite_none_right_eq_some.mp h
    exact hs.app_to hphase (by simp [hidle]) (by simp [hidle]) trivial
  | reload =>
    obtain ⟨hidle, ⟨⟩⟩ := Option.ite_none_right_eq_some.mp h
    refine { hs with shown := ?_, stopped := ?_ }
    all_goals cases hs
    all_goals cases hrow : s.preparation
    all_goals grind -linarith [workspace_preparation_shown]
  | foreground choice => exact hs.foreground_step hk h
  | task ok => exact hs.task_step h
  | take i =>
    obtain ⟨c, hc, h⟩ := Option.bind_eq_some_iff.mp h
    obtain ⟨⟨hpc, hgated⟩, ⟨⟩⟩ := Option.ite_none_right_eq_some.mp h
    obtain ⟨rfl, hcommands⟩ := hs.commands_eq hc
    have hcommand := hs.command c (by simp [hcommands])
    exact hs.goto hcommands (by grind -linarith)
  | process =>
    obtain ⟨c, hc, h⟩ := Option.bind_eq_some_iff.mp h
    exact hs.process_step hc h
  | abandon i =>
    obtain ⟨c, hc, h⟩ := Option.bind_eq_some_iff.mp h
    obtain ⟨hpc, ⟨⟩⟩ := Option.ite_none_right_eq_some.mp h
    obtain ⟨rfl, hcommands⟩ := hs.commands_eq hc
    exact hs.finish hcommands _ fun row _ => .inr ⟨rfl, rfl, fun _ => rfl⟩
  | request_cancel =>
    obtain ⟨⟩ := h
    exact hs.request_cancel
  | cancel_session_preparation =>
    obtain ⟨⟩ := h
    exact hs.cancel

theorem step_inv (hs : Inv s) (hk : NotCanceledUnstarted s l) (h : step texts s l = some s') :
    Inv s' := by
  unfold step at h
  split at h
  · cases h
    refine { hs with
      single := ?_, command := ?_, app := ?_, task := ?_, pending := ?_, shown := ?_,
      stopped := ?_ }
    all_goals cases hs
    all_goals grind -linarith
  · next hphase =>
    cases h
    have hstopped := hs.stopped (by simp [hphase])
    refine { hs with
      settled := ?_, command := ?_, app := ?_, task := ?_, shown := ?_, stopped := ?_ }
    all_goals cases hs
    all_goals cases hrow : s.preparation
    all_goals grind -linarith [recover_session_preparations]
  · next hphase =>
    cases h
    have hstopped := hs.stopped (by simp [hphase])
    refine { hs with
      settled := ?_, unsettled := ?_, unstarted := ?_, command := ?_, app := ?_, stopped := ?_ }
    all_goals cases hs
    all_goals cases hop : s.operation
    all_goals grind -linarith [fail_unfinished_session_operations, Status.unfinished]
  · next hphase => exact hs.running_step hk hphase h
  · cases h

theorem Inv.of_reaches {user_prompts : List M}
    (h : Machine.Reaches (step texts) NotCanceledUnstarted (State.new user_prompts) s) : Inv s :=
  h.invariant Inv (inv_new user_prompts) fun _ _ _ hs hk hstep => step_inv hs hk hstep

/-! ## The saved prompt -/

section Saved

omit [DecidableEq P]

/-- The transaction that takes the prompt: the operation is started, the prompt is in the
transcript. -/
def Begins (texts : Texts P M) (s s' : State P M) (number : Nat) (prompt : P) : Prop :=
  s'.log = .begun number :: s.log ∧ s'.status = some .running ∧ s'.started = true ∧
    texts.stored_message_content (texts.transcript_text prompt) ∈ s'.user_prompts

omit [DecidableEq M] in
theorem saved_map (s : State P M) {f : SessionPreparationRow P → SessionPreparationRow P}
    (hf : ∀ row, (f row).prompt = row.prompt) :
    (s.preparation.map f).bind SessionPreparationRow.prompt = s.saved := by
  rw [Option.bind_map]
  exact congrArg _ (funext hf)

theorem update_session_preparation_prompt (state : SessionPreparationState)
    (row : SessionPreparationRow P) : (update_session_preparation state row).prompt
      = row.prompt := by
  unfold update_session_preparation
  split <;> rfl

theorem Inv.foreground_saved {choice : Choice} (hs : Inv s)
    (h : foreground texts s choice = some s') {saved : Nat × P} (hsaved : s.saved = some saved) :
    s'.saved = some saved := by
  have hbegun : begun s.log = none := by
    by_contra hne
    rw [(hs.settled hne).1] at hsaved
    cases hsaved
  have happ := hs.app
  cases hat : s.app <;> simp only [foreground, AppInv, hat] at h happ
  case idle => cases h
  case save prompt retry =>
    split at h
    · next row hrow =>
      -- a saved prompt is not overwritten
      obtain ⟨old, hold, hsave⟩ := Option.bind_eq_some_iff.mp hrow
      unfold save_preparation_prompt at hsave
      obtain ⟨⟨hnone, -⟩, ⟨⟩⟩ := Option.ite_none_right_eq_some.mp hsave
      simp only [State.saved, hold, Option.bind_some] at hsaved
      simp [hsaved] at hnone
    · cases h
      exact hsaved
  case prepare =>
    split at h
    · cases h
      exact (saved_map s (update_session_preparation_prompt _)).trans hsaved
    · cases h
      exact hsaved
  case fail =>
    cases h
    exact (saved_map s (update_session_preparation_prompt _)).trans hsaved
  case clear => exact absurd hbegun happ
  all_goals
    first
      | (cases h; exact hsaved)
      | (split at h <;> cases h <;> exact hsaved)

theorem Inv.process_saved {i : Nat} (hs : Inv s) (hc : s.commands[i]? = some c)
    (h : process_session_command texts s i c outcome = some s') {number : Nat}
    (hsaved : s.saved = some (number, prompt)) :
    s'.saved = some (number, prompt) ∨ Begins texts s s' number prompt := by
  obtain ⟨rfl, hcommands⟩ := hs.commands_eq hc
  have hcommand := hs.command c (by simp [hcommands])
  cases hpc : c.pc <;> simp only [process_session_command, CommandInv, hpc] at h hcommand
  case begin_preparation =>
    split at h
    · next begun hbegin =>
      cases h
      obtain ⟨operation, row, saved, -, hrow, hprompt, -, -, hrecorded, heq⟩ :=
        begin_eq_some hbegin
      -- the command carries the prompt that is saved
      rw [hsaved] at hcommand
      obtain ⟨rfl, rfl⟩ := Prod.mk.inj (Option.some.inj hcommand.2.1)
      simp only [State.saved, hrow, Option.bind_some, hprompt] at hsaved
      cases hsaved
      right
      rw [heq]
      exact ⟨rfl, rfl, rfl, hrecorded⟩
    · cases h
      exact .inl hsaved
  case first_unfinished | last_unfinished =>
    cases h
    left
    split <;> exact hsaved
  case terminal outcome => cases outcome <;> cases h <;> exact .inl hsaved
  all_goals
    cases h
    try exact .inl hsaved

end Saved

variable {number : Nat}

theorem Inv.running_saved (hs : Inv s) (h : Preparation.running_step texts s l = some s')
    (hsaved : s.saved = some (number, prompt)) :
    s'.saved = some (number, prompt) ∨
      ((∃ i outcome, l = .process i outcome) ∧ Begins texts s s' number prompt) := by
  have hsome : s.preparation.isNone = false := by
    cases hrow : s.preparation with
    | none => simp [State.saved, hrow] at hsaved
    | some row => rfl
  cases l with
  | crash | startup => cases h
  | reserve | insert =>
    obtain ⟨⟨-, hnone⟩, -⟩ := Option.ite_none_right_eq_some.mp h
    rw [hsome] at hnone
    cases hnone
  | queue_preparation_prompt =>
    obtain ⟨-, ⟨⟩⟩ := Option.ite_none_right_eq_some.mp h
    left
    unfold queue_preparation_prompt
    grind -linarith
  | retry_workspace_preparation | resume_ready_workspace_prompts | reload =>
    obtain ⟨-, ⟨⟩⟩ := Option.ite_none_right_eq_some.mp h
    exact .inl hsaved
  | complete_session_creation loaded =>
    simp only [Preparation.running_step] at h
    split at h
    · obtain ⟨-, ⟨⟩⟩ := Option.ite_none_right_eq_some.mp h
      exact .inl hsaved
    · cases h
  | foreground choice => exact .inl (hs.foreground_saved h hsaved)
  | task ok =>
    simp only [Preparation.running_step, prepare_reserved_session] at h
    left
    split at h
    · split at h <;> cases h <;> exact hsaved
    · cases h
      exact (saved_map s (update_session_preparation_prompt _)).trans hsaved
    · cases h
  | take | abandon =>
    obtain ⟨c, -, h⟩ := Option.bind_eq_some_iff.mp h
    obtain ⟨-, ⟨⟩⟩ := Option.ite_none_right_eq_some.mp h
    exact .inl hsaved
  | process i outcome =>
    obtain ⟨c, hc, h⟩ := Option.bind_eq_some_iff.mp h
    exact (hs.process_saved hc h hsaved).imp id fun hbegins => ⟨⟨i, outcome, rfl⟩, hbegins⟩
  | request_cancel =>
    obtain ⟨⟩ := h
    exact .inl hsaved
  | cancel_session_preparation =>
    obtain ⟨⟩ := h
    refine .inl ((saved_map s fun row => ?_).trans hsaved)
    rfl

/-- No step takes the saved prompt away but the transaction that starts it. -/
theorem Inv.saved_stays (hs : Inv s) (h : step texts s l = some s')
    (hsaved : s.saved = some (number, prompt)) :
    s'.saved = some (number, prompt) ∨
      ((∃ i outcome, l = .process i outcome) ∧ Begins texts s s' number prompt) := by
  unfold step at h
  split at h
  · cases h
    exact .inl hsaved
  · cases h
    refine .inl ((saved_map s fun row => ?_).trans hsaved)
    unfold recover_session_preparations
    split <;> rfl
  · cases h
    exact .inl hsaved
  · exact hs.running_saved h hsaved
  · cases h

/-! ## The guarantee -/

variable {log : List Event}

theorem mem_of_begun (h : begun log = some number) : .begun number ∈ log := by
  fun_induction begun log with
  | case1 => cases h
  | case2 n log => grind -linarith
  | case3 event log _ ih => exact mem_cons_of_mem _ (ih h)

theorem not_mem_of_begun (h : begun log = none) (number : Nat) : .begun number ∉ log := by
  fun_induction begun log with
  | case1 => simp
  | case2 n log => cases h
  | case3 event log hne ih => grind -linarith

theorem not_mem_of_executed (h : executed log = none) (number : Nat) : .executed number ∉ log := by
  fun_induction executed log with
  | case1 => simp
  | case2 n log => cases h
  | case3 event log hne ih => grind -linarith

/-- What an event about a prompt says about the events before it: a prompt is executed after it
was begun and only once, and the recovery touches none that was not begun. -/
def Accounted (event : Event) (older : List Event) : Prop :=
  match event with
  | .begun number => .begun number ∉ older
  | .executed number => .begun number ∈ older ∧ .executed number ∉ older
  | .recorded number | .cleared number => .begun number ∈ older

theorem Justified.accounted {event : Event} {older : List Event} (h : Justified event older) :
    Accounted event older := by
  cases event with
  | begun number => exact not_mem_of_begun h number
  | executed number => exact ⟨mem_of_begun h.1, not_mem_of_executed h.2 number⟩
  | recorded number | cleared number => exact mem_of_begun h

/-- In every run in which the recovery does not meet a canceled operation that never started: a
saved prompt stays until the transaction that starts its operation and records it, it is
executed at most once and only then, and the recovery clears or records none that was not
started. -/
theorem saved_prompt_kept_until_begun (texts : Texts P M) (user_prompts : List M) (s : State P M)
    (h : Machine.Reaches (step texts) NotCanceledUnstarted (State.new user_prompts) s) :
    Every Accounted s.log ∧
    ∀ l s', NotCanceledUnstarted s l → step texts s l = some s' →
      ∀ number prompt, s.saved = some (number, prompt) →
        s'.saved = some (number, prompt) ∨ Begins texts s s' number prompt := by
  have hs : Inv s := Inv.of_reaches h
  refine ⟨hs.trace.imp fun _ _ => Justified.accounted, ?_⟩
  intro l s' _ hstep number prompt hsaved
  exact (hs.saved_stays hstep hsaved).imp id And.right

/-- The texts of prompts that are texts themselves. -/
def plain_texts : Texts Nat Nat := ⟨id, id, fun _ => false⟩

/-- A prompt is saved, and handed over when the workspace is ready. -/
def handover : List (Label Nat) :=
  let go : Label Nat := .foreground ⟨true, .draft, true⟩
  [.startup, .startup, .reserve, .queue_preparation_prompt 7 false, go, go, .task true, .task true,
    .complete_session_creation true, go, go, go, go, go, go, go, go, go, go, go]

def check_operation (s : State Nat Nat) (l : Label Nat) : Bool :=
  match l, s.app with
  | .foreground _, .status _ _ => !decide (s.status = some .canceled) || s.started
  | _, _ => true

theorem saved_prompt_kept_until_begun_executed :
    ∃ s : State Nat Nat,
      Machine.Reaches (step plain_texts) NotCanceledUnstarted (State.new []) s ∧
      .begun 0 ∈ s.log ∧ .executed 0 ∈ s.log ∧ s.user_prompts = [7] ∧ Every Accounted s.log := by
  have hrun : (Machine.run (step plain_texts) check_operation (State.new [])
      (handover ++ [.take 0, .process 0 .ok, .process 0 .ok, .process 0 .ok, .process 0 .ok,
        .process 0 .ok, .process 0 .ok])).any
      (fun s => .begun 0 ∈ s.log ∧ .executed 0 ∈ s.log ∧ s.user_prompts = [7]) = true := by
    decide +kernel
  obtain ⟨s, hreaches, hbegun, hexecuted, hprompts⟩ :=
    Machine.exists_reaches_of_run (K := NotCanceledUnstarted) (fun s l h => by
      rintro choice number prompt rfl hat hcanceled
      simpa [check_operation, hat, hcanceled] using h) hrun
  exact ⟨s, hreaches, hbegun, hexecuted, hprompts,
    (saved_prompt_kept_until_begun plain_texts [] s hreaches).1⟩

/-- A step that is not a cancellation by the user. -/
def NotCanceled (_ : State Nat Nat) (l : Label Nat) : Prop :=
  l ≠ .request_cancel ∧ l ≠ .cancel_session_preparation

/-- The worker is retired before it takes the prompt, and the sessions are loaded again: without
a cancellation by the user, the prompt is recorded and cleared and was never started. -/
theorem abandoned_prompt_is_cleared :
    ∃ s : State Nat Nat, Machine.Reaches (step plain_texts) NotCanceled (State.new []) s ∧
      s.saved = none ∧ .recorded 0 ∈ s.log ∧ .cleared 0 ∈ s.log ∧ .begun 0 ∉ s.log ∧
      s.started = false ∧ s.user_prompts = [7] := by
  have hrun : (Machine.run (step plain_texts)
      (fun _ l => decide (l ≠ .request_cancel ∧ l ≠ .cancel_session_preparation)) (State.new [])
      (handover ++ [.abandon 0, .resume_ready_workspace_prompts] ++
        replicate 7 (.foreground ⟨true, .draft, true⟩))).any
      (fun s => s.saved = none ∧ .recorded 0 ∈ s.log ∧ .cleared 0 ∈ s.log ∧
        .begun 0 ∉ s.log ∧ s.started = false ∧ s.user_prompts = [7]) = true := by
    decide +kernel
  exact Machine.exists_reaches_of_run (fun _ _ h => of_decide_eq_true (p := _ ∧ _) h) hrun

end Agentty.Session.Preparation
