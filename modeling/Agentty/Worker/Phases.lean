/-
Where the serial worker and its clients stand.

Who holds which lock, how far the worker is with closing, and what the calls in progress
say about the requests to shut down: three invariants over the points of the programs,
each kept by every step.
-/
import Agentty.Worker.Mailbox

set_option autoImplicit false

namespace Agentty.Worker

variable {C M : Type} [ScheduledCommand C] [QueuedMessage M]

/-! ## Where the worker and the clients stand -/

/-- The points at which the worker holds the execution lock. -/
def Pc.locked : Pc C M → Bool
  | .lock | .select | .select_recv | .select_wakeup | .close | .flush | .lock_end | .done => false
  | _ => true

/-- How far the worker is with closing: it runs (0), has closed the channel (1), emptied
it (2), abandons commands (3) and then messages (4), has run the hook (5), is done (6). -/
def Pc.phase : Pc C M → Nat
  | .flush => 1
  | .lock_end => 2
  | .abandon | .abandoning (.Command _) => 3
  | .abandoning (.Message _) | .pop_end | .hook => 4
  | .complete => 5
  | .done => 6
  | _ => 0

/-- The points at which a client holds the execution lock. -/
def Client.guards : Client C → Bool
  | .guard | .shutdown true | .shutdown_cancel true | .shutdown_unlock true
  | .shutdown_release => true
  | _ => false

/-- The points at which a client holds the admission lock. -/
def Client.admits : Client C → Bool
  | .submit_check _ | .submit_send _ | .submit_return _ | .shutdown_cancel _
  | .shutdown_unlock _ => true
  | _ => false

/-- Who holds which lock. -/
structure Locks (s : State C M) : Prop where
  worker : s.pc.locked = true ↔ s.execution = some .worker
  guard : ∀ i, (s.clients i).guards = true ↔ s.execution = some (.client i)
  admission : ∀ i, (s.clients i).admits = true ↔ s.admission = some i

variable {s s' : State C M} {i : Nat} {act : Act C}

omit [ScheduledCommand C] [QueuedMessage M] in
/-- A client leaves the worker, its buffer, the messages and the pause as they are, and does
not take back a stop. -/
theorem client_step_frame (h : client_step s i act = some s') :
    s'.pc = s.pc ∧ s'.commands = s.commands ∧ s'.messages = s.messages ∧ s'.paused = s.paused ∧
      (s'.stop = false → s.stop = false) := by
  unfold client_step client_proceed State.set_client at h
  repeat' split at h
  all_goals cases h
  all_goals refine ⟨rfl, rfl, rfl, rfl, ?_⟩
  all_goals first
    | exact id
    | exact fun hstop => nomatch hstop

/-- The events of the worker; the others are those of the clients and the host. -/
def Event.of_worker : Event C M → Bool
  | .popped _ | .started _ | .finished _ | .abandoned _ | .hooked => true
  | _ => false

omit [ScheduledCommand C] [QueuedMessage M] in
/-- A client closes nothing, and sends only to an open channel. -/
theorem client_step_closing (h : client_step s i act = some s') :
    s'.closed = s.closed ∧ s'.completed = s.completed ∧ (s.closed = true → s'.channel = s.channel) ∧
      ∃ newer, s'.log = newer ++ s.log ∧ ∀ e ∈ newer, e.of_worker = false := by
  unfold client_step client_proceed State.set_client at h
  repeat' split at h
  all_goals cases h
  all_goals refine ⟨rfl, rfl, ?_, ?_⟩
  all_goals first
    | exact fun _ => rfl
    | exact fun hclosed => by contradiction
    | exact ⟨[], rfl, by simp⟩
    | exact ⟨[_], rfl, by simp [Event.of_worker]⟩

/-- The worker leaves the clients and the admission lock as they are. -/
theorem worker_step_frame (h : worker_step s = some s') :
    s'.stop = s.stop ∧ s'.handles = s.handles ∧ s'.clients = s.clients ∧ s'.paused = s.paused ∧
      s'.admission = s.admission ∧
      ∃ newer, s'.log = newer ++ s.log ∧ ∀ e ∈ newer, e.of_worker = true := by
  unfold worker_step at h
  repeat' split at h
  all_goals cases h
  all_goals refine ⟨rfl, rfl, rfl, rfl, rfl, ?_⟩
  all_goals first
    | exact ⟨[], rfl, by simp⟩
    | exact ⟨[_], rfl, by simp [Event.of_worker]⟩
    | exact ⟨[_, _], rfl, by simp [Event.of_worker]⟩

/-- The worker keeps the execution lock as it is, takes it when it is free, or gives it back. -/
theorem worker_step_execution (h : worker_step s = some s') :
    (s'.pc.locked = s.pc.locked ∧ s'.execution = s.execution) ∨
    (s.execution = none ∧ s'.pc.locked = true ∧ s'.execution = some .worker) ∨
    (s.pc.locked = true ∧ s'.pc.locked = false ∧ s'.execution = none) := by
  unfold worker_step at h
  repeat' split at h
  all_goals cases h
  all_goals grind -linarith [Pc.locked]

omit [ScheduledCommand C] [QueuedMessage M] in
theorem client_step_locks (h : client_step s i act = some s') (hs : Locks s) : Locks s' := by
  obtain ⟨hworker, hguard, hadmission⟩ := hs
  unfold client_step client_proceed State.set_client at h
  repeat' split at h
  all_goals cases h
  all_goals refine ⟨?_, ?_, ?_⟩ <;> try assumption
  all_goals grind -linarith [Client.guards, Client.admits, Function.update_apply]

variable {l : Label C M}

theorem step_locks (h : step s l = some s') (hs : Locks s) : Locks s' := by
  cases l with
  | worker =>
    obtain ⟨-, -, hclients, -, hadmission, -⟩ := worker_step_frame h
    have hexecution := worker_step_execution h
    refine ⟨?_, ?_, ?_⟩
    · rcases hexecution with ⟨hpc, hkept⟩ | ⟨-, hlocked, htaken⟩ | ⟨-, hfree, hgiven⟩
      · rw [hpc, hkept]
        exact hs.worker
      · simp [hlocked, htaken]
      · simp [hfree, hgiven]
    · intro i
      rw [hclients, hs.guard i]
      rcases hexecution with ⟨-, hkept⟩ | ⟨hnone, -, htaken⟩ | ⟨hlocked, -, hgiven⟩
      · rw [hkept]
      · simp [hnone, htaken]
      · simp [hs.worker.mp hlocked, hgiven]
    · rw [hclients, hadmission]
      exact hs.admission
  | client i act => exact client_step_locks h hs
  | append | set_paused =>
    cases h
    exact ⟨hs.worker, hs.guard, hs.admission⟩

/-- What the phase of the worker says about the channel, the buffer and the log. -/
structure Closing (s : State C M) : Prop where
  closed : s.closed = true ↔ 1 ≤ s.pc.phase
  channel : 2 ≤ s.pc.phase → s.channel = []
  commands : 4 ≤ s.pc.phase → s.commands = []
  hooked : 5 ≤ s.pc.phase → .hooked ∈ s.log
  completed : s.completed = true ↔ s.pc = .done
  abandoned : ∀ work, .abandoned work ∈ s.log → 3 ≤ s.pc.phase

theorem worker_step_closing (h : worker_step s = some s') (hs : Closing s) : Closing s' := by
  obtain ⟨hclosed, hchannel, hcommands, hhooked, hcompleted, habandoned⟩ := hs
  unfold worker_step at h
  repeat' split at h
  all_goals cases h
  all_goals refine ⟨?_, ?_, ?_, ?_, ?_, ?_⟩ <;> try assumption
  all_goals grind -linarith [Pc.phase]

theorem step_closing (h : step s l = some s') (hs : Closing s) : Closing s' := by
  cases l with
  | worker => exact worker_step_closing h hs
  | client i act =>
    obtain ⟨hpc, hcommands, -⟩ := client_step_frame h
    obtain ⟨hclosed, hcompleted, hchannel, newer, hlog, hnewer⟩ := client_step_closing h
    constructor
    all_goals rw [hpc]
    · rw [hclosed]
      exact hs.closed
    · intro hphase
      rw [hchannel (hs.closed.mpr (by omega))]
      exact hs.channel hphase
    · rw [hcommands]
      exact hs.commands
    · intro hphase
      rw [hlog]
      exact List.mem_append_right _ (hs.hooked hphase)
    · rw [hcompleted]
      exact hs.completed
    · intro work hwork
      rw [hlog] at hwork
      refine hs.abandoned work ((List.mem_append.mp hwork).resolve_left fun hmem => ?_)
      cases hnewer _ hmem
  | append message =>
    cases h
    refine { hs with
      hooked := fun hphase => List.mem_cons_of_mem _ (hs.hooked hphase)
      abandoned := ?_ }
    intro work hwork
    exact hs.abandoned work ((List.mem_cons.mp hwork).resolve_left (by simp))
  | set_paused =>
    cases h
    exact { hs with }

def Client.cancels : Client C → Bool
  | .shutdown_cancel _ => true
  | _ => false

/-- The holder of the admission lock is about to cancel the stop token. -/
def State.canceling (s : State C M) : Bool :=
  match s.admission with
  | some i => (s.clients i).cancels
  | none => false

/-- What the clients in a call say about the requests to shut down and the commands that
were sent. -/
structure Admission (s : State C M) : Prop where
  stopping : ∀ i, .stopping i ∈ s.log → s.stop = true ∨ s.canceling = true
  sending : ∀ j command, s.clients j = .submit_send command → ∀ i, .stopping i ∉ s.log
  returning : ∀ j command, s.clients j = .submit_return (.ok command) →
    ∀ i, .stopping i ∉ s.log
  sent : ∀ j command, s.clients j = .submit_return (.ok command) → .sent command ∈ s.log
  accepted : ∀ command, .accepted command ∈ s.log → .sent command ∈ s.log

omit [ScheduledCommand C] [QueuedMessage M] in
theorem client_step_admission (h : client_step s i act = some s') (hlocks : Locks s)
    (hs : Admission s) : Admission s' := by
  obtain ⟨hstopping, hsending, hreturning, hsent, haccepted⟩ := hs
  -- only the holder of the admission lock is between its check and its return
  have hadmission := hlocks.admission
  unfold client_step client_proceed State.set_client at h
  repeat' split at h
  all_goals cases h
  all_goals refine ⟨?_, ?_, ?_, ?_, ?_⟩ <;> try assumption
  all_goals grind -linarith [State.canceling, Client.cancels, Client.admits, Function.update_apply]

omit [ScheduledCommand C] [QueuedMessage M] in
/-- Nothing changes for the clients as long as the new events are not theirs. -/
theorem Admission.frame (hs : Admission s) (hstop : s'.stop = s.stop)
    (hclients : s'.clients = s.clients) (hadmission : s'.admission = s.admission)
    (newer : List (Event C M)) (hlog : s'.log = newer ++ s.log)
    (hstopping : ∀ i, .stopping i ∉ newer)
    (haccepted : ∀ command, .accepted command ∉ newer) : Admission s' := by
  have hcanceling : s'.canceling = s.canceling := by
    rw [State.canceling, hadmission, hclients]
    rfl
  have hold : ∀ i, .stopping i ∈ s'.log → .stopping i ∈ s.log := fun i hi =>
    (List.mem_append.mp (hlog ▸ hi)).resolve_left (hstopping i)
  have hnew : ∀ e ∈ s.log, e ∈ s'.log := fun e he => hlog ▸ List.mem_append_right _ he
  constructor
  · intro i hi
    rw [hstop, hcanceling]
    exact hs.stopping i (hold i hi)
  · intro j command hj i hi
    exact hs.sending j command (hclients ▸ hj) i (hold i hi)
  · intro j command hj i hi
    exact hs.returning j command (hclients ▸ hj) i (hold i hi)
  · intro j command hj
    exact hnew _ (hs.sent j command (hclients ▸ hj))
  · intro command hcommand
    exact hnew _ (hs.accepted command
      ((List.mem_append.mp (hlog ▸ hcommand)).resolve_left (haccepted command)))

theorem step_admission (h : step s l = some s') (hlocks : Locks s) (hs : Admission s) :
    Admission s' := by
  cases l with
  | worker =>
    obtain ⟨hstop, -, hclients, -, hadmission, newer, hlog, hnewer⟩ := worker_step_frame h
    refine hs.frame hstop hclients hadmission newer hlog (fun i hi => ?_) fun command hi => ?_
    all_goals cases hnewer _ hi
  | client i act => exact client_step_admission h hlocks hs
  | append message =>
    cases h
    exact hs.frame rfl rfl rfl [_] rfl (by simp) (by simp)
  | set_paused =>
    cases h
    exact { hs with }

/-! ## Selection -/

/-- What `next_work` has found out, at the points at which it still decides. -/
def Selecting (s : State C M) : Prop :=
  match s.pc with
  | .order _ => s.commands = [] ∨ ∃ order, command_order s.commands = some order
  | .pop _ =>
    s.commands = [] ∨ ∃ order message, command_order s.commands = some order ∧
      message_order s.messages = some message ∧ message < order
  | _ => True

theorem worker_step_selecting (h : worker_step s = some s') (hs : Selecting s) : Selecting s' := by
  unfold worker_step at h
  split at h
  case h_5 drained hpc =>
    split at h
    all_goals cases h
    · next hsel =>
      -- nothing is selected: there is no command, or the one in front has an order
      unfold select_immediate at hsel
      split at hsel
      · cases hsel
      split at hsel
      · next hcommands =>
        split at hsel
        · cases hsel
        · next horder => exact .inr (Option.ne_none_iff_exists'.mp (hcommands ▸ horder))
      · next hnil => exact .inl hnil
    · trivial
    · trivial
  case h_6 drained hpc =>
    have hfront : s.commands = [] ∨ ∃ order, command_order s.commands = some order := by
      simpa only [Selecting, hpc] using hs
    split at h
    · next command commands hcommands =>
      split at h
      · cases h
        trivial
      rename_i hfirst
      cases h
      rcases hfront with hnil | ⟨order, horder⟩
      · exact .inl hnil
      · rw [horder, Bool.not_eq_true] at hfirst
        -- a message goes first only when it is older than the command in front
        cases hmessage : message_order s.messages with
        | none => rw [hmessage] at hfirst; cases hfirst
        | some message =>
          exact .inr ⟨order, message, horder, hmessage,
            by simpa [command_first, hmessage] using hfirst⟩
    · next hnil =>
      cases h
      exact .inl hnil
  -- every other step leaves `next_work` or has not entered it
  all_goals try split at h
  all_goals try split at h
  all_goals cases h
  all_goals grind -linarith [Selecting]

theorem step_selecting (h : step s l = some s') (hs : Selecting s) : Selecting s' := by
  cases l with
  | worker => exact worker_step_selecting h hs
  | client i act =>
    obtain ⟨hpc, hcommands, hmessages, -⟩ := client_step_frame h
    simpa only [Selecting, hpc, hcommands, hmessages] using hs
  | append =>
    cases h
    unfold Selecting at hs ⊢
    cases hpc : s.pc with
    | pop =>
      simp only [hpc] at hs ⊢
      rcases hs with hnil | ⟨order, first, horder, hfirst, hlt⟩
      · exact .inl hnil
      · refine .inr ⟨order, first, horder, ?_, hlt⟩
        cases hmessages : s.messages with
        | nil => rw [hmessages] at hfirst; cases hfirst
        | cons => rw [hmessages] at hfirst; exact hfirst
    | _ => simp only [hpc] at hs ⊢ <;> exact hs
  | set_paused paused =>
    cases h
    exact hs

end Agentty.Worker
