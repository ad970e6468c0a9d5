/-
The queues of the serial worker.

A step changes the queues in one of a few ways (`Effect`), and from these the accounting
follows: a command that was sent is in the channel, in the buffer, in the hand of the
worker, or has been handed to the host, and in one of these places only.
-/
import Mathlib.Data.List.Perm.Basic
import Agentty.Worker.Mailbox

set_option autoImplicit false

namespace Agentty.Worker

open List

variable {C M : Type}

/-! ## What the log says -/

def Event.handed : Event C M → Option (ScheduledWork C M)
  | .started work => some work
  | .abandoned work => some work
  | _ => none

def ScheduledWork.command : ScheduledWork C M → Option (Item C)
  | .Command command => some command
  | .Message _ => none

def ScheduledWork.message : ScheduledWork C M → Option (Item M)
  | .Command _ => none
  | .Message message => some message

def Event.sent_command : Event C M → Option (Item C)
  | .sent command => some command
  | _ => none

def Event.popped_message : Event C M → Option (Item M)
  | .popped message => some message
  | _ => none

def handed_commands (log : List (Event C M)) : List (Item C) :=
  log.filterMap fun event => event.handed.bind ScheduledWork.command

def handed_messages (log : List (Event C M)) : List (Item M) :=
  log.filterMap fun event => event.handed.bind ScheduledWork.message

def sent_commands (log : List (Event C M)) : List (Item C) := log.filterMap Event.sent_command

def popped_messages (log : List (Event C M)) : List (Item M) := log.filterMap Event.popped_message

/-! ## The queues -/

/-- The work the worker has selected and not yet handed over. -/
def Pc.carried : Pc C M → List (ScheduledWork C M)
  | .execute work => [work]
  | _ => []

/-- The part of the state that work passes through. -/
structure Queues (C M : Type) where
  carried : List (ScheduledWork C M)
  commands : List (Item C)
  channel : List (Item C)
  messages : List (Item M)
  next_command : Nat
  next_message : Nat
  log : List (Event C M)

def State.queues (s : State C M) : Queues C M where
  carried := s.pc.carried
  commands := s.commands
  channel := s.channel
  messages := s.messages
  next_command := s.next_command
  next_message := s.next_message
  log := s.log

/-- The commands that are not yet handed over. -/
def Queues.pending (q : Queues C M) : List (Item C) :=
  q.carried.filterMap ScheduledWork.command ++ (q.commands ++ q.channel)

/-- An event that moves no work. -/
def Event.silent : Event C M → Bool
  | .sent _ | .popped _ | .started _ | .abandoned _ => false
  | _ => true

/-- What a step can do to the queues. -/
inductive Effect : Queues C M → Queues C M → Prop where
  | quiet (q : Queues C M) : Effect q q
  | receive (q : Queues C M) (command : Item C) (channel : List (Item C))
      (h : q.channel = command :: channel) :
      Effect q { q with channel, commands := q.commands ++ [command] }
  | select (q : Queues C M) (command : Item C) (commands : List (Item C))
      (hcarried : q.carried = []) (h : q.commands.Perm (command :: commands))
      (hsublist : commands.Sublist q.commands) :
      Effect q { q with carried := [.Command command], commands }
  | pop (q : Queues C M) (message : Item M) (messages : List (Item M))
      (hcarried : q.carried = []) (h : q.messages = message :: messages) :
      Effect q { q with
        carried := [.Message message], messages, log := .popped message :: q.log }
  | start (q : Queues C M) (work : ScheduledWork C M) (h : q.carried = [work]) :
      Effect q { q with carried := [], log := .started work :: q.log }
  | abandon_command (q : Queues C M) (command : Item C) (commands : List (Item C))
      (h : q.commands = command :: commands) :
      Effect q { q with commands, log := .abandoned (.Command command) :: q.log }
  | abandon_message (q : Queues C M) (message : Item M) (messages : List (Item M))
      (h : q.messages = message :: messages) :
      Effect q { q with
        messages, log := .abandoned (.Message message) :: .popped message :: q.log }
  | send (q : Queues C M) (command : C) :
      Effect q { q with
        channel := q.channel ++ [⟨q.next_command, command⟩]
        next_command := q.next_command + 1
        log := .sent ⟨q.next_command, command⟩ :: q.log }
  | append (q : Queues C M) (message : M) :
      Effect q { q with
        messages := q.messages ++ [⟨q.next_message, message⟩]
        next_message := q.next_message + 1
        log := .appended ⟨q.next_message, message⟩ :: q.log }
  | note (q : Queues C M) (event : Event C M) (h : event.silent = true) :
      Effect q { q with log := event :: q.log }

/-! ## Accounting -/

/-- Every command that was sent is pending or handed over, and every message that was
popped is in the hand of the worker or handed over. -/
structure Accounted (q : Queues C M) : Prop where
  commands : (handed_commands q.log ++ q.pending).Perm (sent_commands q.log)
  messages :
    (handed_messages q.log ++ q.carried.filterMap ScheduledWork.message).Perm
      (popped_messages q.log)
  command_ids : ((sent_commands q.log).map Item.id).Nodup
  command_bound : ∀ command ∈ sent_commands q.log, command.id < q.next_command
  message_ids : ((popped_messages q.log ++ q.messages).map Item.id).Nodup
  message_bound : ∀ message ∈ popped_messages q.log ++ q.messages, message.id < q.next_message

theorem Event.silent_handed {event : Event C M} (h : event.silent = true) :
    event.handed = none ∧ event.sent_command = none ∧ event.popped_message = none := by
  cases event <;> first | exact ⟨rfl, rfl, rfl⟩ | cases h

theorem nodup_ids_concat {α : Type} {items : List (Item α)} {next : Nat} (value : α)
    (hids : (items.map Item.id).Nodup) (hbound : ∀ item ∈ items, item.id < next) :
    ((items ++ [(⟨next, value⟩ : Item α)]).map Item.id).Nodup := by
  rw [map_append, nodup_append]
  refine ⟨hids, by simp, ?_⟩
  intro a ha b hb hab
  obtain ⟨item, hitem, rfl⟩ := mem_map.mp ha
  have hb' : b = next := by simpa using hb
  have hlt := hbound item hitem
  omega

theorem Effect.accounted {q q' : Queues C M} (h : Effect q q') (hq : Accounted q) :
    Accounted q' := by
  have hcommands := hq.commands
  have hmessages := hq.messages
  -- a message that leaves the queue goes to the popped ones
  have hpopped : ∀ message messages, q.messages = message :: messages →
      ((message :: popped_messages q.log ++ messages).map Item.id).Nodup ∧
        ∀ item ∈ message :: popped_messages q.log ++ messages, item.id < q.next_message := by
    intro message messages heq
    have hids := hq.message_ids
    have hbound := hq.message_bound
    rw [heq] at hids hbound
    exact ⟨(perm_middle.map Item.id).nodup_iff.mp hids,
      fun item hitem => hbound item (perm_middle.mem_iff.mpr hitem)⟩
  cases h with
  | quiet => exact hq
  | receive command channel hchannel =>
    exact { hq with commands := by simpa [Queues.pending, hchannel] using hcommands }
  | select command commands hcarried hperm _ =>
    refine { hq with commands := ?_, messages := ?_ }
    · -- the command leaves the buffer for the hand of the worker
      refine List.Perm.trans (List.Perm.append_left _ ?_) hcommands
      simp only [Queues.pending, hcarried]
      exact hperm.symm.append_right q.channel
    · rw [hcarried] at hmessages
      exact hmessages
  | pop message messages hcarried heq =>
    simp only [hcarried, Queues.pending] at hmessages hcommands
    refine { hq with
      commands := hcommands, messages := ?_
      message_ids := (hpopped message messages heq).1
      message_bound := (hpopped message messages heq).2 }
    rw [filterMap_nil, append_nil] at hmessages
    exact (perm_append_singleton message _).trans (hmessages.cons message)
  | start work hcarried =>
    simp only [hcarried, Queues.pending] at hcommands hmessages
    refine { hq with commands := ?_, messages := ?_ }
    · cases work with
      | Command => exact perm_middle.symm.trans hcommands
      | Message => exact hcommands
    · cases work with
      | Command => exact hmessages
      | Message message =>
        change (message :: handed_messages q.log ++ []).Perm (popped_messages q.log)
        rw [append_nil]
        exact (perm_append_singleton message _).symm.trans hmessages
  | abandon_command command commands heq =>
    refine { hq with commands := ?_ }
    simp only [Queues.pending, heq] at hcommands
    -- the command leaves the middle of the pending ones for the head of the handed ones
    refine List.Perm.trans ?_ hcommands
    exact perm_middle.symm.trans (List.Perm.append_left _ perm_middle.symm)
  | abandon_message message messages heq =>
    exact { hq with
      messages := hmessages.cons message
      message_ids := (hpopped message messages heq).1
      message_bound := (hpopped message messages heq).2 }
  | send command =>
    refine { hq with commands := ?_, command_ids := ?_, command_bound := ?_ }
    · have hperm := (perm_append_singleton ⟨q.next_command, command⟩
        (handed_commands q.log ++ q.pending)).trans (hcommands.cons ⟨q.next_command, command⟩)
      simpa [Queues.pending, handed_commands, sent_commands, Event.handed,
        Event.sent_command] using hperm
    · have hnew := nodup_ids_concat command hq.command_ids hq.command_bound
      exact ((perm_append_singleton _ _).map Item.id).nodup_iff.mp hnew
    · intro item hitem
      rcases mem_cons.mp hitem with rfl | hold
      · exact Nat.lt_succ_self _
      · exact Nat.lt_succ_of_lt (hq.command_bound item hold)
  | append message =>
    refine { hq with message_ids := ?_, message_bound := ?_ }
    · have hnew := nodup_ids_concat message hq.message_ids hq.message_bound
      rw [append_assoc] at hnew
      exact hnew
    · intro item hitem
      rw [← append_assoc, mem_append, mem_singleton] at hitem
      rcases hitem with hold | rfl
      · exact Nat.lt_succ_of_lt (hq.message_bound item hold)
      · exact Nat.lt_succ_self _
  | note event hsilent =>
    obtain ⟨hhanded, hsent, hpopped⟩ := Event.silent_handed hsilent
    constructor <;> simp only [handed_commands, handed_messages, sent_commands, popped_messages,
      filterMap_cons, hhanded, hsent, hpopped]
    exacts [hcommands, hmessages, hq.command_ids, hq.command_bound, hq.message_ids,
      hq.message_bound]

/-! ## Steps -/

theorem remove_first_perm {α : Type} {p : α → Bool} {l : List α} {a : α} {rest : List α}
    (h : remove_first p l = some (a, rest)) : l.Perm (a :: rest) ∧ rest.Sublist l := by
  induction l generalizing rest with
  | nil => cases h
  | cons b l ih =>
    rw [remove_first] at h
    split at h
    · cases h
      exact ⟨List.Perm.refl _, sublist_cons_self _ _⟩
    · obtain ⟨⟨a', rest'⟩, hr, heq⟩ := Option.map_eq_some_iff.mp h
      cases heq
      obtain ⟨hperm, hsublist⟩ := ih hr
      exact ⟨(hperm.cons b).trans (List.Perm.swap _ _ _), hsublist.cons_cons b⟩

variable {s s' : State C M}

theorem client_step_effect {i : Nat} {act : Act C} (h : client_step s i act = some s') :
    Effect s.queues s'.queues := by
  unfold client_step client_proceed State.set_client at h
  repeat' split at h
  all_goals cases h
  all_goals first
    | exact .quiet _
    | exact .send _ _
    | exact .note _ _ rfl

variable [ScheduledCommand C] [QueuedMessage M]

theorem select_immediate_perm {paused : Bool} {commands rest : List (Item C)} {command : Item C}
    (h : select_immediate paused commands = some (some (command, rest))) :
    commands.Perm (command :: rest) ∧ rest.Sublist commands := by
  unfold select_immediate at h
  split at h
  · exact remove_first_perm (Option.some.inj h)
  split at h
  · split at h
    · cases h
      exact ⟨List.Perm.refl _, sublist_cons_self _ _⟩
    · cases h
  · cases h

omit [ScheduledCommand C] [QueuedMessage M] in
theorem Effect.of_eq {q q' : Queues C M} (h : q' = q) : Effect q q' := by
  subst h
  exact .quiet _

theorem worker_step_effect (h : worker_step s = some s') : Effect s.queues s'.queues := by
  unfold worker_step at h
  have hq : s.queues = ⟨s.pc.carried, s.commands, s.channel, s.messages, s.next_command,
    s.next_message, s.log⟩ := rfl
  cases hpc : s.pc <;> simp only [hpc] at h <;> rw [hpc] at hq
  -- the queues stay as they are
  case lock | drain | check | select | select_wakeup | lock_end =>
    split at h <;> cases h <;> exact .of_eq (by simp [State.queues, hpc, Pc.carried])
  case release | close | complete =>
    cases h
    exact .of_eq (by simp [State.queues, hpc, Pc.carried])
  case unlock drained =>
    cases h
    refine .of_eq ?_
    by_cases hd : drained = MAILBOX_DRAIN_BATCH_SIZE <;>
      simp [State.queues, hpc, Pc.carried, hd]
  case abandoning work =>
    cases work <;> cases h <;> exact .of_eq (by simp [State.queues, hpc, Pc.carried])
  case done => cases h
  -- a command is received
  case receive | select_recv | flush =>
    repeat' split at h
    all_goals cases h
    all_goals rw [hq]
    all_goals first
      | exact .quiet _
      | exact .receive _ _ _ (by assumption)
  -- work is selected
  case paused drained =>
    split at h <;> cases h <;> rw [hq]
    · exact .quiet _
    · exact .quiet _
    · next hsel =>
      obtain ⟨hperm, hsublist⟩ := select_immediate_perm hsel
      exact .select _ _ _ rfl hperm hsublist
  case order drained =>
    split at h
    · next command commands hcommands =>
      split at h <;> cases h <;> rw [hq]
      · refine .select _ _ _ rfl (by rw [hcommands]) ?_
        rw [hcommands]
        exact sublist_cons_self _ _
      · exact .quiet _
    · cases h
      rw [hq]
      exact .quiet _
  case pop drained =>
    split at h <;> cases h <;> rw [hq]
    · exact .quiet _
    · next hmessages => exact .pop _ _ _ rfl hmessages
  -- work is handed over
  case execute work =>
    cases h
    rw [hq]
    exact .start _ work rfl
  case abandon =>
    split at h <;> cases h <;> rw [hq]
    · exact .quiet _
    · next hcommands => exact .abandon_command _ _ _ hcommands
  case pop_end =>
    split at h <;> cases h <;> rw [hq]
    · exact .quiet _
    · next hmessages => exact .abandon_message _ _ _ hmessages
  case executing | hook =>
    cases h
    rw [hq]
    exact .note _ _ rfl

/-- **What a step does to the queues.** -/
theorem step_effect {l : Label C M} (h : step s l = some s') : Effect s.queues s'.queues := by
  cases l with
  | worker => exact worker_step_effect h
  | client i act => exact client_step_effect h
  | append message =>
    cases h
    exact .append _ message
  | set_paused paused =>
    cases h
    exact .quiet _

end Agentty.Worker
