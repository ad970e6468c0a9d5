/-
The order in which the serial worker executes.

Ordered commands and messages share one sequence of numbers and wait in two queues, each
in increasing order. `next_work` compares the heads. That merges the two as long as the
head of the buffer is the head of all commands that wait. It is not when the buffer is
empty: a command that is sent after the worker found the channel empty is not compared
with a message queued after it, which the worker may then take first.
-/
import Mathlib.Data.List.Pairwise
import Agentty.Worker.Delivery

set_option autoImplicit false

namespace Agentty.Worker

open List

/-! ## Merging two queues of numbers -/

/-- Two increasing queues of different numbers, after what was taken from them, newest
first; all of these are known. -/
structure Merged (left right taken known : List Nat) : Prop where
  left_increasing : left.Pairwise (· < ·)
  right_increasing : right.Pairwise (· < ·)
  apart : ∀ n ∈ left, n ∉ right
  taken_decreasing : taken.Pairwise (· > ·)
  before : ∀ n ∈ taken, ∀ m, m ∈ left ∨ m ∈ right → n < m
  known : ∀ n, n ∈ left ∨ n ∈ right ∨ n ∈ taken → n ∈ known

section Merged

variable {left right left' right' taken known known' : List Nat} {n : Nat}

variable (h : Merged left right taken known)

include h

theorem Merged.shrink (hleft : left'.Sublist left) (hright : right'.Sublist right)
    (hknown : known ⊆ known') : Merged left' right' taken known' where
  left_increasing := h.left_increasing.sublist hleft
  right_increasing := h.right_increasing.sublist hright
  apart n hn hn' := h.apart n (hleft.subset hn) (hright.subset hn')
  taken_decreasing := h.taken_decreasing
  before n hn m hm := h.before n hn m (hm.imp (hleft.subset ·) (hright.subset ·))
  known n hn := hknown (h.known n (hn.imp (hleft.subset ·) (Or.imp_left (hright.subset ·))))

theorem Merged.take (hn : n ∈ left ∨ n ∈ right) (hleft : left'.Sublist left)
    (hright : right'.Sublist right) (hfirst : ∀ m, m ∈ left' ∨ m ∈ right' → n < m) :
    Merged left' right' (n :: taken) known := by
  have hshrunk := h.shrink hleft hright (List.Subset.refl known)
  refine ⟨hshrunk.left_increasing, hshrunk.right_increasing, hshrunk.apart, ?_, ?_, ?_⟩
  · refine pairwise_cons.mpr ⟨?_, h.taken_decreasing⟩
    intro m hm
    exact h.before m hm n hn
  · intro m hm
    rcases mem_cons.mp hm with rfl | hm
    · exact hfirst
    · exact hshrunk.before m hm
  · intro m hm
    rcases hm with hm | hm | hm
    · exact hshrunk.known m (.inl hm)
    · exact hshrunk.known m (.inr (.inl hm))
    · rcases mem_cons.mp hm with rfl | hm
      · exact h.known m (hn.imp_right Or.inl)
      · exact hshrunk.known m (.inr (.inr hm))

theorem Merged.push_left (hnew : ∀ m ∈ known, m < n) :
    Merged (left ++ [n]) right taken (n :: known) := by
  have hlt : ∀ m, m ∈ left ∨ m ∈ right ∨ m ∈ taken → m < n := fun m hm => hnew m (h.known m hm)
  refine ⟨?_, h.right_increasing, ?_, h.taken_decreasing, ?_, ?_⟩
  · rw [pairwise_append]
    refine ⟨h.left_increasing, pairwise_singleton _ _, ?_⟩
    intro m hm m' hm'
    rw [mem_singleton.mp hm']
    exact hlt m (.inl hm)
  · intro m hm hright
    rcases mem_append.mp hm with hm | hm
    · exact h.apart m hm hright
    · have hlt' := hlt m (.inr (.inl hright))
      rw [mem_singleton.mp hm] at hlt'
      exact Nat.lt_irrefl n hlt'
  · intro m hm m' hm'
    rw [mem_append, mem_singleton] at hm'
    rcases hm' with (hm' | rfl) | hm'
    · exact h.before m hm m' (.inl hm')
    · exact hlt m (.inr (.inr hm))
    · exact h.before m hm m' (.inr hm')
  · intro m hm
    rw [mem_append, mem_singleton] at hm
    rcases hm with (hm | rfl) | hm
    · exact mem_cons_of_mem _ (h.known m (.inl hm))
    · exact mem_cons_self
    · exact mem_cons_of_mem _ (h.known m (.inr hm))

theorem Merged.swap : Merged right left taken known where
  left_increasing := h.right_increasing
  right_increasing := h.left_increasing
  apart n hn hn' := h.apart n hn' hn
  taken_decreasing := h.taken_decreasing
  before n hn m hm := h.before n hn m hm.symm
  known n hn := h.known n (or_left_comm.mp hn)

end Merged

/-! ## The numbers of the worker -/

variable {C M : Type} [ScheduledCommand C] [QueuedMessage M]

/-- The number of a work; an immediate command has none. -/
def ScheduledWork.number : ScheduledWork C M → Option Nat
  | .Command command => ScheduledCommand.order command.value
  | .Message message => some (QueuedMessage.order message.value)

def command_numbers (commands : List (Item C)) : List Nat :=
  commands.filterMap fun command => ScheduledCommand.order command.value

def message_numbers (messages : List (Item M)) : List Nat :=
  messages.map fun message => QueuedMessage.order message.value

/-- The number of the work an event starts. -/
def Event.executed_number : Event C M → Option Nat
  | .started work => work.number
  | _ => none

/-- The number an event adds to a queue. -/
def Event.enqueued_number : Event C M → Option Nat
  | .sent command => ScheduledCommand.order command.value
  | .appended message => some (QueuedMessage.order message.value)
  | _ => none

/-- The numbers of the ordered commands and messages executed, newest first. -/
def executed_numbers (log : List (Event C M)) : List Nat := log.filterMap Event.executed_number

def enqueued_numbers (log : List (Event C M)) : List Nat := log.filterMap Event.enqueued_number

/-- The numbers in the hand of the worker and executed, newest first. -/
def Queues.taken (q : Queues C M) : List Nat :=
  q.carried.filterMap ScheduledWork.number ++ executed_numbers q.log

/-- What waits is in order and comes after what was taken. -/
def Ordered (q : Queues C M) : Prop :=
  Merged (command_numbers (q.commands ++ q.channel)) (message_numbers q.messages) q.taken
    (enqueued_numbers q.log)

/-- Work that is newly in the hand of the worker comes before all that waits. -/
def Effect.First (q q' : Queues C M) : Prop :=
  ∀ work, q'.carried = [work] → q.carried = [] → ∀ n, work.number = some n →
    ∀ m, m ∈ command_numbers (q'.commands ++ q'.channel) ∨ m ∈ message_numbers q'.messages → n < m

/-- A number that is newly queued comes after all that were. -/
def Effect.Increasing (q q' : Queues C M) : Prop :=
  ∀ event n, q'.log = event :: q.log → event.enqueued_number = some n →
    ∀ m ∈ enqueued_numbers q.log, m < n

theorem Effect.ordered {q q' : Queues C M} (h : Effect q q') (hq : Ordered q)
    (hfirst : Effect.First q q') (hnew : Effect.Increasing q q') : Ordered q' := by
  unfold Ordered at hq ⊢
  cases h with
  | quiet => exact hq
  | receive command channel hchannel =>
    rw [hchannel, append_cons] at hq
    exact hq
  | select command commands hcarried hperm hsublist =>
    have hleft : (command_numbers (commands ++ q.channel)).Sublist
        (command_numbers (q.commands ++ q.channel)) :=
      (hsublist.append (List.Sublist.refl _)).filterMap _
    have htaken : q.taken = executed_numbers q.log := by
      rw [Queues.taken, hcarried]
      rfl
    rw [htaken] at hq
    have hnumber := hfirst (.Command command) rfl hcarried
    cases horder : ScheduledCommand.order command.value with
    | none =>
      -- an immediate command takes no number
      have htaken' : Queues.taken { q with carried := [.Command command], commands } =
          executed_numbers q.log := by
        simp [Queues.taken, ScheduledWork.number, horder]
      rw [htaken']
      exact hq.shrink hleft (List.Sublist.refl _) (List.Subset.refl _)
    | some n =>
      have htaken' : Queues.taken { q with carried := [.Command command], commands } =
          n :: executed_numbers q.log := by
        simp [Queues.taken, ScheduledWork.number, horder]
      rw [htaken']
      refine hq.take (.inl ?_) hleft (List.Sublist.refl _) (hnumber n horder)
      have hmem : command ∈ q.commands := hperm.mem_iff.mpr mem_cons_self
      exact mem_filterMap.mpr ⟨command, mem_append_left _ hmem, horder⟩
  | pop message messages hcarried hmessages =>
    have htaken : q.taken = executed_numbers q.log := by
      rw [Queues.taken, hcarried]
      rfl
    rw [htaken, hmessages] at hq
    exact hq.take (.inr mem_cons_self) (List.Sublist.refl _) (sublist_cons_self _ _)
      (hfirst (.Message message) rfl hcarried _ rfl)
  | start work hcarried =>
    have htaken : q.taken = executed_numbers (.started work :: q.log) := by
      rw [Queues.taken, hcarried]
      cases hnumber : work.number <;>
        simp [executed_numbers, Event.executed_number, hnumber]
    rw [htaken] at hq
    exact hq
  | abandon_command command commands hcommands =>
    refine hq.shrink ?_ (List.Sublist.refl _) (List.Subset.refl _)
    rw [hcommands]
    exact (sublist_cons_self _ _).filterMap _
  | abandon_message message messages hmessages =>
    refine hq.shrink (List.Sublist.refl _) ?_ (List.Subset.refl _)
    rw [hmessages]
    exact sublist_cons_self _ _
  | send command =>
    have hincreasing := hnew (.sent ⟨q.next_command, command⟩)
    change Merged (command_numbers (q.commands ++ (q.channel ++ [⟨q.next_command, command⟩])))
      (message_numbers q.messages) q.taken
      (enqueued_numbers (.sent ⟨q.next_command, command⟩ :: q.log))
    cases horder : ScheduledCommand.order command with
    | none =>
      simpa [command_numbers, enqueued_numbers, Event.enqueued_number, horder] using hq
    | some n =>
      have hpush := hq.push_left (hincreasing n rfl horder)
      simpa [command_numbers, enqueued_numbers, Event.enqueued_number, horder] using hpush
  | append message =>
    have hpush := (hq.swap.push_left (hnew (.appended ⟨q.next_message, message⟩) _ rfl rfl)).swap
    change Merged (command_numbers (q.commands ++ q.channel))
      (message_numbers (q.messages ++ [⟨q.next_message, message⟩])) q.taken
      (enqueued_numbers (.appended ⟨q.next_message, message⟩ :: q.log))
    simpa [message_numbers, enqueued_numbers, Event.enqueued_number] using hpush
  | note event hsilent =>
    have hexecuted : executed_numbers (event :: q.log) = executed_numbers q.log := by
      cases event <;> first | rfl | cases hsilent
    have htaken : Queues.taken { q with log := event :: q.log } = q.taken := by
      rw [Queues.taken, Queues.taken, hexecuted]
    rw [htaken]
    refine hq.shrink (List.Sublist.refl _) (List.Sublist.refl _) ?_
    exact (sublist_cons_self _ _).filterMap _ |>.subset

/-! ## The conditions on a run -/

/-- The number a step of a client sends into the channel. -/
def sends (s : State C M) : Label C M → Option Nat
  | .client i .proceed =>
    match s.clients i with
    | .submit_send command => if s.closed then none else ScheduledCommand.order command
    | _ => none
  | _ => none

/-- The number a step adds to a queue. -/
def enqueues (s : State C M) : Label C M → Option Nat
  | .append message => some (QueuedMessage.order message)
  | l => sends s l

/-- The host is not paused, and numbers are queued in increasing order. -/
def InOrder (s : State C M) (l : Label C M) : Prop :=
  l ≠ .set_paused true ∧ ∀ n, enqueues s l = some n → ∀ m ∈ enqueued_numbers s.log, m < n

/-- The worker has left the drain loop and may still take a message. -/
def Pc.window : Pc C M → Bool
  | .check _ | .paused _ | .order _ | .pop _ => true
  | _ => false

/-- No ordered command is sent while the worker, with an empty buffer, is between its last
look into the channel and the message it may take. -/
def Unraced (s : State C M) (l : Label C M) : Prop :=
  s.pc.window = true → s.commands = [] → sends s l = none

instance (s : State C M) (l : Label C M) : Decidable (Unraced s l) :=
  inferInstanceAs (Decidable (_ → _ → _))

instance (s : State C M) (l : Label C M) [DecidableEq C] [DecidableEq M] :
    Decidable (InOrder s l) :=
  decidable_of_iff
    (l ≠ .set_paused true ∧ (enqueues s l).all fun n => (enqueued_numbers s.log).all (· < n)) (by
      simp [InOrder, Option.all_eq_true, all_eq_true])

/-- What the channel holds back from the worker, at the points at which it may take a
message: nothing, unless the buffer has a command that comes before it. -/
def Window (s : State C M) : Prop :=
  match s.pc with
  | .drain drained | .receive drained => 0 < drained → s.commands ≠ []
  | .check _ => s.stop = false → s.commands = [] → command_numbers s.channel = []
  | .paused _ | .order _ | .pop _ => s.commands = [] → command_numbers s.channel = []
  | _ => True

variable {s s' : State C M}

theorem worker_step_window (h : worker_step s = some s') (hs : Window s) : Window s' := by
  unfold worker_step at h
  repeat' split at h
  all_goals cases h
  all_goals grind -linarith [Window, command_numbers, MAILBOX_DRAIN_BATCH_SIZE, append_eq_nil_iff]

variable {i : Nat} {act : Act C}

omit [QueuedMessage M] in
omit [ScheduledCommand C] in
/-- A client changes the channel only where `submit` sends. -/
theorem client_step_channel (h : client_step s i act = some s') :
    s'.channel = s.channel ∨ ∃ command, act = .proceed ∧ s.clients i = .submit_send command ∧
      s.closed = false ∧ s'.channel = s.channel ++ [⟨s.next_command, command⟩] := by
  unfold client_step client_proceed State.set_client at h
  repeat' split at h
  all_goals cases h
  all_goals first
    | exact .inl rfl
    | exact .inr ⟨_, rfl, by assumption, by grind -linarith, rfl⟩

omit [QueuedMessage M] in
theorem client_step_window (h : client_step s i act = some s')
    (hunraced : Unraced s (.client i act : Label C M)) (hs : Window s) : Window s' := by
  obtain ⟨hpc, hcommands, -, -, hstop⟩ := client_step_frame h
  -- within the window, what is sent has no number
  have hnumbers : s.pc.window = true → s.commands = [] →
      command_numbers s'.channel = command_numbers s.channel := by
    intro hwindow hempty
    rcases client_step_channel h with hsame | ⟨command, rfl, hclient, hclosed, hchannel⟩
    · rw [hsame]
    · have hnone := hunraced hwindow hempty
      simp only [sends, hclient, hclosed] at hnone
      rw [hchannel, command_numbers, filterMap_append]
      simpa [command_numbers] using hnone
  unfold Window at hs ⊢
  rw [hpc, hcommands]
  cases hpc' : s.pc with
  | drain | receive => simpa only [hpc'] using hs
  | check =>
    simp only [hpc'] at hs ⊢
    intro hstop' hempty
    rw [hnumbers (by rw [hpc']; rfl) hempty]
    exact hs (hstop hstop') hempty
  | paused | order | pop =>
    simp only [hpc'] at hs ⊢
    intro hempty
    rw [hnumbers (by rw [hpc']; rfl) hempty]
    exact hs hempty
  | _ => trivial

variable {l : Label C M}

theorem step_window (h : step s l = some s') (hunraced : Unraced s l) (hs : Window s) :
    Window s' := by
  cases l with
  | worker => exact worker_step_window h hs
  | client i act => exact client_step_window h hunraced hs
  | append | set_paused =>
    cases h
    exact hs

/-! ## The worker takes the least number -/

variable {n m : Nat}

theorem lt_of_mem_tail {l : List Nat} (h : (n :: l).Pairwise (· < ·)) (hm : m ∈ l) : n < m :=
  (pairwise_cons.mp h).1 m hm

variable {command : Item C}

omit [QueuedMessage M] in
theorem command_numbers_cons (h : ScheduledCommand.order command.value = some n)
    (commands : List (Item C)) :
    command_numbers (command :: commands) = n :: command_numbers commands := by
  simp [command_numbers, h]

omit [QueuedMessage M] in
theorem command_first_lt {commands channel : List (Item C)}
    (h : (command_numbers (command :: commands ++ channel)).Pairwise (· < ·))
    (hn : ScheduledCommand.order command.value = some n)
    (hm : m ∈ command_numbers (commands ++ channel)) : n < m := by
  rw [cons_append, command_numbers_cons hn] at h
  exact lt_of_mem_tail h hm

/-- The point at which the worker takes what it has in hand. -/
theorem worker_step_carried (h : worker_step s = some s') {work : ScheduledWork C M}
    (hwork : s'.pc.carried = [work]) :
    ∃ drained, s.pc = .paused drained ∨ s.pc = .order drained ∨ s.pc = .pop drained := by
  unfold worker_step at h
  repeat' split at h
  all_goals cases h
  all_goals grind -linarith [Pc.carried]

variable {messages : List (Item M)}

/-- A command that goes before the next message goes before all of them. -/
theorem lt_message_of_command_first (hincreasing : (message_numbers messages).Pairwise (· < ·))
    (hfirst : command_first (some n) (message_order messages) = true)
    (hapart : n ∉ message_numbers messages) (hm : m ∈ message_numbers messages) : n < m := by
  have hne : n ≠ m := fun heq => hapart (heq ▸ hm)
  cases messages with
  | nil => cases hm
  | cons message =>
    have hle : n ≤ QueuedMessage.order message.value := by
      simpa [command_first, message_order] using hfirst
    rcases mem_cons.mp hm with heq | hrest
    · exact lt_of_le_of_ne (heq ▸ hle) hne
    · exact lt_of_le_of_lt hle (lt_of_mem_tail hincreasing hrest)

/-- A message that the worker pops comes before all commands that wait. -/
theorem lt_command_of_pop {drained : Nat} {message : Item M} (hpc : s.pc = .pop drained)
    (hselecting : Selecting s) (hwindow : Window s) (hq : Ordered s.queues)
    (hmessages : s.messages = message :: messages)
    (hm : m ∈ command_numbers (s.commands ++ s.channel)) :
    QueuedMessage.order message.value < m := by
  simp only [Selecting, hpc] at hselecting
  rcases hselecting with hempty | ⟨order, first, horder, hfirst, hlt⟩
  · -- nothing in the buffer, so nothing in the channel
    simp only [Window, hpc] at hwindow
    rw [hempty, nil_append, hwindow hempty] at hm
    cases hm
  · have hfirst' : QueuedMessage.order message.value = first := by
      rw [hmessages] at hfirst
      exact Option.some.inj hfirst
    have hincreasing := hq.left_increasing
    change (command_numbers (s.commands ++ s.channel)).Pairwise (· < ·) at hincreasing
    cases hcommands : s.commands with
    | nil =>
      rw [hcommands] at horder
      cases horder
    | cons command =>
      rw [hcommands] at horder hincreasing hm
      have hn : ScheduledCommand.order command.value = some order := horder
      rw [cons_append, command_numbers_cons hn] at hm
      rcases mem_cons.mp hm with rfl | hrest
      · omega
      · have hafter := command_first_lt hincreasing hn hrest
        omega

theorem worker_step_first (h : worker_step s = some s') (hpaused : s.paused = false)
    (hselecting : Selecting s) (hwindow : Window s) (hq : Ordered s.queues) :
    Effect.First s.queues s'.queues := by
  intro work hwork _ n hn m hm
  obtain ⟨drained, hpc | hpc | hpc⟩ := worker_step_carried h hwork
  · -- only an immediate command is taken here, and it has no number
    simp only [worker_step, hpc, hpaused] at h
    split at h
    all_goals cases h
    · cases hwork
    · cases hwork
    · next command commands hsel =>
      have hwork' : work = .Command command := (singleton_inj.mp hwork).symm
      have horder : ScheduledCommand.order command.value = none := by
        unfold select_immediate at hsel
        grind -linarith
      rw [hwork'] at hn
      exact absurd (hn.symm.trans horder) (by simp)
  · simp only [worker_step, hpc] at h
    split at h
    · next command commands hcommands =>
      split at h
      · next hfirst =>
        cases h
        have hwork' : work = .Command command := (singleton_inj.mp hwork).symm
        rw [hwork'] at hn
        have horder : command_order s.commands = some n := by
          rw [hcommands]
          exact hn
        have hincreasing := hq.left_increasing
        have hmem : n ∈ command_numbers (s.commands ++ s.channel) := by
          rw [hcommands]
          exact mem_filterMap.mpr ⟨command, mem_cons_self, hn⟩
        change (command_numbers (s.commands ++ s.channel)).Pairwise (· < ·) at hincreasing
        rw [hcommands] at hincreasing
        rw [horder] at hfirst
        rcases hm with hm | hm
        · exact command_first_lt hincreasing hn hm
        · exact lt_message_of_command_first hq.right_increasing hfirst (hq.apart n hmem) hm
      · cases h
        cases hwork
    · cases h
      cases hwork
  · simp only [worker_step, hpc] at h
    split at h
    · cases h
      cases hwork
    rename_i message messages hmessages
    cases h
    have hwork' : work = .Message message := (singleton_inj.mp hwork).symm
    rw [hwork'] at hn
    have hn' : QueuedMessage.order message.value = n := Option.some.inj hn
    rcases hm with hm | hm
    · rw [← hn']
      exact lt_command_of_pop hpc hselecting hwindow hq hmessages hm
    · have hincreasing := hq.right_increasing
      change (message_numbers s.messages).Pairwise (· < ·) at hincreasing
      rw [hmessages] at hincreasing
      rw [← hn']
      exact lt_of_mem_tail hincreasing hm

/-! ## Runs in order -/

/-- A step that is not the worker's puts nothing in its hand. -/
theorem step_first (h : step s l = some s') (hpaused : s.paused = false)
    (hselecting : Selecting s) (hwindow : Window s) (hq : Ordered s.queues) :
    Effect.First s.queues s'.queues := by
  have hother : s'.pc.carried = s.pc.carried → Effect.First s.queues s'.queues := by
    intro hsame work hwork hnone
    have hcarried : s.pc.carried = [work] := hsame.symm.trans hwork
    have hnone' : s.pc.carried = [] := hnone
    rw [hcarried] at hnone'
    cases hnone'
  cases l with
  | worker => exact worker_step_first h hpaused hselecting hwindow hq
  | client i act => exact hother (by rw [(client_step_frame h).1])
  | append | set_paused =>
    cases h
    exact hother rfl

/-- What an event adds to a queue is what its step adds. -/
theorem step_enqueues (h : step s l = some s') {event : Event C M}
    (hlog : s'.log = event :: s.log) (hn : event.enqueued_number = some n) :
    enqueues s l = some n := by
  have hne : s.log ≠ event :: s.log := (cons_ne_self event s.log).symm
  cases l with
  | worker =>
    change worker_step s = some s' at h
    unfold worker_step at h
    repeat' split at h
    all_goals cases h
    all_goals grind -linarith [Event.enqueued_number]
  | client i act =>
    change client_step s i act = some s' at h
    unfold client_step client_proceed State.set_client at h
    repeat' split at h
    all_goals cases h
    all_goals grind -linarith [Event.enqueued_number, enqueues, sends]
  | append =>
    cases h
    cases hlog
    exact hn
  | set_paused paused =>
    cases h
    exact absurd hlog (by simp)

theorem step_paused (h : step s l = some s') (hl : l ≠ .set_paused true) (hs : s.paused = false) :
    s'.paused = false := by
  cases l with
  | worker =>
    obtain ⟨-, -, -, hpaused, -⟩ := worker_step_frame h
    exact hpaused.trans hs
  | client i act =>
    obtain ⟨-, -, -, hpaused, -⟩ := client_step_frame h
    exact hpaused.trans hs
  | append =>
    cases h
    exact hs
  | set_paused paused =>
    cases h
    cases paused with
    | false => rfl
    | true => exact absurd rfl hl

/-- What holds in every state of a run in order without a race. -/
structure OrderInv (s : State C M) : Prop where
  paused : s.paused = false
  selecting : Selecting s
  window : Window s
  ordered : Ordered s.queues

theorem orderInv_spawn : OrderInv (State.spawn false : State C M) := by
  refine ⟨rfl, trivial, trivial, ⟨?_, ?_, ?_, ?_, ?_, ?_⟩⟩
  all_goals simp [State.spawn, State.queues, Queues.taken, Pc.carried, command_numbers,
    message_numbers, executed_numbers]

theorem step_orderInv (h : step s l = some s') (hinorder : InOrder s l) (hunraced : Unraced s l)
    (hs : OrderInv s) : OrderInv s' where
  paused := step_paused h hinorder.1 hs.paused
  selecting := step_selecting h hs.selecting
  window := step_window h hunraced hs.window
  ordered :=
    (step_effect h).ordered hs.ordered (step_first h hs.paused hs.selecting hs.window hs.ordered)
      fun _ n hlog hn => hinorder.2 n (step_enqueues h hlog hn)

/-- In a run in order, in which no ordered command is sent into the window, the worker
executes ordered commands and messages in increasing order of their numbers. -/
theorem worker_executes_in_order (s : State C M)
    (h : Machine.Reaches step (fun s l => InOrder s l ∧ Unraced s l) (State.spawn false) s) :
    (executed_numbers s.log).Pairwise (· > ·) := by
  have hs : OrderInv s := h.invariant OrderInv orderInv_spawn
    fun _ _ _ hs hl hstep => step_orderInv hstep hl.1 hl.2 hs
  have htaken := hs.ordered.taken_decreasing
  exact (pairwise_append.mp htaken).2.1

/-- Command 1 is sent and message 2 is queued before the worker looks. -/
def queued_before : List (Label (Option Nat) Nat) :=
  submit_labels 0 (some 1) ++ [.append 2] ++ replicate 20 .worker

theorem worker_executes_in_order_queued_before :
    ∃ s : State (Option Nat) Nat,
      Machine.Reaches step (fun s l => InOrder s l ∧ Unraced s l) (State.spawn false) s ∧
      executed_numbers s.log = [2, 1] ∧ (executed_numbers s.log).Pairwise (· > ·) := by
  have hrun : (Machine.run step (fun s l => decide (InOrder s l ∧ Unraced s l))
      (State.spawn false) queued_before).any
      (fun s => executed_numbers s.log = [2, 1]) = true := by
    decide +kernel
  obtain ⟨s, hreaches, hlog⟩ := Machine.exists_reaches_of_run
    (K := fun s l => InOrder s l ∧ Unraced s l) (fun _ _ => of_decide_eq_true) hrun
  exact ⟨s, hreaches, hlog, worker_executes_in_order s hreaches⟩

/-- The worker finds the channel empty; then command 1 is sent and message 2 is queued. -/
def queued_within : List (Label (Option Nat) Nat) :=
  replicate 3 .worker ++ submit_labels 0 (some 1) ++ [.append 2] ++ replicate 16 .worker

/-- A run in order in which a message overtakes an older command. -/
theorem message_overtakes_command :
    ∃ s : State (Option Nat) Nat,
      Machine.Reaches step InOrder (State.spawn false) s ∧ executed_numbers s.log = [1, 2] ∧
      ¬ (executed_numbers s.log).Pairwise (· > ·) := by
  have hrun : (Machine.run step (fun s l => decide (InOrder s l)) (State.spawn false)
      queued_within).any (fun s => executed_numbers s.log = [1, 2]) = true := by
    decide +kernel
  obtain ⟨s, hreaches, hlog⟩ := Machine.exists_reaches_of_run (K := InOrder)
    (fun _ _ => of_decide_eq_true) hrun
  refine ⟨s, hreaches, hlog, ?_⟩
  rw [hlog]
  decide

end Agentty.Worker
