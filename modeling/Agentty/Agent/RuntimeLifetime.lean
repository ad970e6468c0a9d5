/-
Who owns the runtimes of an app-server session.

A runtime that is alive is owned by the turn, by the registry or by a call of
`shutdown_session`, so that none is left once the turn has returned, except the idle one
(`runtimes_are_owned`). This rests on the provider: a turn of it that reports an interruption
by the user is taken for one whose runtime was shut down (`Truthful` excludes it).

After a shutdown beside a turn nothing is left at all, if the turn does not store its runtime
after the shutdown has cancelled it (`Heeded`). The code does not look at the token there.
-/
import Agentty.Agent.AppServer

set_option autoImplicit false

namespace Agentty.AppServer

open List

variable {client : Client} {s s' : State} {choice : Choice} {pc : Pc}

/-! ## What a step of the turn does to the runtimes -/

/-- The turn owns a runtime, or starts one. -/
def Pc.busy : Pc → Bool
  | .isolate | .register | .take | .leave _ => false
  | _ => true

def State.runtime (s : State) : Option Nat := s.turn.bind Pc.runtime

inductive Moved (s : State) (pc : Pc) (s' : State) : Prop
  | kept : s'.alive = s.alive → s'.idle = s.idle → s'.runtime = pc.runtime →
      (s'.turn.any Pc.busy = true → pc.busy = true ∨ s.idle = none) → Moved s pc s'
  /-- from the registry -/
  | took (r : Nat) : s.idle = some r → s'.alive = s.alive → s'.idle = none →
      s'.runtime = some r → Moved s pc s'
  /-- into the registry -/
  | stored (r : Nat) : pc.runtime = some r → s'.alive = s.alive → s'.idle = some r →
      s'.turn.any Pc.busy = false → Moved s pc s'
  | started (r : Nat) : pc.busy = true → pc.runtime = none → s'.alive = r :: s.alive →
      s'.idle = s.idle → s'.runtime = some r → Moved s pc s'
  | shut (r : Nat) : pc.busy = true → pc.runtime = some r →
      s'.alive = s.alive.filter (· ≠ r) → s'.idle = s.idle → Moved s pc s'
  /-- The turn forgets its runtime. -/
  | dropped (f : Option AppServerError) (r : Nat) (e : AppServerError) : pc = .failed f r e →
      e.interrupted = true → Moved s pc s'

section

variable (h : run_turn client s choice pc = some s')

include h

theorem run_turn_calls : s'.calls = s.calls := by
  cases pc <;> simp only [run_turn] at h <;> repeat' split at h
  all_goals cases h
  all_goals rfl

theorem run_turn_moved : Moved s pc s' := by
  cases pc <;> simp only [run_turn] at h
  case reset | prompt | check | budget | call | running =>
    repeat' split at h
    all_goals cases h
    all_goals exact .kept rfl rfl rfl fun _ => .inl rfl
  case register | leave =>
    repeat' split at h
    all_goals cases h
    all_goals exact .kept rfl rfl rfl fun hbusy => by cases hbusy
  case isolate =>
    repeat' split at h
    all_goals cases h
    · exact .kept rfl rfl rfl fun hbusy => by cases hbusy
    · exact .kept rfl rfl rfl fun hbusy => by cases hbusy
    · next runtime hidle => exact .took runtime hidle rfl rfl rfl
  case take =>
    split at h
    · cases h
      exact .kept rfl rfl rfl fun hbusy => by cases hbusy
    split at h
    · next hidle =>
      cases h
      exact .kept rfl rfl rfl fun _ => .inr hidle
    · next runtime hidle =>
      split at h
      all_goals cases h
      all_goals exact .took runtime hidle rfl rfl rfl
  case start first_error =>
    split at h
    · cases h
      exact .kept rfl rfl rfl fun _ => .inl rfl
    · cases h
      exact .started s.next rfl rfl rfl rfl rfl
  case failed first_error runtime error =>
    split at h
    · next hinterrupted => exact .dropped first_error runtime error rfl hinterrupted
    split at h
    all_goals cases h
    all_goals exact .kept rfl rfl rfl fun _ => .inl rfl
  case store_reset | complete =>
    repeat' split at h
    all_goals cases h
    all_goals first
      | exact .kept rfl rfl rfl fun _ => .inl rfl
      | exact .stored _ rfl rfl rfl rfl
  case shutdown runtime after =>
    repeat' split at h
    all_goals cases h
    all_goals exact .shut runtime rfl rfl rfl rfl

theorem run_turn_failed {f : Option AppServerError} {r : Nat} {e : AppServerError}
    (hfailed : s'.turn = some (.failed f r e)) :
    e.interrupted = false ∨
      ∃ f r b, pc = .running f r b ∧ choice.turn = some (.error e) := by
  cases pc <;> simp only [run_turn] at h <;> repeat' split at h
  all_goals cases h
  all_goals cases hfailed
  · exact .inl rfl
  · exact .inr ⟨_, _, _, rfl, by assumption⟩

end

/-! ## Owners -/

/-- A call of `shutdown_session` has taken the runtime from the registry to shut it down. -/
def Taken (s : State) (r : Nat) : Prop :=
  ∃ (n : Nat) (call : Call), s.calls[n]? = some call ∧ call.pc = .shutdown r

/-- The runtimes have owners, and the registry is empty while the turn is busy with one. -/
structure Owned (s : State) : Prop where
  owner : ∀ r ∈ s.alive, s.runtime = some r ∨ s.idle = some r ∨ Taken s r
  empty : s.turn.any Pc.busy = true → s.idle = none
  failed : ∀ f r e, s.turn = some (.failed f r e) → e.interrupted = false

/-- The provider does not report an interruption by the user. -/
def Truthful (s : State) : Label → Prop
  | .turn choice => ∀ f r b e, s.turn = some (.running f r b) → choice.turn = some (.error e) →
      e.interrupted = false
  | _ => True

theorem Pc.busy_of_runtime {r : Nat} (h : pc.runtime = some r) : pc.busy = true := by
  cases pc <;> first | rfl | cases h

theorem Owned.turn (hs : Owned s) (hpc : s.turn = some pc) (hk : Truthful s (.turn choice))
    (h : run_turn client s choice pc = some s') : Owned s' := by
  have hruntime : s.runtime = pc.runtime := by
    rw [State.runtime, hpc]
    rfl
  have howner : ∀ r ∈ s.alive, pc.runtime = some r ∨ s.idle = some r ∨ Taken s' r := by
    intro r hr
    rw [← hruntime, Taken, run_turn_calls h]
    exact hs.owner r hr
  have hempty : pc.busy = true → s.idle = none := by
    intro hbusy
    apply hs.empty
    rw [hpc]
    exact hbusy
  have hfailed : ∀ f r e, s'.turn = some (.failed f r e) → e.interrupted = false := by
    intro f r e hturn
    rcases run_turn_failed h hturn with hno | ⟨f, r, b, rfl, herror⟩
    · exact hno
    · exact hk f r b e hpc herror
  cases run_turn_moved h with
  | kept halive hidle hsame hbusy =>
    refine ⟨?_, ?_, hfailed⟩
    · rw [halive, hsame, hidle]
      exact howner
    · intro hb
      rw [hidle]
      exact (hbusy hb).elim hempty id
  | took r hold halive hidle hnew =>
    refine ⟨?_, fun _ => hidle, hfailed⟩
    intro q hq
    rw [halive] at hq
    rcases howner q hq with hturn | hidle' | hcall
    · -- the turn owned nothing, as the registry was not empty
      have hnone := hempty (Pc.busy_of_runtime hturn)
      rw [hold] at hnone
      cases hnone
    · rw [hnew, ← hold]
      exact .inl hidle'
    · exact .inr (.inr hcall)
  | stored r hr halive hidle hbusy =>
    refine ⟨?_, fun hb => ?_, hfailed⟩
    · intro q hq
      rw [halive] at hq
      rcases howner q hq with hturn | hidle' | hcall
      · rw [hidle, ← hr]
        exact .inr (.inl hturn)
      · rw [hempty (Pc.busy_of_runtime hr)] at hidle'
        cases hidle'
      · exact .inr (.inr hcall)
    · rw [hbusy] at hb
      cases hb
  | started r hbusy hnone halive hidle hnew =>
    rw [hnone] at howner
    refine ⟨?_, fun _ => hidle.trans (hempty hbusy), hfailed⟩
    intro q hq
    rw [halive] at hq
    rcases mem_cons.mp hq with rfl | hq
    · exact .inl hnew
    · rw [hidle]
      exact .inr ((howner q hq).resolve_left nofun)
  | shut r hbusy hr halive hidle =>
    rw [hr] at howner
    refine ⟨?_, fun _ => hidle.trans (hempty hbusy), hfailed⟩
    intro q hq
    rw [halive, mem_filter, decide_eq_true_eq] at hq
    rw [hidle]
    exact .inr ((howner q hq.1).resolve_left fun hsame => hq.2 (Option.some.inj hsame).symm)
  | dropped f r e heq hinterrupted =>
    subst heq
    rw [hs.failed f r e hpc] at hinterrupted
    cases hinterrupted

variable {n : Nat} {poisoned : Bool}

theorem Owned.call {call : Call} (hs : Owned s) (hcall : s.calls[n]? = some call)
    (h : shutdown_session s n poisoned call = some s') : Owned s' := by
  have hn : n < s.calls.length := (List.getElem?_eq_some_iff.mp hcall).1
  -- a call that has no runtime may change its place
  have hother : ∀ r new, call.pc ≠ .shutdown r → Taken s r →
      Taken { s with calls := s.calls.set n new } r := by
    rintro r new hne ⟨m, other, hm, hr⟩
    refine ⟨m, other, ?_, hr⟩
    have hmn : n ≠ m := by
      rintro rfl
      rw [hcall] at hm
      cases hm
      exact hne hr
    rw [getElem?_set_ne hmn]
    exact hm
  unfold shutdown_session at h
  split at h
  · next hpc =>
    cases h
    refine ⟨?_, hs.empty, hs.failed⟩
    intro r hr
    exact (hs.owner r hr).imp_right (Or.imp_right (hother r _ (by rw [hpc]; nofun)))
  · next hpc =>
    have hkeep : ∀ r new, Taken s r → Taken { s with calls := s.calls.set n new } r :=
      fun r new => hother r new (by rw [hpc]; nofun)
    split at h
    · cases h
      refine ⟨?_, hs.empty, hs.failed⟩
      intro r hr
      exact (hs.owner r hr).imp_right (Or.imp_right (hkeep r _))
    split at h
    · cases h
      refine ⟨?_, hs.empty, hs.failed⟩
      intro r hr
      exact (hs.owner r hr).imp_right (Or.imp_right (hkeep r _))
    · next runtime hidle =>
      cases h
      refine ⟨?_, fun _ => rfl, hs.failed⟩
      intro r hr
      rcases hs.owner r hr with hturn | hidle' | htaken
      · exact .inl hturn
      · rw [hidle] at hidle'
        cases hidle'
        refine .inr (.inr ⟨n, { call with pc := .shutdown runtime }, ?_, rfl⟩)
        exact getElem?_set_self hn
      · exact .inr (.inr (hkeep r _ htaken))
  · next runtime hpc =>
    cases h
    refine ⟨?_, hs.empty, hs.failed⟩
    intro r hr
    have hr := mem_filter.mp hr
    have hne : r ≠ runtime := of_decide_eq_true hr.2
    refine (hs.owner r hr.1).imp_right (Or.imp_right (hother r _ ?_))
    rw [hpc]
    intro heq
    exact hne (CallPc.shutdown.inj heq).symm
  · cases h

variable {label : Label}

theorem Owned.step (hs : Owned s) (hk : Truthful s label) (h : step client s label = some s') :
    Owned s' := by
  cases label with
  | begin isolated =>
    obtain ⟨hnone, ⟨⟩⟩ := Option.ite_none_right_eq_some.mp h
    have hruntime : s.runtime = none := by
      rw [State.runtime, Option.isNone_iff_eq_none.mp hnone]
      rfl
    refine ⟨?_, ?_, ?_⟩
    · intro r hr
      have howner := hs.owner r hr
      rw [hruntime] at howner
      rcases howner with hturn | hother
      · cases hturn
      · exact .inr hother
    · intro hbusy
      cases isolated <;> cases hbusy
    · intro f r e hturn
      cases isolated <;> cases hturn
  | turn choice =>
    obtain ⟨pc, hpc, hstep⟩ := Option.bind_eq_some_iff.mp h
    exact hs.turn hpc hk hstep
  | shutdown_session =>
    cases h
    refine ⟨?_, hs.empty, hs.failed⟩
    intro r hr
    refine (hs.owner r hr).imp_right (Or.imp_right ?_)
    rintro ⟨n, call, hcall, hpc⟩
    have hn := (List.getElem?_eq_some_iff.mp hcall).1
    refine ⟨n, call, ?_, hpc⟩
    rw [getElem?_append_left hn]
    exact hcall
  | call =>
    obtain ⟨call, hcall, hstep⟩ := Option.bind_eq_some_iff.mp h
    exact hs.call hcall hstep

theorem owned_new : Owned State.new := by
  refine ⟨?_, ?_, ?_⟩
  · intro r hr
    cases hr
  · intro hbusy
    cases hbusy
  · intro f r e hturn
    cases hturn

/-! ## Attempts -/

/-- How often the provider can have been called when the turn is at a point. -/
def Pc.attempts : Pc → Nat
  | .isolate | .reset _ | .store_reset _ | .register | .take => 0
  | .start first_error | .prompt first_error _ _ | .check first_error _ _
  | .budget first_error _ _ | .call first_error _ _ => if first_error.isSome then 1 else 0
  | .running first_error _ _ => if first_error.isSome then 2 else 1
  | .failed first_error _ _ => if first_error.isSome then 2 else 1
  | .shutdown _ .register | .shutdown _ .start => 0
  | .shutdown _ (.failed _) => 1
  | _ => 2

/-- The turn is on its way out. -/
def Pc.leaving : Pc → Bool
  | .shutdown _ (.leave _) | .leave _ => true
  | _ => false

/-- No attempt was made after the token was seen to be cancelled. -/
def Stopped : List Event → Prop
  | [] => True
  | .attempted :: older => .observed ∉ older ∧ Stopped older
  | .observed :: older => Stopped older

structure Counted (s : State) : Prop where
  two : s.log.count .attempted ≤ 2
  attempts : ∀ pc, s.turn = some pc → s.log.count .attempted ≤ pc.attempts
  leaving : .observed ∈ s.log → ∀ pc, s.turn = some pc → pc.leaving = true
  stopped : Stopped s.log

theorem run_turn_log (h : run_turn client s choice pc = some s') :
    (s'.log = s.log ∧ ∀ pc', s'.turn = some pc' →
      pc.attempts ≤ pc'.attempts ∧ (pc.leaving = true → pc'.leaving = true)) ∨
    (∃ f r b, pc = .call f r b ∧ s'.log = .attempted :: s.log ∧
      s'.turn = some (.running f r b)) ∨
    (s'.log = .observed :: s.log ∧ ∃ r o, s'.turn = some (.shutdown r (.leave o))) := by
  cases pc with
  | call f r b =>
    cases h
    exact .inr (.inl ⟨f, r, b, rfl, rfl, rfl⟩)
  | check f r b =>
    simp only [run_turn] at h
    split at h
    · cases h
      exact .inr (.inr ⟨rfl, r, _, rfl⟩)
    · cases h
      exact .inl ⟨rfl, by rintro pc' ⟨⟩; exact ⟨Nat.le_refl _, id⟩⟩
  | running f r b =>
    simp only [run_turn] at h
    split at h
    · cases h
      refine .inl ⟨rfl, ?_⟩
      rintro pc' ⟨⟩
      cases f <;> exact ⟨by simp [Pc.attempts], nofun⟩
    · cases h
      exact .inl ⟨rfl, by rintro pc' ⟨⟩; exact ⟨Nat.le_refl _, id⟩⟩
    · obtain ⟨-, ⟨⟩⟩ := Option.ite_none_right_eq_some.mp h
      exact .inr (.inr ⟨rfl, r, _, rfl⟩)
  | _ =>
    left
    simp only [run_turn] at h
    repeat' split at h
    all_goals cases h
    all_goals refine ⟨rfl, ?_⟩
    all_goals rintro pc' ⟨⟩
    all_goals simp [Pc.attempts, Pc.leaving]
    all_goals split <;> decide

theorem Pc.attempts_le (pc : Pc) : pc.attempts ≤ 2 := by
  unfold Pc.attempts
  repeat' split
  all_goals decide

theorem Counted.frame (hs : Counted s) (hlog : s'.log = s.log)
    (hturn : ∀ pc', s'.turn = some pc' →
      ∃ pc, s.turn = some pc ∧ pc.attempts ≤ pc'.attempts ∧
        (pc.leaving = true → pc'.leaving = true)) :
    Counted s' := by
  refine ⟨?_, ?_, ?_, ?_⟩
  · rw [hlog]
    exact hs.two
  · intro pc' hpc'
    obtain ⟨pc, hpc, hle, -⟩ := hturn pc' hpc'
    rw [hlog]
    exact Nat.le_trans (hs.attempts pc hpc) hle
  · intro hobserved pc' hpc'
    obtain ⟨pc, hpc, -, hleaving⟩ := hturn pc' hpc'
    rw [hlog] at hobserved
    exact hleaving (hs.leaving hobserved pc hpc)
  · rw [hlog]
    exact hs.stopped

theorem Counted.turn (hs : Counted s) (hpc : s.turn = some pc)
    (h : run_turn client s choice pc = some s') : Counted s' := by
  have hattempts := hs.attempts pc hpc
  rcases run_turn_log h with ⟨hlog, hnext⟩ | ⟨f, r, b, rfl, hlog, hturn⟩ | ⟨hlog, r, o, hturn⟩
  · exact hs.frame hlog fun pc' hpc' => ⟨pc, hpc, hnext pc' hpc'⟩
  · -- the turn is not on its way out, so nothing was observed
    have hunseen : .observed ∉ s.log := by
      intro hobserved
      have hleaving := hs.leaving hobserved _ hpc
      cases hleaving
    have hcount : s'.log.count .attempted = s.log.count .attempted + 1 := by
      rw [hlog, count_cons_self]
    have hbound : s'.log.count .attempted ≤ (Pc.running f r b).attempts := by
      rw [hcount]
      cases f <;> exact Nat.succ_le_succ hattempts
    refine ⟨Nat.le_trans hbound (Pc.attempts_le _), ?_, ?_, ?_⟩
    · intro pc' hpc'
      rw [hturn] at hpc'
      cases hpc'
      exact hbound
    · intro hobserved
      rw [hlog] at hobserved
      rcases mem_cons.mp hobserved with heq | hobserved
      · cases heq
      · exact absurd hobserved hunseen
    · rw [hlog]
      exact ⟨hunseen, hs.stopped⟩
  · have hcount : s'.log.count .attempted = s.log.count .attempted := by
      rw [hlog, count_cons_of_ne (by decide)]
    refine ⟨?_, ?_, ?_, ?_⟩
    · rw [hcount]
      exact hs.two
    · intro pc' hpc'
      rw [hturn] at hpc'
      cases hpc'
      rw [hcount]
      exact hs.two
    · intro _ pc' hpc'
      rw [hturn] at hpc'
      cases hpc'
      rfl
    · rw [hlog]
      exact hs.stopped

theorem Counted.step (hs : Counted s) (h : step client s label = some s') : Counted s' := by
  cases label with
  | begin =>
    obtain ⟨-, ⟨⟩⟩ := Option.ite_none_right_eq_some.mp h
    exact ⟨Nat.zero_le _, fun _ _ => Nat.zero_le _, nofun, trivial⟩
  | turn choice =>
    obtain ⟨pc, hpc, hstep⟩ := Option.bind_eq_some_iff.mp h
    exact hs.turn hpc hstep
  | shutdown_session =>
    cases h
    exact ⟨hs.two, hs.attempts, hs.leaving, hs.stopped⟩
  | call =>
    obtain ⟨call, -, hstep⟩ := Option.bind_eq_some_iff.mp h
    unfold shutdown_session at hstep
    repeat' split at hstep
    all_goals cases hstep
    all_goals exact hs.frame rfl fun pc hpc => ⟨pc, hpc, Nat.le_refl _, id⟩

/-- In every run in which the provider reports no interruption by the user: a turn makes two
attempts at most, and none after it has seen its token cancelled; and when it has returned,
every runtime that is alive is the idle one of the session, or one that a call of
`shutdown_session` has taken from there to shut it down. -/
theorem runtimes_are_owned (client : Client) (s : State)
    (h : Machine.Reaches (step client) Truthful State.new s) :
    s.log.count .attempted ≤ 2 ∧ Stopped s.log ∧
      (s.turn = none → ∀ r ∈ s.alive, s.idle = some r ∨ Taken s r) := by
  have hs : Owned s ∧ Counted s := by
    apply h.invariant (fun s => Owned s ∧ Counted s)
      ⟨owned_new, Nat.zero_le _, nofun, nofun, trivial⟩
    rintro s label s' ⟨howned, hcounted⟩ hk hstep
    exact ⟨howned.step hk hstep, hcounted.step hstep⟩
  refine ⟨hs.2.two, hs.2.stopped, ?_⟩
  intro hreturned r hr
  have howner := hs.1.owner r hr
  rw [State.runtime, hreturned] at howner
  rcases howner with hturn | hother
  · cases hturn
  · exact hother

/-! ### Runs -/

/-- A provider whose runtimes are kept between turns. -/
def Client.resident : Client := ⟨"Codex", true, fun _ => false⟩

/-- Everything goes well, with a result of the provider. -/
def Choice.result (turn : Option (Except AppServerError Output)) : Choice :=
  ⟨false, true, true, .ok (), false, .ok (), .ok (), turn⟩

def Choice.good : Choice := .result (some (.ok ⟨"done", 1, 1⟩))

/-- The provider fails. -/
def Choice.bad : Choice := .result (some (.error (.Provider "gone")))

/-- The provider reports an interruption by the user. -/
def Choice.stopped : Choice := .result (some (.error (.InterruptedByUser "stopped")))

def check_truthful (_ : State) : Label → Bool
  | .turn choice =>
    match choice.turn with
    | some (.error e) => !e.interrupted
    | _ => true
  | _ => true

theorem truthful_of_check (h : check_truthful s label = true) : Truthful s label := by
  cases label with
  | turn choice =>
    intro f r b e _ herror
    rw [check_truthful, herror] at h
    simpa using h
  | _ => trivial

/-- The first attempt fails and the second one succeeds; its runtime is idle then. -/
theorem runtimes_are_owned_retry :
    ∃ s, Machine.Reaches (step .resident) Truthful State.new s ∧
      s.turn = none ∧ s.alive = [1] ∧ s.log.count .attempted = 2 ∧
      ∀ r ∈ s.alive, s.idle = some r ∨ Taken s r := by
  have hrun : (Machine.run (step .resident) check_truthful State.new
      ([.begin false false] ++ replicate 7 (.turn .good) ++ [.turn .bad] ++
        replicate 10 (.turn .good))).any
      (fun s => s.turn = none ∧ s.alive = [1] ∧ s.log.count .attempted = 2) = true := by
    decide +kernel
  obtain ⟨s, hreaches, hreturned, halive, hcount⟩ :=
    Machine.exists_reaches_of_run (K := Truthful) (fun _ _ => truthful_of_check) hrun
  exact ⟨s, hreaches, hreturned, halive, hcount,
    (runtimes_are_owned .resident s hreaches).2.2 hreturned⟩

/-- A provider that reports an interruption by the user leaves its runtime alive and without
an owner. And without such a report, `shutdown_session` may take the runtime that the turn has
stored before the turn returns. -/
theorem interrupted_runtime_leaks :
    (∃ s, Machine.Reaches (step .resident) Machine.anyStep State.new s ∧
      s.turn = none ∧ s.alive = [0] ∧ s.idle = none ∧ s.calls = []) ∧
    ∃ s, Machine.Reaches (step .resident) Truthful State.new s ∧
      s.turn = none ∧ s.alive = [0] ∧ s.idle = none ∧ s.calls = [⟨.shutdown 0, 1⟩] := by
  constructor
  · apply Machine.exists_reaches ([.begin false false] ++ replicate 7 (.turn .good) ++
      [.turn .stopped] ++ replicate 2 (.turn .good))
    decide +kernel
  · have hrun : (Machine.run (step .resident) check_truthful State.new
        ([.begin false false] ++ replicate 9 (.turn .good) ++
          [.shutdown_session, .call 0 false, .call 0 false, .turn .good])).any
        (fun s => s.turn = none ∧ s.alive = [0] ∧ s.idle = none ∧
          s.calls = [⟨.shutdown 0, 1⟩]) = true := by
      decide +kernel
    exact Machine.exists_reaches_of_run (fun _ _ => truthful_of_check) hrun

/-! ## Shutdown beside a turn -/

/-- The turn has no token yet. -/
def Pc.early : Pc → Bool
  | .isolate | .reset _ | .store_reset _ | .register | .shutdown _ .register => true
  | _ => false

theorem run_turn_token (h : run_turn client s choice pc = some s') :
    s'.turns = s.turns ∧
    ((s'.registered = s.registered ∧ s'.cancelled = s.cancelled ∧ s'.turn.isSome ∧
      (∀ pc', s'.turn = some pc' → pc'.early = true → pc.early = true) ∧
      (s'.idle = s.idle ∨ s'.idle = none ∨ pc.early = true ∨ ∃ r b o, pc = .complete r b o)) ∨
    (pc = .register ∧ s'.registered = true ∧ s'.cancelled = false ∧ s'.idle = s.idle ∧
      s'.turn = some .take) ∨
    (s'.turn = none ∧ s'.registered = false ∧ s'.cancelled = false ∧ s'.idle = s.idle)) := by
  cases pc with
  | leave =>
    cases h
    exact ⟨rfl, .inr (.inr ⟨rfl, rfl, rfl, rfl⟩)⟩
  | register =>
    simp only [run_turn] at h
    split at h
    · cases h
      exact ⟨rfl, .inl ⟨rfl, rfl, rfl, fun _ _ _ => rfl, .inl rfl⟩⟩
    · cases h
      exact ⟨rfl, .inr (.inl ⟨rfl, rfl, rfl, rfl, rfl⟩)⟩
  | complete =>
    simp only [run_turn] at h
    repeat' split at h
    all_goals
      cases h
      refine ⟨rfl, .inl ⟨rfl, rfl, rfl, ?_, .inr (.inr (.inr ⟨_, _, _, rfl⟩))⟩⟩
      rintro pc' ⟨⟩ hearly
      cases hearly
  | _ =>
    simp only [run_turn] at h
    repeat' split at h
    all_goals cases h
    all_goals refine ⟨rfl, .inl ⟨rfl, rfl, rfl, ?_, ?_⟩⟩
    all_goals first
      | (rintro pc' ⟨⟩ hearly; first | rfl | cases hearly)
      | exact .inl rfl
      | exact .inr (.inl rfl)
      | exact .inr (.inr (.inl rfl))

/-- The shutdown calls that have looked for the token of the last turn. -/
def Looked (s : State) (call : Call) : Prop := call.pc ≠ .cancel ∧ call.turns = s.turns

/-- The last turn is over or cancelled once a call has looked for its token, and the registry
is empty once a call has taken what was there. -/
structure Heard (s : State) : Prop where
  turns : ∀ (n : Nat) (call : Call), s.calls[n]? = some call → call.turns ≤ s.turns
  token : s.registered = false → s.cancelled = false
  early : ∀ pc, s.turn = some pc → pc.early = true → s.registered = false
  late : s.turn = none → s.registered = false
  cancelled : ∀ (n : Nat) (call : Call), s.calls[n]? = some call → Looked s call →
    s.turn = none ∨ s.cancelled = true
  emptied : ∀ (n : Nat) (call : Call), s.calls[n]? = some call → Looked s call →
    call.pc ≠ .take → s.idle = none

/-- A shutdown is called while the turn has its token, if there is a turn, and a turn that is
cancelled does not come to store its runtime. -/
def Heeded (s : State) : Label → Prop
  | .turn choice =>
    Truthful s (.turn choice) ∧
      ((∃ r b o, s.turn = some (.complete r b o)) → s.cancelled = false)
  | .call n poisoned =>
    poisoned = false ∧
      ∀ call, s.calls[n]? = some call → call.pc = .cancel → s.turn.isSome → s.registered = true
  | _ => True

theorem Heard.turn (hs : Heard s) (hpc : s.turn = some pc) (hk : Heeded s (.turn choice))
    (h : run_turn client s choice pc = some s') : Heard s' := by
  have hcalls := run_turn_calls h
  obtain ⟨hturns, heffect⟩ := run_turn_token h
  have hlooked : ∀ {n : Nat} {call : Call}, s'.calls[n]? = some call → Looked s' call →
      s.calls[n]? = some call ∧ Looked s call := by
    intro n call hcall hlook
    rw [hcalls] at hcall
    rw [Looked, hturns] at hlook
    exact ⟨hcall, hlook⟩
  have hepoch : ∀ (n : Nat) (call : Call), s'.calls[n]? = some call → call.turns ≤ s'.turns := by
    rw [hcalls, hturns]
    exact hs.turns
  -- while the turn is not cancelled no call has looked for its token
  have hquiet : s.cancelled = false →
      ∀ (n : Nat) (call : Call), s.calls[n]? = some call → ¬ Looked s call := by
    intro hno n call hcall hlook
    rcases hs.cancelled n call hcall hlook with hnone | hyes
    · rw [hpc] at hnone
      cases hnone
    · rw [hno] at hyes
      cases hyes
  have hearly : pc.early = true → s.cancelled = false := by
    intro hearly
    exact hs.token (hs.early pc hpc hearly)
  rcases heffect with ⟨hreg, hcan, hsome, hnext, hidle⟩ | ⟨rfl, hreg, hcan, hidle, hturn⟩ |
    ⟨hnone, hreg, hcan, hidle⟩
  · refine ⟨hepoch, ?_, ?_, ?_, ?_, ?_⟩
    · rw [hreg, hcan]
      exact hs.token
    · intro pc' hpc' hearly'
      rw [hreg]
      exact hs.early pc hpc (hnext pc' hpc' hearly')
    · intro hover
      rw [hover] at hsome
      cases hsome
    · intro n call hcall hlook
      obtain ⟨hcall, hlook⟩ := hlooked hcall hlook
      rw [hcan]
      rcases hs.cancelled n call hcall hlook with hover | hyes
      · rw [hpc] at hover
        cases hover
      · exact .inr hyes
    · intro n call hcall hlook htake
      obtain ⟨hcall, hlook⟩ := hlooked hcall hlook
      rcases hidle with hsame | hempty | hpre | ⟨r, b, o, rfl⟩
      · rw [hsame]
        exact hs.emptied n call hcall hlook htake
      · exact hempty
      · exact absurd hlook (hquiet (hearly hpre) n call hcall)
      · exact absurd hlook (hquiet (hk.2 ⟨r, b, o, hpc⟩) n call hcall)
  · have hno : ∀ n call, s'.calls[n]? = some call → ¬ Looked s' call := fun n call hcall hlook =>
      hquiet (hearly rfl) n call (hlooked hcall hlook).1 (hlooked hcall hlook).2
    refine ⟨hepoch, fun _ => hcan, ?_, ?_,
      fun n call hcall hlook => absurd hlook (hno n call hcall),
      fun n call hcall hlook => absurd hlook (hno n call hcall)⟩
    · intro pc' hpc' hearly'
      rw [hturn] at hpc'
      cases hpc'
      cases hearly'
    · intro hover
      rw [hturn] at hover
      cases hover
  · refine ⟨hepoch, fun _ => hcan, fun _ _ _ => hreg, fun _ => hreg, fun _ _ _ _ => .inl hnone, ?_⟩
    intro n call hcall hlook htake
    obtain ⟨hcall, hlook⟩ := hlooked hcall hlook
    rw [hidle]
    exact hs.emptied n call hcall hlook htake

section

variable {P : Call → Prop} {calls : List Call} {new : Call}
  (h : ∀ (m : Nat) (call : Call), calls[m]? = some call → P call) (hnew : P new)

include h hnew

/-- What holds of all calls still does after one was changed, -/
theorem forall_set : ∀ (m : Nat) (call : Call), (calls.set n new)[m]? = some call → P call := by
  intro m call hcall
  by_cases hmn : n = m
  · subst hmn
    rw [getElem?_set_self'] at hcall
    obtain ⟨_, -, rfl⟩ := Option.map_eq_some_iff.mp hcall
    exact hnew
  · rw [getElem?_set_ne hmn] at hcall
    exact h m call hcall

/-- and after one was added. -/
theorem forall_append : ∀ (m : Nat) (call : Call), (calls ++ [new])[m]? = some call → P call := by
  intro m call hcall
  rcases mem_append.mp (mem_of_getElem? hcall) with hmem | hmem
  · obtain ⟨i, hi⟩ := mem_iff_getElem?.mp hmem
    exact h i call hi
  · rw [mem_singleton.mp hmem]
    exact hnew

end

theorem Heard.call {call : Call} (hs : Heard s) (hcall : s.calls[n]? = some call)
    (hk : Heeded s (.call n poisoned)) (h : shutdown_session s n poisoned call = some s') :
    Heard s' := by
  obtain ⟨rfl, hregistered⟩ := hk
  -- a call that has looked for the token stays one
  have hlooked : ∀ other : Call, call.pc ≠ .cancel → other.turns = call.turns → Looked s other →
      Looked s call := by
    intro other hpc heq hlook
    refine ⟨hpc, ?_⟩
    rw [← heq]
    exact hlook.2
  unfold shutdown_session at h
  split at h
  · next hpc =>
    cases h
    refine ⟨forall_set hs.turns (Nat.le_refl _), ?_, hs.early, hs.late, ?_, ?_⟩
    · intro hno
      have hno : s.registered = false := hno
      simp [hs.token hno, hno]
    · intro m other hother hlook
      by_cases hturn : s.turn = none
      · exact .inl hturn
      · right
        have hyes := hregistered call hcall hpc (Option.isSome_iff_ne_none.mpr hturn)
        simp [hyes]
    · exact forall_set hs.emptied fun _ htake => absurd rfl htake
  · next hpc =>
    have hcancelled := fun other heq hlook =>
      hs.cancelled n call hcall (hlooked other (by rw [hpc]; nofun) heq hlook)
    simp only [Bool.false_eq_true, if_false] at h
    split at h
    · next hidle =>
      cases h
      exact ⟨forall_set hs.turns (hs.turns n call hcall), hs.token, hs.early, hs.late,
        forall_set hs.cancelled (hcancelled _ rfl), fun _ _ _ _ _ => hidle⟩
    · cases h
      exact ⟨forall_set hs.turns (hs.turns n call hcall), hs.token, hs.early, hs.late,
        forall_set hs.cancelled (hcancelled _ rfl), fun _ _ _ _ _ => rfl⟩
  · next runtime hpc =>
    have hlooked := hlooked ⟨.returned, call.turns⟩ (by rw [hpc]; nofun) rfl
    cases h
    refine ⟨forall_set hs.turns (hs.turns n call hcall), hs.token, hs.early, hs.late, ?_, ?_⟩
    · exact forall_set hs.cancelled fun hlook => hs.cancelled n call hcall (hlooked hlook)
    · refine forall_set hs.emptied fun hlook _ => ?_
      exact hs.emptied n call hcall (hlooked hlook) (by rw [hpc]; nofun)
  · cases h

theorem Heard.step (hs : Heard s) (hk : Heeded s label) (h : step client s label = some s') :
    Heard s' := by
  cases label with
  | begin =>
    obtain ⟨hnone, ⟨⟩⟩ := Option.ite_none_right_eq_some.mp h
    have hregistered := hs.late (Option.isNone_iff_eq_none.mp hnone)
    -- no call has looked for the token of a turn that begins
    have hnew : ∀ (n : Nat) (call : Call), s.calls[n]? = some call → call.turns ≠ s.turns + 1 := by
      intro n call hcall
      have hle := hs.turns n call hcall
      omega
    refine ⟨?_, hs.token, fun _ _ _ => hregistered, nofun, ?_, ?_⟩
    · intro n call hcall
      exact Nat.le_succ_of_le (hs.turns n call hcall)
    · intro n call hcall hlook
      exact absurd hlook.2 (hnew n call hcall)
    · intro n call hcall hlook
      exact absurd hlook.2 (hnew n call hcall)
  | turn choice =>
    obtain ⟨pc, hpc, hstep⟩ := Option.bind_eq_some_iff.mp h
    exact hs.turn hpc hk hstep
  | shutdown_session =>
    cases h
    exact ⟨forall_append hs.turns (Nat.zero_le _), hs.token, hs.early, hs.late,
      forall_append hs.cancelled fun hlook => absurd rfl hlook.1,
      forall_append hs.emptied fun hlook => absurd rfl hlook.1⟩
  | call =>
    obtain ⟨call, hcall, hstep⟩ := Option.bind_eq_some_iff.mp h
    exact hs.call hcall hk hstep

theorem truthful_of_heeded (h : Heeded s label) : Truthful s label := by
  cases label with
  | turn choice => exact h.1
  | _ => trivial

/-- In every run in which a cancelled turn does not come to store its runtime: once the turn
and the shutdown calls have returned, one of them called since the last turn began, no runtime
of the session is alive or idle. -/
theorem nothing_left_after_shutdown (client : Client) (s : State)
    (h : Machine.Reaches (step client) Heeded State.new s) (hturn : s.turn = none)
    (hcalls : ∀ call ∈ s.calls, call.pc = .returned)
    (hlast : ∃ call ∈ s.calls, call.turns = s.turns) : s.alive = [] ∧ s.idle = none := by
  have hs : Owned s ∧ Heard s := by
    apply h.invariant (fun s => Owned s ∧ Heard s)
      ⟨owned_new, nofun, fun _ => rfl, nofun, fun _ => rfl, nofun, nofun⟩
    rintro s label s' ⟨howned, hheard⟩ hk hstep
    exact ⟨howned.step (truthful_of_heeded hk) hstep, hheard.step hk hstep⟩
  obtain ⟨call, hmem, hturns⟩ := hlast
  obtain ⟨n, hn⟩ := mem_iff_getElem?.mp hmem
  have hreturned := hcalls call hmem
  have hidle : s.idle = none :=
    hs.2.emptied n call hn ⟨by rw [hreturned]; nofun, hturns⟩ (by rw [hreturned]; nofun)
  refine ⟨?_, hidle⟩
  apply eq_nil_iff_forall_not_mem.mpr
  intro r hr
  rcases hs.1.owner r hr with howner | howner | ⟨m, other, hother, hpc⟩
  · rw [State.runtime, hturn] at howner
    cases howner
  · rw [hidle] at howner
    cases howner
  · rw [hcalls other (mem_of_getElem? hother)] at hpc
    cases hpc

def check_heeded (s : State) : Label → Bool
  | .turn choice =>
    check_truthful s (.turn choice) &&
      (match s.turn with
      | some (.complete _ _ _) => !s.cancelled
      | _ => true)
  | .call n poisoned =>
    !poisoned && (s.calls[n]?).all fun call =>
      call.pc != .cancel || s.turn.isNone || s.registered
  | _ => true

theorem heeded_of_check (h : check_heeded s label = true) : Heeded s label := by
  cases label with
  | turn choice =>
    obtain ⟨htruthful, htoken⟩ := Bool.and_eq_true_iff.mp h
    refine ⟨truthful_of_check htruthful, ?_⟩
    rintro ⟨r, b, o, hturn⟩
    rw [hturn] at htoken
    simpa using htoken
  | call =>
    obtain ⟨hpoisoned, hall⟩ := Bool.and_eq_true_iff.mp h
    refine ⟨by simpa using hpoisoned, ?_⟩
    intro call hcall hpc hsome
    rw [hcall, Option.all_some, hpc] at hall
    obtain ⟨pc, hpc'⟩ := Option.isSome_iff_exists.mp hsome
    simpa [hpc'] using hall
  | _ => trivial

/-- A turn is cancelled while the provider works. -/
theorem nothing_left_after_shutdown_running :
    ∃ s, Machine.Reaches (step .resident) Heeded State.new s ∧
      s.turn = none ∧ s.outcome = some (.error interrupted_by_user_error) ∧
      s.alive = [] ∧ s.idle = none := by
  have hrun : (Machine.run (step .resident) check_heeded State.new
      ([.begin false false] ++ replicate 7 (.turn .good) ++
        [.shutdown_session, .call 0 false, .call 0 false, .turn (.result none)] ++
        replicate 2 (.turn .good))).any
      (fun s => s.turn = none ∧ s.outcome = some (.error interrupted_by_user_error) ∧
        (∀ call ∈ s.calls, call.pc = .returned) ∧ ∃ call ∈ s.calls, call.turns = s.turns) =
      true := by
    decide +kernel
  obtain ⟨s, hreaches, hturn, houtcome, hcalls, hlast⟩ :=
    Machine.exists_reaches_of_run (K := Heeded) (fun _ _ => heeded_of_check) hrun
  obtain ⟨halive, hidle⟩ := nothing_left_after_shutdown .resident s hreaches hturn hcalls hlast
  exact ⟨s, hreaches, hturn, houtcome, halive, hidle⟩

/-- The provider has finished when the shutdown cancels the turn and finds the registry empty;
then the turn stores its runtime. -/
theorem runtime_outlives_shutdown :
    ∃ s, Machine.Reaches (step .resident) Machine.anyStep State.new s ∧
      s.turn = none ∧ s.calls = [⟨.returned, s.turns⟩] ∧ s.alive = [0] ∧ s.idle = some 0 := by
  apply Machine.exists_reaches ([.begin false false] ++ replicate 8 (.turn .good) ++
    [.shutdown_session, .call 0 false, .call 0 false] ++ replicate 2 (.turn .good))
  decide +kernel

end Agentty.AppServer
