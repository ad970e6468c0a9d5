/-
Cancellation of the utility runs of a session.

Once `cancel_session_and_wait` has returned for a session, no run of it becomes `Running`
any more. Two facts carry this. The runs that hold a token are runs of the entry that the
map has, since an entry is removed only when nobody holds a token of it. And once a
cancellation was requested, the entry is canceled, or the closure is recorded: an entry
that is canceled is removed only after its closure was recorded, and one that is made later
belongs to a session that the repository rejects.
-/
import Agentty.System
import Agentty.Worker.Utility

set_option autoImplicit false

namespace Agentty.Worker.Utility

open List Function

variable {Id : Type} [DecidableEq Id]

/-! ## The shape of a run -/

/-- The task of a run still holds its token. -/
def RunPc.live : RunPc → Bool
  | .release | .done => false
  | _ => true

/-- The work has not issued the write of `Running`, or is over. -/
def Work.still : Work → Bool
  | .permit | .finished _ => true
  | _ => false

/-- The states that end a run. -/
def RunState.ends : RunState → Bool
  | .Completed | .Failed | .Canceled => true
  | _ => false

/-- What the point of a run says about its work and its record. -/
def Run.Shaped (run : Run Id) : Prop :=
  match run.pc with
  | .create => run.row = none ∧ run.work = .permit
  | .select | .poll => run.row ≠ none
  | .drain => run.canceled = true
  | .terminal state => run.work.still = true ∧ state.ends = true
  | .drop | .release | .done =>
    run.work.still = true ∧ (run.row = some .Running → run.unrecorded = true)

/-- A run that the repository has rejected, or will reject. -/
def Run.Rejected (run : Run Id) : Prop :=
  run.row = none ∧ run.work = .permit ∧
    (run.pc = .create ∨ run.pc = .drop ∨ run.pc = .release ∨ run.pc = .done)

/-- A run that is not `Running` and will not be, if its token is canceled or not. -/
def Run.Calm (run : Run Id) (cancelled : Bool) : Prop :=
  (run.row = some .Running → run.unrecorded = true) ∧ run.work.still = true ∧
    run.pc ≠ .poll ∧ (run.pc = .select → cancelled = true)

/-- The record of a run after its terminal transition. -/
theorem RunState.transition_ne_running {state : RunState} (h : state.ends = true)
    (row : RunState) : state.transition row ≠ .Running := by
  revert h
  cases state <;> cases row <;> decide

variable {s : State Id} {run' : Run Id} {act : Act} {capacity : Nat}

section

variable {run : Run Id} (h : run_step s run act = some (run', capacity))

include h

theorem run_step_shaped (hrun : run.Shaped) : run'.Shaped := by
  cases act with
  | create ok =>
    simp only [run_step] at h
    grind -linarith [Run.Shaped, Work.still]
  | select | drop | release =>
    simp only [run_step] at h
    grind -linarith [Run.Shaped]
  | poll =>
    simp only [run_step] at h
    grind -linarith [Run.Shaped, Work.still, RunState.ends]
  | write ok =>
    simp only [run_step] at h
    split at h
    · next hissued =>
      cases h
      -- the write is under way only between the permit and the turn
      unfold Run.Shaped at hrun ⊢
      cases hpc : run.pc <;> simp only [hpc, hissued, Work.still] at hrun ⊢ <;>
        first
          | exact hrun
          | (simp at hrun; done)
          | (split <;> simpa using hrun)
    · cases h
  | terminal ok =>
    simp only [run_step] at h
    split at h
    · next state hpc =>
      simp only [Run.Shaped, hpc] at hrun
      split at h
      · cases h
        refine ⟨hrun.1, ?_⟩
        intro hrow
        obtain ⟨row, -, heq⟩ := Option.map_eq_some_iff.mp hrow
        exact absurd heq (RunState.transition_ne_running hrun.2 row)
      · cases h
        exact ⟨hrun.1, fun _ => rfl⟩
    · cases h

theorem run_step_rejected (hclosed : session_closed s run = true) (hrun : run.Rejected) :
    run'.Rejected := by
  cases act <;> simp only [run_step] at h <;> grind -linarith [Run.Rejected]

/-- A calm run stays so, if its token is canceled or the repository rejects it. -/
theorem run_step_calm (hshaped : run.Shaped)
    (hbarred : run.pc = .create → session_closed s run = true ∨ session_cancelled s run = true)
    (hrun : run.Calm (session_cancelled s run)) : run'.Calm (session_cancelled s run) := by
  obtain ⟨hrow, hwork, hpoll, hselect⟩ := hrun
  cases act with
  | create | select | drop | release =>
    simp only [run_step] at h
    grind -linarith [Run.Calm]
  | poll =>
    -- the work was told to stop before it began, or is over
    simp only [run_step] at h
    cases hpc : run.pc with
    | drain =>
      simp only [Run.Shaped, hpc] at hshaped
      simp only [hpc, hshaped] at h
      cases hw : run.work with
      | permit | finished =>
        rw [hw] at h
        cases h
        exact ⟨hrow, rfl, by simp, by simp⟩
      | issued | written | turn =>
        rw [hw] at hwork
        cases hwork
    | poll => exact absurd hpc hpoll
    | _ =>
      simp only [hpc] at h
      cases h
  | write ok =>
    simp only [run_step] at h
    split at h
    · next hissued =>
      rw [hissued] at hwork
      cases hwork
    · cases h
  | terminal ok =>
    simp only [run_step] at h
    split at h
    · next state hpc =>
      simp only [Run.Shaped, hpc] at hshaped
      split at h
      · cases h
        refine ⟨?_, hwork, by simp, by simp⟩
        intro hrunning
        obtain ⟨row, -, heq⟩ := Option.map_eq_some_iff.mp hrunning
        exact absurd heq (RunState.transition_ne_running hshaped.2 row)
      · cases h
        exact ⟨fun _ => rfl, hwork, by simp, by simp⟩
    · cases h

end

/-! ## The invariant -/

/-- The entry of a session is canceled. -/
def entry_cancelled (s : State Id) (session : Id) : Bool :=
  match s.sessions session with
  | some object => (s.objects object).cancelled
  | none => false

/-- Who belongs to which `SessionExecution`. -/
structure Owned (s : State Id) : Prop where
  entry : ∀ x o, s.sessions x = some o → s.owner o = some x
  run : ∀ r run x o, s.runs r = some run → run.session = some (x, o) → s.owner o = some x
  caller : ∀ j caller, s.callers j = some caller → s.owner caller.object = some caller.session
  fresh : ∀ o, s.next_object ≤ o → s.owner o = none
  fresh_run : ∀ r, s.next_run ≤ r → s.runs r = none

/-- What the entries say about requests and closures. -/
structure Entries (s : State Id) : Prop where
  /-- A run with a token is a run of the current entry. -/
  live : ∀ r run x o, s.runs r = some run → run.session = some (x, o) → run.pc.live = true →
    s.sessions x = some o ∧ r ∈ (s.objects o).tasks
  requested : ∀ o x, s.owner o = some x → (s.objects o).cancelled = true → x ∈ s.requested
  closed : ∀ o x, s.owner o = some x → (s.objects o).closed = true → x ∈ s.closed_sessions
  caller : ∀ j caller, s.callers j = some caller → (s.objects caller.object).cancelled = true
  storing : ∀ j caller, s.callers j = some caller → caller.pc = .store →
    caller.session ∈ s.closed_sessions
  barred : ∀ x ∈ s.requested, x ∈ s.closed_sessions ∨ entry_cancelled s x = true
  /-- A caller has the current entry, or one that was made after the closure. -/
  current : ∀ j caller, s.callers j = some caller →
    s.sessions caller.session = some caller.object ∨
      (caller.session ∈ s.closed_sessions ∧
        ∀ o, s.sessions caller.session = some o → s.late o = true)
  late : ∀ o x, s.owner o = some x → s.late o = true → x ∈ s.closed_sessions

/-- A caller of the session has seen its tasks gone, or has returned. -/
def Waited (s : State Id) (x : Id) : Prop :=
  .returned x ∈ s.log ∨ ∃ j caller, s.callers j = some caller ∧ caller.session = x ∧
    caller.pc = .release

/-- The cancellation of a session was requested, and all its runs are calm. -/
def CalmSession (s : State Id) (x : Id) : Prop :=
  x ∈ s.requested ∧ ∀ r run o, s.runs r = some run → run.session = some (x, o) →
    run.Calm (s.objects o).cancelled

/-- What holds of each run, and of the log. -/
structure Runs (s : State Id) : Prop where
  shaped : ∀ r run, s.runs r = some run → run.Shaped
  rejected : ∀ r run x o, s.runs r = some run → run.session = some (x, o) → s.late o = true →
    run.Rejected
  calm : ∀ x, Waited s x → CalmSession s x
  cause : ∀ r run, s.runs r = some run → run.cause = some .session →
    ∃ x o, run.session = some (x, o) ∧ x ∈ s.requested
  trace : Every (fun event older => ∀ r x, event = .running r x → .returned x ∉ older) s.log

structure Inv (s : State Id) : Prop where
  owned : Owned s
  entries : Entries s
  runs : Runs s

/-! ## Moves on the map of sessions -/

/-- The entry of a session, which may be a new one, that nobody has yet. -/
theorem Inv.entry (h : Inv s) (x : Id) :
    Inv (s.entry x).1 ∧ (s.entry x).1.sessions x = some (s.entry x).2 := by
  unfold State.entry
  cases hx : s.sessions x with
  | some o => exact ⟨h, hx⟩
  | none =>
    obtain ⟨⟨hentry, hrun, hcaller, hfresh, hfreshrun⟩,
      ⟨hlive, hrequested, hclosed, hcancelled, hstoring, hbarred, hcurrent, hlate⟩,
      ⟨hshaped, hrejected, hcalm, hcause, htrace⟩⟩ := h
    have hold : ∀ o y, s.owner o = some y → o ≠ s.next_object := by
      intro o y howner heq
      rw [heq, hfresh _ (Nat.le_refl _)] at howner
      cases howner
    refine ⟨⟨⟨?_, ?_, ?_, ?_, hfreshrun⟩, ⟨?_, ?_, ?_, ?_, hstoring, ?_, ?_, ?_⟩,
      ⟨hshaped, ?_, ?_, hcause, htrace⟩⟩, update_self ..⟩
    case refine_13 =>
      intro y hy
      obtain ⟨hmem, hruns⟩ := hcalm y hy
      refine ⟨hmem, ?_⟩
      intro r run o hr hsession
      simp only
      rw [update_of_ne (hold o y (hrun r run y o hr hsession))]
      exact hruns r run o hr hsession
    -- a session without an entry whose cancellation was requested is closed
    all_goals grind -linarith [update_apply, SessionExecution.default, entry_cancelled]

omit [DecidableEq Id] in
/-- A change of a `SessionExecution` that keeps its token and the tasks of live runs, and
marks it closed only for a session whose closure is recorded. -/
theorem Inv.modify (h : Inv s) (object : Nat) (f : SessionExecution → SessionExecution)
    (hcancel : (f (s.objects object)).cancelled = (s.objects object).cancelled)
    (hclose : (f (s.objects object)).closed = true → (s.objects object).closed = true ∨
      ∀ x, s.owner object = some x → x ∈ s.closed_sessions)
    (htasks : ∀ r run x, s.runs r = some run → run.session = some (x, object) → run.pc.live = true →
      r ∈ (s.objects object).tasks → r ∈ (f (s.objects object)).tasks) :
    Inv (s.modify object f) := by
  -- no token changes
  have hsame : ∀ o, ((s.modify object f).objects o).cancelled = (s.objects o).cancelled := by
    intro o
    by_cases ho : o = object
    · rw [ho, State.modify_self, hcancel]
    · rw [State.modify_of_ne s f ho]
  refine ⟨{ h.owned with }, { h.entries with
    live := ?_, requested := ?_, closed := ?_, caller := ?_, barred := ?_ },
    { h.runs with calm := ?_ }⟩
  · intro r run x o hr hsession hpc
    obtain ⟨hsessions, hmem⟩ := h.entries.live r run x o hr hsession hpc
    refine ⟨hsessions, ?_⟩
    by_cases ho : o = object
    · subst ho
      rw [State.modify_self]
      exact htasks r run x hr hsession hpc hmem
    · rw [State.modify_of_ne s f ho]
      exact hmem
  · intro o x howner ho
    rw [hsame] at ho
    exact h.entries.requested o x howner ho
  · intro o x howner ho
    by_cases heq : o = object
    · subst heq
      rw [State.modify_self] at ho
      rcases hclose ho with hold | hrecorded
      · exact h.entries.closed o x howner hold
      · exact hrecorded x howner
    · rw [State.modify_of_ne s f heq] at ho
      exact h.entries.closed o x howner ho
  · intro j caller hj
    rw [hsame]
    exact h.entries.caller j caller hj
  · intro x hx
    have hentry : entry_cancelled (s.modify object f) x = entry_cancelled s x := by
      unfold entry_cancelled
      rw [show (s.modify object f).sessions = s.sessions from rfl]
      cases s.sessions x with
      | some o => exact hsame o
      | none => rfl
    rw [hentry]
    exact h.entries.barred x hx
  · intro x hx
    obtain ⟨hmem, hruns⟩ := h.runs.calm x hx
    refine ⟨hmem, ?_⟩
    intro r run o hr hsession
    rw [hsame]
    exact hruns r run o hr hsession

variable {x : Id}

theorem Inv.cancel (h : Inv s) {object : Nat} (hx : s.sessions x = some object) :
    Inv { s.modify object (fun e => { e with cancelled := true }) with
      requested := x :: s.requested } := by
  have howner := h.owned.entry x object hx
  obtain ⟨hlive, hrequested, hclosed, hcancelled, hstoring, hbarred, hcurrent, hlate⟩ := h.entries
  simp only [State.modify]
  refine ⟨{ h.owned with }, ⟨?_, ?_, ?_, ?_, hstoring, ?_, hcurrent, hlate⟩,
    { h.runs with calm := ?_, cause := ?_ }⟩
  case refine_5 =>
    intro y hy
    by_cases hyx : y = x
    · subst hyx
      right
      simp [entry_cancelled, hx]
    · have hy' := hbarred y ((mem_cons.mp hy).resolve_left hyx)
      grind -linarith [update_apply, entry_cancelled]
  case refine_6 =>
    intro y hy
    obtain ⟨hmem, hruns⟩ := h.runs.calm y hy
    refine ⟨mem_cons_of_mem _ hmem, ?_⟩
    intro r run o hr hsession
    have hcalm' := hruns r run o hr hsession
    grind -linarith [update_apply, Run.Calm]
  case refine_7 =>
    intro r run hr hcause
    obtain ⟨y, o, hsession, hmem⟩ := h.runs.cause r run hr hcause
    exact ⟨y, o, hsession, mem_cons_of_mem _ hmem⟩
  all_goals grind -linarith [update_apply]

theorem Inv.cancel_session (h : Inv s) (x : Id) :
    Inv (cancel_session s x).1 ∧ (cancel_session s x).1.sessions x = some (cancel_session s x).2 ∧
      ((cancel_session s x).1.objects (cancel_session s x).2).cancelled = true := by
  obtain ⟨hentry, hx⟩ := h.entry x
  refine ⟨hentry.cancel hx, hx, ?_⟩
  simp [Utility.cancel_session, State.modify]

/-- An entry that nobody has a token of is removed, if it is not canceled or the closure
is recorded. -/
theorem Inv.release_session (h : Inv s) (x : Id) (object : Nat) :
    Inv (release_session s x object) := by
  unfold Utility.release_session
  split
  case isFalse => exact h
  case isTrue hcond =>
    obtain ⟨hempty, hopen, hx⟩ := hcond
    have hentry := h.owned.entry
    -- an entry that is canceled is removed only when the closure is recorded
    have hrecorded : (s.objects object).cancelled = true → x ∈ s.closed_sessions := by
      intro hset
      rcases hopen with hunset | hclosed
      · rw [hset] at hunset
        cases hunset
      · exact h.entries.closed object x (hentry x object hx) hclosed
    refine ⟨{ h.owned with entry := by grind -linarith [update_apply] },
      { h.entries with live := ?_, barred := ?_, current := ?_ }, { h.runs with }⟩
    · intro r run y o hr hsession hpc
      obtain ⟨hsessions, hmem⟩ := h.entries.live r run y o hr hsession hpc
      by_cases hyx : y = x
      · -- a live run of the session would have a token
        subst hyx
        rw [hx] at hsessions
        cases hsessions
        rw [hempty] at hmem
        cases hmem
      · exact ⟨(update_of_ne hyx ..).trans hsessions, hmem⟩
    · intro y hy
      have hy' := h.entries.barred y hy
      by_cases hyx : y = x
      · subst hyx
        left
        rcases hy' with hmem | hset
        · exact hmem
        · simp only [entry_cancelled, hx] at hset
          exact hrecorded hset
      · grind -linarith [update_apply, entry_cancelled]
    · intro j caller hj
      have hj' := h.entries.current j caller hj
      by_cases hyx : caller.session = x
      · right
        refine ⟨?_, fun o ho => by simp [hyx] at ho⟩
        rcases hj' with hsame | ⟨hmem, -⟩
        · -- the caller has canceled this entry
          rw [hyx, hx] at hsame
          cases hsame
          rw [hyx]
          exact hrecorded (h.entries.caller j caller hj)
        · exact hmem
      · grind -linarith [update_apply]

/-! ## Moves of the runs -/

variable {r : Nat}

omit [DecidableEq Id] in
theorem Inv.submitted (h : Inv s) {scope : Option (Id × Nat)}
    (hscope : ∀ x o, scope = some (x, o) → s.sessions x = some o ∧
      s.next_run ∈ (s.objects o).tasks) :
    Inv { s with
      runs := update s.runs s.next_run (some (.submitted scope))
      next_run := s.next_run + 1 } := by
  obtain ⟨hentry, hrun, hcaller, hfresh, hfreshrun⟩ := h.owned
  have hlive := h.entries.live
  refine ⟨by constructor <;> grind -linarith [update_apply, Run.submitted],
    { h.entries with live := by grind -linarith [update_apply, Run.submitted] },
    { h.runs with shaped := ?_, rejected := ?_, calm := ?_, cause := ?_ }⟩
  · intro r run hr
    rcases update_eq_some hr with ⟨rfl, rfl⟩ | ⟨-, hr⟩
    · exact ⟨rfl, rfl⟩
    · exact h.runs.shaped r run hr
  · intro r run x o hr hsession hlate'
    rcases update_eq_some hr with ⟨rfl, rfl⟩ | ⟨-, hr⟩
    · exact ⟨rfl, rfl, .inl rfl⟩
    · exact h.runs.rejected r run x o hr hsession hlate'
  · intro x hx
    obtain ⟨hmem, hruns⟩ := h.runs.calm x hx
    refine ⟨hmem, ?_⟩
    intro r run o hr hsession
    rcases update_eq_some hr with ⟨rfl, rfl⟩ | ⟨-, hr⟩
    · exact ⟨nofun, rfl, nofun, nofun⟩
    · exact hruns r run o hr hsession
  · intro r run hr hcause'
    rcases update_eq_some hr with ⟨rfl, rfl⟩ | ⟨-, hr⟩
    · cases hcause'
    · exact h.runs.cause r run hr hcause'

theorem Inv.submit (h : Inv s) (session : Option Id) : Inv (submit s session) := by
  cases session with
  | none => exact h.submitted nofun
  | some x =>
    obtain ⟨hentry, hx⟩ := h.entry x
    have htoken : Inv (admit_session s x).1 := by
      refine hentry.modify (s.entry x).2
        (fun e => { e with tasks := (s.entry x).1.next_run :: e.tasks }) rfl Or.inl ?_
      intro r run y _ _ _ hmem
      exact mem_cons_of_mem _ hmem
    refine htoken.submitted ?_
    intro y o hscope
    cases hscope
    refine ⟨hx, ?_⟩
    simp [admit_session, State.modify]

/-- What a step of a task leaves as it is. -/
theorem run_step_frame {run : Run Id} (h : run_step s run act = some (run', capacity)) :
    run'.session = run.session ∧ (run'.pc.live = true → run.pc.live = true) ∧
      (run'.cause = some .session → run.cause = some .session ∨
        session_cancelled s run = true) := by
  cases act <;> simp only [run_step] at h <;> grind -linarith [RunPc.live]

variable {o : Nat}

omit [DecidableEq Id] in
theorem session_cancelled_eq {run : Run Id} (h : run.session = some (x, o)) :
    session_cancelled s run = (s.objects o).cancelled := by
  rw [session_cancelled, h]
  rfl

theorem session_closed_eq {run : Run Id} (h : run.session = some (x, o)) :
    session_closed s run = decide (x ∈ s.closed_sessions) := by
  rw [session_closed, h]
  rfl

/-- A run that is about to be created, of a session whose cancellation was requested, is
canceled or rejected. -/
theorem Inv.barred_create (h : Inv s) {run : Run Id} (hr : s.runs r = some run)
    (hsession : run.session = some (x, o)) (hx : x ∈ s.requested) (hpc : run.pc = .create) :
    session_closed s run = true ∨ session_cancelled s run = true := by
  rw [session_closed_eq hsession, session_cancelled_eq hsession, decide_eq_true_eq]
  refine (h.entries.barred x hx).imp_right ?_
  have hlive : run.pc.live = true := by rw [hpc]; rfl
  obtain ⟨hentry, -⟩ := h.entries.live r run x o hr hsession hlive
  intro hset
  simpa only [entry_cancelled, hentry] using hset

theorem Inv.run (h : Inv s) {run : Run Id} (hr : s.runs r = some run)
    (hstep : run_step s run act = some (run', capacity)) :
    Inv { s with
      runs := update s.runs r (some run')
      capacity
      log := run_event r run act ++ s.log } := by
  obtain ⟨hsame, hlive', hcause'⟩ := run_step_frame hstep
  obtain ⟨hentry, hrun, hcaller, hfresh, hfreshrun⟩ := h.owned
  have hlive := h.entries.live
  have hevent : ∀ x, Event.returned x ∈ run_event r run act ++ s.log → .returned x ∈ s.log := by
    intro x hx
    rcases mem_append.mp hx with hnew | hold
    · unfold run_event at hnew
      split at hnew <;> simp at hnew
    · exact hold
  refine ⟨by constructor <;> grind -linarith [update_apply],
    { h.entries with live := by grind -linarith [update_apply] }, ⟨?_, ?_, ?_, ?_, ?_⟩⟩
  · intro r' run'' hr'
    rcases update_eq_some hr' with ⟨-, rfl⟩ | ⟨-, hr'⟩
    · exact run_step_shaped hstep (h.runs.shaped r run hr)
    · exact h.runs.shaped r' run'' hr'
  · intro r' run'' x o hr' hsession hlate'
    rcases update_eq_some hr' with ⟨-, rfl⟩ | ⟨-, hr'⟩
    · rw [hsame] at hsession
      refine run_step_rejected hstep ?_ (h.runs.rejected r run x o hr hsession hlate')
      rw [session_closed_eq hsession, decide_eq_true_eq]
      exact h.entries.late o x (hrun r run x o hr hsession) hlate'
    · exact h.runs.rejected r' run'' x o hr' hsession hlate'
  · intro x hx
    obtain ⟨hmem, hruns⟩ := h.runs.calm x (hx.imp_left (hevent x))
    refine ⟨hmem, ?_⟩
    intro r' run'' o hr' hsession
    rcases update_eq_some hr' with ⟨-, rfl⟩ | ⟨-, hr'⟩
    · rw [hsame] at hsession
      have hcalm' := hruns r run o hr hsession
      rw [← session_cancelled_eq hsession] at hcalm'
      have hkept := run_step_calm hstep (h.runs.shaped r run hr)
        (h.barred_create hr hsession hmem) hcalm'
      rw [session_cancelled_eq hsession] at hkept
      exact hkept
    · exact hruns r' run'' o hr' hsession
  · intro r' run'' hr' hset
    rcases update_eq_some hr' with ⟨-, rfl⟩ | ⟨-, hr'⟩
    · rw [hsame]
      rcases hcause' hset with hold | hcancelled'
      · exact h.runs.cause r run hr hold
      · -- the token of its session is canceled only on request
        obtain ⟨⟨x, o⟩, hsession, ho⟩ := (Option.any_eq_true _ _).mp hcancelled'
        exact ⟨x, o, hsession, h.entries.requested o x (hrun r run x o hr hsession) ho⟩
    · exact h.runs.cause r' run'' hr' hset
  · unfold run_event
    split
    · next x o hsession hrow =>
      refine ⟨?_, h.runs.trace⟩
      intro r' y heq hreturned
      cases heq
      -- a write of `Running` is under way, so the session is not calm
      have hcalm' := (h.runs.calm x (.inl hreturned)).2 r run o hr hsession
      have hissued : run.work = .issued := by
        simp only [run_step] at hstep
        grind -linarith
      have hstill := hcalm'.2.1
      rw [hissued] at hstill
      cases hstill
    · exact h.runs.trace

/-- A step of the task of a run, with what it does to the map of sessions. -/
theorem Inv.run_effect (h : Inv s) {run : Run Id} (hr : s.runs r = some run)
    (hstep : run_step s run act = some (run', capacity)) :
    Inv { run_effect s r run.session act with
      runs := update (run_effect s r run.session act).runs r (some run')
      capacity
      log := run_event r run act ++ (run_effect s r run.session act).log } := by
  have hmoved := h.run hr hstep
  cases act with
  | create | select | poll | write | terminal => exact hmoved
  | drop =>
    cases hsession : run.session with
    | none => exact hmoved
    | some scope =>
      obtain ⟨x, object⟩ := scope
      -- the run has left its task, so no live run loses its token
      have hpc : run'.pc.live = false := by
        simp only [run_step] at hstep
        grind -linarith [RunPc.live]
      refine hmoved.modify object
        (fun e => { e with tasks := e.tasks.filter (· ≠ r) }) rfl Or.inl ?_
      intro r' run'' y hr' _ hlive hmem
      refine mem_filter.mpr ⟨hmem, ?_⟩
      rw [decide_eq_true_eq]
      rcases update_eq_some hr' with ⟨-, rfl⟩ | ⟨hne, -⟩
      · rw [hpc] at hlive
        cases hlive
      · exact hne
  | release =>
    cases hsession : run.session with
    | none => exact hmoved
    | some scope =>
      obtain ⟨x, object⟩ := scope
      have hreleased := hmoved.release_session x object
      simp only [Utility.run_effect, Utility.release_session] at hreleased ⊢
      split at hreleased
      · next hcond =>
        rw [if_pos hcond]
        exact hreleased
      · next hcond =>
        rw [if_neg hcond]
        exact hreleased

/-! ## Moves of the callers -/

variable {j : Nat}

omit [DecidableEq Id] in
theorem Inv.set_caller (h : Inv s) {caller : Option (Caller Id)}
    (hnew : ∀ c, caller = some c → s.owner c.object = some c.session ∧
      (s.objects c.object).cancelled = true ∧ (c.pc = .store → c.session ∈ s.closed_sessions) ∧
      (s.sessions c.session = some c.object ∨
        (c.session ∈ s.closed_sessions ∧ ∀ o, s.sessions c.session = some o → s.late o = true)) ∧
      (c.pc = .release → CalmSession s c.session)) :
    Inv (s.set_caller j caller) := by
  have hcases : ∀ i c, (s.set_caller j caller).callers i = some c →
      caller = some c ∨ s.callers i = some c := by
    intro i c hi
    by_cases hij : i = j
    · rw [hij] at hi
      simp only [State.set_caller, update_self] at hi
      exact .inl hi
    · simp only [State.set_caller, update_of_ne hij] at hi
      exact .inr hi
  refine ⟨{ h.owned with caller := ?_ },
    { h.entries with caller := ?_, storing := ?_, current := ?_ }, { h.runs with calm := ?_ }⟩
  case refine_5 =>
    intro x hx
    rcases hx with hreturned | ⟨i, c, hi, rfl, hpc⟩
    · exact h.runs.calm x (.inl hreturned)
    · rcases hcases i c hi with hset | hold
      · exact (hnew c hset).2.2.2.2 hpc
      · exact h.runs.calm c.session (.inr ⟨i, c, hold, rfl, hpc⟩)
  all_goals
    intro i c hi
    rcases hcases i c hi with hset | hold
  · exact (hnew c hset).1
  · exact h.owned.caller i c hold
  · exact (hnew c hset).2.1
  · exact h.entries.caller i c hold
  · exact (hnew c hset).2.2.1
  · exact h.entries.storing i c hold
  · exact (hnew c hset).2.2.2.1
  · exact h.entries.current i c hold

omit [DecidableEq Id] in
theorem Run.Shaped.calm {run : Run Id} (h : run.Shaped) (hpc : run.pc.live = false)
    (cancelled : Bool) : run.Calm cancelled := by
  unfold Run.Shaped at h
  cases hpc' : run.pc with
  | release | done =>
    simp only [hpc'] at h
    exact ⟨h.2, h.1, by simp [hpc'], by simp [hpc']⟩
  | _ =>
    rw [hpc'] at hpc
    cases hpc

omit [DecidableEq Id] in
theorem Run.Rejected.calm {run : Run Id} (h : run.Rejected) (cancelled : Bool) :
    run.Calm cancelled := by
  obtain ⟨hrow, hwork, hpc⟩ := h
  refine ⟨by simp [hrow], by rw [hwork]; rfl, ?_, ?_⟩ <;>
    rcases hpc with hpc | hpc | hpc | hpc <;> simp [hpc]

variable {caller : Caller Id}

omit [DecidableEq Id] in
/-- A caller that finds the tasks of its entry gone finds the runs of the session calm. -/
theorem Inv.calm_of_wait (h : Inv s) (hj : s.callers j = some caller)
    (hempty : (s.objects caller.object).tasks = []) : CalmSession s caller.session := by
  have howner := h.owned.caller j caller hj
  refine ⟨h.entries.requested _ _ howner (h.entries.caller j caller hj), ?_⟩
  intro r run o hr hsession
  cases hlive : run.pc.live with
  | false => exact (h.runs.shaped r run hr).calm hlive _
  | true =>
    obtain ⟨hentry, hmem⟩ := h.entries.live r run _ o hr hsession hlive
    rcases h.entries.current j caller hj with hsame | ⟨-, hlate⟩
    · -- the entry is the caller's own, of which nobody has a token
      rw [hsame] at hentry
      cases hentry
      rw [hempty] at hmem
      cases hmem
    · exact (h.runs.rejected r run _ o hr hsession (hlate o hentry)).calm _

omit [DecidableEq Id] in
theorem Inv.record (h : Inv s) (x : Id) :
    Inv { s with closed_sessions := x :: s.closed_sessions } := by
  obtain ⟨howned, hentries, hruns⟩ := h
  have hgrow : ∀ y, y ∈ s.closed_sessions → y ∈ x :: s.closed_sessions := fun _ hy =>
    mem_cons_of_mem _ hy
  exact ⟨{ howned with }, { hentries with
    closed := fun o y howner ho => hgrow y (hentries.closed o y howner ho)
    storing := fun j caller hj hpc => hgrow _ (hentries.storing j caller hj hpc)
    barred := fun y hy => (hentries.barred y hy).imp_left (hgrow y)
    current := fun j caller hj =>
      (hentries.current j caller hj).imp_right (And.imp_left (hgrow _))
    late := fun o y howner ho => hgrow y (hentries.late o y howner ho) }, { hruns with }⟩

omit [DecidableEq Id] in
/-- What a caller that stays the same but for its point needs. -/
theorem Inv.caller_same (h : Inv s) (hj : s.callers j = some caller) {pc : CallerPc}
    (hstore : pc = .store → caller.session ∈ s.closed_sessions)
    (hrelease : pc = .release → CalmSession s caller.session) :
    Inv (s.set_caller j (some { caller with pc })) := by
  refine h.set_caller ?_
  intro c hc
  cases hc
  exact ⟨h.owned.caller j caller hj, h.entries.caller j caller hj, hstore,
    h.entries.current j caller hj, hrelease⟩

omit [DecidableEq Id] in
theorem Inv.returned (h : Inv s) (hcalm : CalmSession s x) :
    Inv { s with log := .returned x :: s.log } := by
  refine ⟨{ h.owned with }, { h.entries with },
    { h.runs with calm := ?_, trace := ⟨nofun, h.runs.trace⟩ }⟩
  intro y hy
  rcases hy with hreturned | hcaller
  · rcases mem_cons.mp hreturned with heq | hold
    · cases heq
      exact hcalm
    · exact h.runs.calm y (.inl hold)
  · exact h.runs.calm y (.inr hcaller)

omit [DecidableEq Id] in
theorem Inv.frame (h : Inv s) (admission shutdown : Bool) (next_caller : Nat) :
    Inv { s with admission, shutdown, next_caller } := by
  exact ⟨{ h.owned with }, { h.entries with }, { h.runs with }⟩

/-! ## Runs of the whole -/

omit [DecidableEq Id] in
theorem inv_new (capacity : Nat) : Inv (State.new capacity : State Id) := by
  refine ⟨⟨?_, ?_, ?_, ?_, ?_⟩, ⟨?_, ?_, ?_, ?_, ?_, ?_, ?_, ?_⟩, ⟨?_, ?_, ?_, ?_, trivial⟩⟩
  all_goals simp [State.new, Waited]

theorem step_inv {s' : State Id} {l : Label Id} (h : step s l = some s') (hs : Inv s) : Inv s' := by
  cases l with
  | submit session =>
    simp only [step] at h
    split at h
    · cases h
      exact hs.submit session
    · cases h
  | run r act =>
    obtain ⟨run, hr, h⟩ := Option.bind_eq_some_iff.mp h
    obtain ⟨⟨run', capacity⟩, hstep, h⟩ := Option.map_eq_some_iff.mp h
    cases h
    exact hs.run_effect hr hstep
  | cancel_session session =>
    cases h
    exact (hs.cancel_session session).1
  | cancel_session_and_wait session =>
    cases h
    obtain ⟨hcancel, hsession, hset⟩ := hs.cancel_session session
    have hcaller : Inv ((cancel_session s session).1.set_caller s.next_caller
        (some ⟨session, (cancel_session s session).2, .close⟩)) := by
      refine hcancel.set_caller ?_
      intro c hc
      cases hc
      exact ⟨hcancel.owned.entry _ _ hsession, hset, nofun, .inl hsession, nofun⟩
    exact hcaller.frame _ _ _
  | close j recorded ok =>
    obtain ⟨caller, hj, h⟩ := Option.bind_eq_some_iff.mp h
    split at h
    case isFalse => cases h
    case isTrue hcond =>
      cases h
      cases recorded with
      | false =>
        have hok : ok = false := by
          cases ok with
          | false => rfl
          | true => exact absurd (hcond.2 rfl) Bool.false_ne_true
        subst hok
        exact hs.caller_same hj nofun nofun
      | true =>
        refine Inv.caller_same (hs.record caller.session) hj ?_ ?_
        · exact fun _ => mem_cons_self
        · cases ok <;> exact nofun
  | proceed j =>
    obtain ⟨caller, hj, h⟩ := Option.bind_eq_some_iff.mp h
    split at h
    · cases h
    · next hpc =>
      cases h
      have hrecorded := hs.entries.storing j caller hj hpc
      refine Inv.caller_same (hs.modify caller.object _ rfl ?_ ?_) hj nofun nofun
      · intro _
        right
        intro x howner
        rw [hs.owned.caller j caller hj] at howner
        cases howner
        exact hrecorded
      · exact fun _ _ _ _ _ _ hmem => hmem
    · cases h
      exact Inv.caller_same
        (hs.modify caller.object _ rfl Or.inl fun _ _ _ _ _ _ hmem => hmem) hj nofun nofun
    · split at h
      · next hcond =>
        cases h
        exact hs.caller_same hj nofun fun _ => hs.calm_of_wait hj hcond.2
      · cases h
    · next hpc =>
      cases h
      have hcalm := hs.runs.calm caller.session (.inr ⟨j, caller, hj, rfl, hpc⟩)
      have hreleased := hs.release_session caller.session caller.object
      have hgone : Inv ((release_session s caller.session caller.object).set_caller j none) :=
        hreleased.set_caller nofun
      refine hgone.returned ?_
      -- the removal of an entry changes no run
      simp only [release_session]
      split <;> exact hcalm
  | abandon j =>
    cases h
    exact hs.set_caller nofun
  | shutdown =>
    cases h
    exact hs.frame _ _ _

theorem inv_of_reaches {K : State Id → Label Id → Prop}
    (h : Machine.Reaches step K (State.new capacity) s) : Inv s :=
  h.invariant Inv (inv_new capacity) fun _ _ _ hs _ hstep => step_inv hstep hs

/-- In every run, once `cancel_session_and_wait` has returned for a session, no run of it
executes, none is recorded as `Running` but one whose terminal write failed, and none has
become `Running` since; and the token of a session cancels a run only if the cancellation of
that run's own session was requested. -/
theorem canceled_session_stays_quiet (capacity : Nat) (s : State Id)
    (h : Machine.Reaches step Machine.anyStep (State.new capacity) s) :
    (∀ x, .returned x ∈ s.log → ∀ r run o, s.runs r = some run → run.session = some (x, o) →
      run.work.still = true ∧ (run.row = some .Running → run.unrecorded = true)) ∧
    Every (fun event older => ∀ r x, event = .running r x → .returned x ∉ older) s.log ∧
    (∀ r run, s.runs r = some run → run.cause = some .session →
      ∃ x o, run.session = some (x, o) ∧ x ∈ s.requested) := by
  have hs : Inv s := inv_of_reaches h
  refine ⟨?_, hs.runs.trace, hs.runs.cause⟩
  intro x hreturned r run o hr hsession
  have hcalm := (hs.runs.calm x (.inl hreturned)).2 r run o hr hsession
  exact ⟨hcalm.2.1, hcalm.1⟩

/-- A run of session 0 becomes `Running`, the session is canceled, and the caller returns;
the terminal write succeeds or not. -/
def cancellation (recorded : Bool) : List (Label Nat) :=
  [.submit (some 0), .run 0 (.create true), .run 0 (.select false), .run 0 (.poll (.ready true)),
    .run 0 (.write true), .run 0 (.select false), .run 0 (.poll .pending),
    .cancel_session_and_wait 0, .close 0 true true, .proceed 0, .proceed 0,
    .run 0 (.select false), .run 0 (.poll (.ready false)), .run 0 (.terminal recorded),
    .run 0 .drop, .proceed 0, .run 0 .release, .proceed 0]

theorem canceled_session_stays_quiet_recorded :
    ∃ s : State Nat, Machine.Reaches step Machine.anyStep (State.new 1) s ∧
      s.log = [.returned 0, .running 0 0] ∧
      (∃ run, s.runs 0 = some run ∧ run.row = some .Canceled ∧ run.cause = some .session) ∧
      (∀ x, .returned x ∈ s.log → ∀ r run o, s.runs r = some run → run.session = some (x, o) →
        run.work.still = true ∧ (run.row = some .Running → run.unrecorded = true)) := by
  have hrun : (Machine.run step (fun _ _ => true) (State.new 1) (cancellation true)).any
      (fun s => s.log = [.returned 0, .running 0 0] ∧
        ∃ run ∈ s.runs 0, run.row = some .Canceled ∧ run.cause = some .session) = true := by
    decide +kernel
  obtain ⟨s, hreaches, hlog, hrun⟩ := Machine.exists_reaches _ hrun
  exact ⟨s, hreaches, hlog, hrun, (canceled_session_stays_quiet 1 s hreaches).1⟩

/-- A terminal write that fails leaves a run `Running` after the caller has returned. -/
theorem failed_terminal_write_leaves_running :
    ∃ s : State Nat, Machine.Reaches step Machine.anyStep (State.new 1) s ∧
      .returned 0 ∈ s.log ∧
      ∃ run, s.runs 0 = some run ∧ run.session = some (0, 0) ∧ run.row = some .Running := by
  have hrun : (Machine.run step (fun _ _ => true) (State.new 1) (cancellation false)).any
      (fun s => .returned 0 ∈ s.log ∧
        ∃ run ∈ s.runs 0, run.session = some (0, 0) ∧ run.row = some .Running) = true := by
    decide +kernel
  exact Machine.exists_reaches _ hrun

end Agentty.Worker.Utility
