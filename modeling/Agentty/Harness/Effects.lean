/-
Effects of a turn on the file system, and the admission they keep.

A session admits one turn at a time: `admit` hands the effects of a turn a clone of the
guard of the session's admission mutex, and the store keeps another one until the turn is
settled. Each replacement of a file holds a lease. One that is dropped before the file
system has acknowledged it is unresolved: its effects keep the guard for good.

`failure` holds only the last failure. A recording failure that comes after an unresolved
drop replaces it, and `settled` then reports that all is resolved.
-/
import Agentty.Machine
import Agentty.Harness.Engine

set_option autoImplicit false

namespace Agentty.Harness.Effects

/-- A clone of the guard. -/
inductive Admission where
  | guard
  deriving DecidableEq, Repr

structure EffectSettlementError where
  message : String
  unresolved : Bool
  deriving DecidableEq, Repr

structure State where
  admission : Option Admission
  failure : Option EffectSettlementError
  pending : Nat
  deriving DecidableEq, Repr

structure EffectLease where
  recording : Bool
  unresolved : Bool
  deriving DecidableEq, Repr

/-- The effects of a turn, its leases, and what else holds the guard: the store of the
turn, and `UNRESOLVED`. -/
structure Process where
  state : State
  leases : List EffectLease
  store : Option Admission
  unresolved : List Admission
  deriving DecidableEq, Repr

inductive Event where
  | retain
  | starting (lease : Nat)
  | acknowledged (lease : Nat)
  | recorded (lease : Nat)
  | drop (lease : Nat)
  | recording_failed (error : String)
  | admit_turn
  /-- `AdmittedStore::settled` -/
  | release
  deriving DecidableEq, Repr

def State.recording_failed (state : State) (error : String) : State :=
  { state with failure := some ⟨bounded_diagnostic error, false⟩ }

/-- `try_lock_owned` fails as long as there is a clone of the guard. -/
def Process.locked (p : Process) : Bool :=
  p.state.admission.isSome || p.store.isSome || !p.unresolved.isEmpty

def Process.with_lease (p : Process) (i : Nat) (f : EffectLease → EffectLease) : Option Process :=
  p.leases[i]?.map fun lease => { p with leases := p.leases.set i (f lease) }

/-- `EffectLease::drop`. Its two calls of `send_modify` are one event here: one that comes
between them comes before the drop, or after it. -/
def Process.drop (p : Process) (i : Nat) (lease : EffectLease) : Process :=
  let pending := p.state.pending - 1
  { p with
    state := {
      admission := if lease.unresolved ∨ pending = 0 then none else p.state.admission
      failure :=
        if lease.unresolved then
          some ⟨"replacement worker ended without acknowledging filesystem completion", true⟩
        else if lease.recording then
          some ⟨"outcome recording worker ended without acknowledgment", false⟩
        else p.state.failure
      pending }
    leases := p.leases.eraseIdx i
    unresolved := p.unresolved ++ if lease.unresolved then p.state.admission.toList else [] }

def Process.step (p : Process) : Event → Option Process
  | .retain => some { p with
      state := { p.state with pending := p.state.pending + 1 }
      leases := p.leases ++ [⟨false, false⟩] }
  | .starting i => p.with_lease i ({ · with unresolved := true })
  | .acknowledged i => p.with_lease i fun _ => ⟨true, false⟩
  | .recorded i => p.with_lease i ({ · with recording := false })
  | .drop i => p.leases[i]?.map (p.drop i)
  | .recording_failed error => some { p with state := p.state.recording_failed error }
  | .admit_turn =>
    if p.locked then none
    else some { p with state := { p.state with admission := some .guard }, store := some .guard }
  | .release => some { p with store := none }

/-- What `settled` returns, once it does. -/
def Process.settled (p : Process) : Option (Except EffectSettlementError Unit) :=
  if p.state.pending = 0 then some (p.state.failure.elim (.ok ()) .error) else none

/-! ## What has happened -/

/-- A process and what has happened to it. -/
structure History where
  process : Process
  /-- There was an admission, and no drop since has been that of the last lease. -/
  admitted : Bool
  /-- A lease was dropped unresolved, -/
  dropped : Bool
  /-- one while the effects were admitted; -/
  admitted_dropped : Bool
  /-- and a recording failure has come after the last such drop. -/
  overwritten : Bool
  deriving DecidableEq, Repr

def History.new : History := ⟨⟨⟨none, none, 0⟩, [], none, []⟩, false, false, false, false⟩

def History.step (h : History) (e : Event) : Option History := do
  let process ← h.process.step e
  match e with
  | .drop i =>
    let unresolved := h.process.leases[i]?.any (·.unresolved)
    let recording := h.process.leases[i]?.any (·.recording)
    return {
      process
      admitted := h.admitted && process.state.pending ≠ 0
      dropped := h.dropped || unresolved
      admitted_dropped := h.admitted_dropped || (h.admitted && unresolved)
      overwritten := !unresolved && (h.overwritten || recording) }
  | .admit_turn => return { h with process, admitted := true }
  | .recording_failed _ => return { h with process, overwritten := true }
  | _ => return { h with process }

/-- What the process keeps of what has happened. -/
structure Inv (h : History) : Prop where
  admitted : h.admitted = true → h.process.state.admission.isSome = true ∨ h.process.unresolved ≠ []
  kept : h.admitted_dropped = true → h.process.unresolved ≠ []
  reported : h.dropped = true → h.overwritten = false →
    ∃ e, h.process.state.failure = some e ∧ e.unresolved = true

theorem Inv.with_lease {h : History} (hinv : Inv h) {i : Nat} {f : EffectLease → EffectLease}
    {p : Process} (hp : h.process.with_lease i f = some p) : Inv { h with process := p } := by
  obtain ⟨lease, -, rfl⟩ := Option.map_eq_some_iff.mp hp
  exact ⟨hinv.admitted, hinv.kept, hinv.reported⟩

/-- The guard moves from the effects to `UNRESOLVED`, or stays while a lease is left. -/
theorem Inv.drop {h h' : History} (hinv : Inv h) {i : Nat} (hs : h.step (.drop i) = some h') :
    Inv h' := by
  obtain ⟨p, hp, hs⟩ := Option.bind_eq_some_iff.mp hs
  obtain ⟨lease, hlease, rfl⟩ := Option.map_eq_some_iff.mp hp
  cases hs
  have hadmitted := hinv.admitted
  have hkept := hinv.kept
  have hreported := hinv.reported
  cases hunresolved : lease.unresolved with
  | true =>
    -- whichever of the two had the guard, `UNRESOLVED` has it now
    have hmoved : h.admitted = true → (h.process.drop i lease).unresolved ≠ [] := by
      intro hyes
      have hguard := hadmitted hyes
      cases hguard' : h.process.state.admission
      all_goals simp_all [Process.drop]
    constructor
    all_goals simp_all [Process.drop]
    grind
  | false =>
    constructor
    all_goals simp_all [Process.drop]

theorem Inv.step {h h' : History} (hinv : Inv h) {e : Event} (hs : h.step e = some h') :
    Inv h' := by
  cases e with
  | drop i => exact hinv.drop hs
  | starting i | acknowledged i | recorded i =>
    obtain ⟨p, hp, hs⟩ := Option.bind_eq_some_iff.mp hs
    cases hs
    exact hinv.with_lease hp
  | retain | release =>
    cases hs
    exact ⟨hinv.admitted, hinv.kept, hinv.reported⟩
  | recording_failed error =>
    cases hs
    exact ⟨hinv.admitted, hinv.kept, fun _ hno => nomatch hno⟩
  | admit_turn =>
    obtain ⟨p, hp, hs⟩ := Option.bind_eq_some_iff.mp hs
    cases hs
    obtain ⟨-, ⟨⟩⟩ := Option.ite_none_left_eq_some.mp hp
    exact ⟨fun _ => .inl rfl, hinv.kept, hinv.reported⟩

/-- **No turn is admitted while effects of an admitted turn are pending**, or ever after one
of them was dropped unresolved; and what `settled` reports is unresolved, unless a
recording failure has come after the last unresolved drop. -/
theorem unresolved_effects_block_and_are_reported (h : History)
    (hreach : Machine.Reaches History.step Machine.anyStep History.new h) :
    (h.admitted = true → h.process.step .admit_turn = none) ∧
    (h.admitted_dropped = true → h.process.step .admit_turn = none) ∧
    (h.dropped = true → h.overwritten = false → ∀ result, h.process.settled = some result →
      ∃ e, result = .error e ∧ e.unresolved = true) := by
  have hinv : Inv h := by
    refine hreach.invariant Inv ⟨nofun, nofun, nofun⟩ ?_
    exact fun _ _ _ hinv _ hs => hinv.step hs
  have hlocked : ∀ {p : Process}, p.state.admission.isSome = true ∨ p.unresolved ≠ [] →
      p.step .admit_turn = none := by
    intro p hp
    refine if_pos ?_
    simpa [Process.locked] using hp.elim (fun h => .inl (.inl h)) .inr
  refine ⟨fun hyes => hlocked (hinv.admitted hyes), fun hyes => hlocked (.inr (hinv.kept hyes)), ?_⟩
  intro hyes hno result hresult
  obtain ⟨e, he, hunresolved⟩ := hinv.reported hyes hno
  obtain ⟨-, hresult⟩ := Option.ite_none_right_eq_some.mp hresult
  rw [he] at hresult
  exact ⟨e, (Option.some.inj hresult).symm, hunresolved⟩

/-- A replacement that fails to be recorded, and then one that is dropped unresolved. -/
theorem unresolved_effects_after_recording_failure :
    ∃ h, Machine.Reaches History.step Machine.anyStep History.new h ∧
      h.process.settled.isSome = true ∧ ∃ e, h.process.settled = some (.error e) ∧
        e.unresolved = true := by
  have hrun : (Machine.run History.step (fun _ _ => true) History.new
      [.retain, .admit_turn, .retain, .starting 1, .recording_failed "no space",
        .drop 1, .drop 0]).any
      (fun h => h.dropped = true ∧ h.overwritten = false ∧ h.process.settled.isSome = true)
        = true := by
    decide
  obtain ⟨h, hreach, hdropped, hno, hsome⟩ := Machine.exists_reaches _ hrun
  obtain ⟨result, hresult⟩ := Option.isSome_iff_exists.mp hsome
  obtain ⟨e, rfl, he⟩ :=
    (unresolved_effects_block_and_are_reported h hreach).2.2 hdropped hno result hresult
  exact ⟨h, hreach, hsome, e, hresult, he⟩

/-- One replacement is dropped unresolved, and another one then fails to be recorded: what
`settled` reports is resolved. -/
theorem unresolved_effect_not_reported :
    ∃ h, Machine.Reaches History.step Machine.anyStep History.new h ∧ h.dropped = true ∧
      ∃ e, h.process.settled = some (.error e) ∧ e.unresolved = false := by
  have hrun : (Machine.run History.step (fun _ _ => true) History.new
      [.retain, .admit_turn, .retain, .starting 1, .drop 1, .recording_failed "no space",
        .drop 0]).any
      (fun h => h.dropped = true ∧ h.process.state = ⟨none, some ⟨"no space", false⟩, 0⟩)
        = true := by
    decide
  obtain ⟨h, hreach, hdropped, hstate⟩ := Machine.exists_reaches _ hrun
  exact ⟨h, hreach, hdropped, _, by rw [Process.settled, hstate]; rfl, rfl⟩

end Agentty.Harness.Effects
