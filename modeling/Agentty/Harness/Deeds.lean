/-
What a call says it has done, and what it has done.

A `Deed` is read off a call and its answer. `Effects` says which events a deed stands
for: a reservation is one `reserved` event, after the turns the store has given up
before it; a call that fails or only reads is nothing, or the recovery of a turn. A
store keeps to its deeds if every step of its clients is an `Effects` step. Then a
trace is a chronicle (`Chronicled`), and what follows from events alone holds of it.
-/
import Agentty.Harness.Clients
import Agentty.Harness.Lifecycle

set_option autoImplicit false

namespace Agentty.Harness

/-! ## Host records -/

/-- The state of a host turn; a completed one has an outcome. -/
def Turn.host_status (turn : Turn) : Option HostTurnStatus :=
  match turn.status with
  | .Running => some .InProgress
  | .Completed => turn.outcome.map .Completed
  | .Failed => some (.Failed (turn.error_type.getD ""))
  | .Interrupted => some (.Interrupted (turn.error_type.getD ""))

def Session.record_at (s : Session) (position : Nat) (turn : Turn) : Option HostTurnRecord :=
  match turn.request with
  | none => none
  | some request =>
    turn.host_status.map fun status =>
      { model := some turn.model
        request := request
        status := status
        turn_position := position
        writes := s.writes.filter fun write => write.turn_position = position }

def Session.host_record (s : Session) (host_id : String) : Option HostTurnRecord :=
  match s.turns.zipIdx.find? fun turn => turn.1.request.any fun request => request.id = host_id with
  | none => none
  | some (turn, position) => s.record_at position turn

/-- A sound session without a record of an identifier has no turn of it. -/
theorem host_turn_eq_none [Sha256] {s : Session} (hsound : s.Sound) {host_id : String}
    (h : s.host_record host_id = none) : s.host_turn host_id = none := by
  have hfind : ∀ (test : Turn → Bool) (turns : List Turn) (n : Nat),
      (turns.zipIdx n).find? (fun turn => test turn.1) = none → turns.find? test = none := by
    intro test turns n hnone
    rw [List.find?_eq_none] at hnone ⊢
    intro turn hturn
    obtain ⟨p, hp⟩ := List.mem_iff_getElem?.mp hturn
    exact hnone (turn, n + p) (List.mem_of_getElem? (i := p) (by simp [hp]))
  unfold Session.host_record at h
  split at h
  · next hnone => exact hfind _ _ 0 hnone
  rename_i turn position hsome
  -- a turn that is found has a request and a status
  have htest := List.find?_some hsome
  have hmem : turn ∈ s.turns := List.fst_mem_of_mem_zipIdx (List.mem_of_find?_eq_some hsome)
  cases hrequest : turn.request with
  | none => simp [hrequest] at htest
  | some =>
    have houtcome := (hsound.turn turn hmem).outcome
    simp only [Session.record_at, hrequest, Option.map_eq_none_iff, Turn.host_status] at h
    split at h
    · cases h
    · next hcompleted =>
      have := houtcome hcompleted (by simp [hrequest])
      rw [Option.map_eq_none_iff.mp h] at this
      cases this
    · cases h
    · cases h

/-! ## Deeds -/

inductive Deed where
  /-- The sessions are as they were. -/
  | nothing
  /-- The session may have been recovered. -/
  | looked (id : String)
  | created (id : String)
  | answered (id host_id : String) (record : Option HostTurnRecord)
  | reserved (id : String) (options : TurnOptions) (request : Option HostRequest)
      (generation : Int) (continuation : Option String) (owner : TurnOwner)
  | completed (owner : TurnOwner) (messages : List ModelMessage) (continuation : Option String)
      (outcome : Option TurnOutcome)
  | failed (owner : TurnOwner) (error_type : String)
  | renewed (owner : TurnOwner)
  | interrupted (owner : TurnOwner)
  | intended (owner : TurnOwner)
  | settled (owner : TurnOwner)
  | switched (id : String) (generation : Int) (identity : ExecutionIdentity)
      (metadata : Option ModelMetadata) (capabilities : ModelCapabilities)

/-- What a call on a memory store says it has done. -/
def StoreCall.deed : (call : StoreCall) → Except SessionError call.Reply → Deed
  | .create_session config _ _, .ok _ => .created config.id
  | .load_session id, _ => .looked id
  | .switch_model id generation identity metadata capabilities, .ok _ =>
    .switched id generation identity metadata capabilities
  | .switch_model id _ _ _ _, .error _ => .looked id
  | .acquire session_id _ options request generation, .ok (.Acquired turn) =>
    .reserved session_id options request generation turn.provider_session_id turn.owner
  | .acquire session_id _ _ (some request) _, .ok (.Recorded record) =>
    .answered session_id request.id (some record)
  | .acquire session_id _ _ _ _, _ => .looked session_id
  | .load_request session_id host_id, .ok record => .answered session_id host_id record
  | .load_request session_id _, .error _ => .looked session_id
  | .complete owner messages continuation outcome, .ok _ =>
    .completed owner messages continuation outcome
  | .renew owner, .ok _ => .renewed owner
  | .fail_turn owner error_type, .ok _ => .failed owner error_type
  | .interrupt owner, .ok _ => .interrupted owner
  | .write_intent owner _ _ _ _ _, .ok _ => .intended owner
  | .finish_write owner _ _, .ok _ => .settled owner
  | _, _ => .nothing

def MemoryCall.deed : (call : MemoryCall) → Except SessionError call.Reply → Deed
  | .store call, reply => call.deed reply
  | .answer _ _ _, _ => .nothing

/-- What a transaction says it has done. One that fails is rolled back. -/
def DatabaseCall.deed [Sha256] : (call : DatabaseCall) → Except SessionError call.Reply → Deed
  | .create_session config _ _, .ok _ => .created config.id
  | .recover_stale_turns session_id, .ok _ => .looked session_id
  | .switch_commit id generation _ identity metadata capabilities _, .ok true =>
    .switched id generation identity metadata capabilities
  | .switch_commit id _ _ _ _ _ _, .ok false => .looked id
  | .reserve_turn session_id _ acquisition options request, .ok (.Acquired owner) =>
    .reserved session_id options request acquisition.expected_generation
      (Database.handed acquisition options) owner
  | .reserve_turn session_id _ _ _ (some request), .ok (.Recorded record) =>
    .answered session_id request.id (some record)
  | .reserve_turn session_id _ _ _ _, .ok _ => .looked session_id
  | .load_request session_id host_id, .ok record => .answered session_id host_id record
  | .complete owner messages continuation outcome, .ok _ =>
    .completed owner messages continuation outcome
  | .renew owner, .ok _ => .renewed owner
  | .fail_turn owner error_type, .ok _ => .failed owner error_type
  | .interrupt owner, .ok _ => .interrupted owner
  | .write_intent owner _ _ _ _ _, .ok _ => .intended owner
  | .finish_write owner _ _, .ok _ => .settled owner
  | _, _ => .nothing

/-! ## Effects -/

/-- Running turns of a session have been given up. -/
inductive Recovered [Sha256] (id : String) (x : Sessions × Chronicle) :
    Sessions × Chronicle → Prop where
  | refl : Recovered id x x
  | step {sessions : Sessions} {chronicle : Chronicle} {s : Session} (error_type : String)
      (earlier : Recovered id x (sessions, chronicle)) (present : sessions id = some s)
      (busy : s.busy = true) :
      Recovered id x (Function.update sessions id (some (s.after (.interrupted error_type))),
        (id, .interrupted error_type) :: chronicle)

/-- The last turn is running under a lease that has run out. -/
def Session.Lapsed (s : Session) (now : Int) : Prop :=
  ∃ turn lease, s.turns.getLast? = some turn ∧ turn.status = .Running ∧ turn.lease = some lease ∧
    lease ≤ now

theorem Session.Lapsed.busy {s : Session} {now : Int} (h : s.Lapsed now) : s.busy = true := by
  obtain ⟨turn, lease, hlast, hrunning, -, -⟩ := h
  simp [Session.busy, hlast, hrunning]

/-- Nothing has changed, but that a session may have given up a turn whose lease has run
out. -/
def Lapses [Sha256] (sessions sessions' : Sessions) (id : String) (now : Int) : Prop :=
  sessions' = sessions ∨ ∃ s, sessions id = some s ∧ s.Lapsed now ∧
    sessions' = Function.update sessions id (some (s.after (.interrupted "interrupted")))

theorem Lapses.recovered [Sha256] {sessions sessions' : Sessions} {id : String} {now : Int}
    (h : Lapses sessions sessions' id now) (chronicle : Chronicle) :
    ∃ chronicle', Recovered id (sessions, chronicle) (sessions', chronicle') := by
  rcases h with rfl | ⟨s, hs, hlapsed, rfl⟩
  · exact ⟨chronicle, .refl⟩
  · exact ⟨_, .step "interrupted" .refl hs hlapsed.busy⟩

inductive Happens [Sha256] (id : String) (e : Event) :
    Sessions × Chronicle → Sessions × Chronicle → Prop where
  | intro {sessions : Sessions} {chronicle : Chronicle} {s : Session}
      (present : sessions id = some s) (allowed : s.Allows e) :
      Happens id e (sessions, chronicle)
        (Function.update sessions id (some (s.after e)), (id, e) :: chronicle)

inductive Effects [Sha256] : Sessions × Chronicle → Deed → Sessions × Chronicle → Prop where
  | nothing {x : Sessions × Chronicle} : Effects x .nothing x
  | looked {x y : Sessions × Chronicle} {id : String} (recovered : Recovered id x y) :
      Effects x (.looked id) y
  | created {sessions : Sessions} {chronicle : Chronicle} (config : NewSession)
      (metadata : Option ModelMetadata) (max_history_bytes : Nat)
      (free : sessions config.id = none) :
      Effects (sessions, chronicle) (.created config.id)
        (Function.update sessions config.id
          (some (Session.create config metadata max_history_bytes)), chronicle)
  | answered {x : Sessions × Chronicle} {sessions : Sessions} {chronicle : Chronicle}
      {id host_id : String} {s : Session} (recovered : Recovered id x (sessions, chronicle))
      (present : sessions id = some s) :
      Effects x (.answered id host_id (s.host_record host_id)) (sessions, chronicle)
  | reserved {x y : Sessions × Chronicle} {sessions : Sessions} {chronicle : Chronicle}
      {s : Session} {options : TurnOptions} {request : Option HostRequest} {generation : Int}
      {owner : TurnOwner} (message : ModelMessage) (lease : Int)
      (recovered : Recovered owner.session_id x (sessions, chronicle))
      (present : sessions owner.session_id = some s)
      (position : owner.turn_position = s.turns.length)
      (happens : Happens owner.session_id
        (.reserved message options request generation owner.token lease) (sessions, chronicle) y) :
      Effects x (.reserved owner.session_id options request generation
        (s.continuation_for options) owner) y
  | completed {x y : Sessions × Chronicle} {owner : TurnOwner} {messages : List ModelMessage}
      {continuation : Option String} {outcome : Option TurnOutcome}
      (happens : Happens owner.session_id (.completed owner messages continuation outcome) x y) :
      Effects x (.completed owner messages continuation outcome) y
  | failed {x y : Sessions × Chronicle} {owner : TurnOwner} {error_type : String}
      (happens : Happens owner.session_id (.failed owner error_type) x y) :
      Effects x (.failed owner error_type) y
  | renewed {x y : Sessions × Chronicle} {owner : TurnOwner} (lease : Int)
      (happens : Happens owner.session_id (.renewed owner lease) x y) :
      Effects x (.renewed owner) y
  /-- A turn that has ended, or is somebody else's, is not interrupted. -/
  | spared {x : Sessions × Chronicle} {owner : TurnOwner} : Effects x (.interrupted owner) x
  | interrupted {sessions : Sessions} {chronicle : Chronicle} {y : Sessions × Chronicle}
      {owner : TurnOwner} {s : Session} (present : sessions owner.session_id = some s)
      (owned : s.OwnedBy owner)
      (happens : Happens owner.session_id (.interrupted owner.interruption_error_type)
        (sessions, chronicle) y) :
      Effects (sessions, chronicle) (.interrupted owner) y
  | intended {x y : Sessions × Chronicle} {owner : TurnOwner} (write : WriteRecord)
      (happens : Happens owner.session_id (.intended owner write) x y) :
      Effects x (.intended owner) y
  | settled {x y : Sessions × Chronicle} {owner : TurnOwner} (id : Nat) (status : WriteStatus)
      (happens : Happens owner.session_id (.settled owner id status) x y) :
      Effects x (.settled owner) y
  | switched {x y z : Sessions × Chronicle} {id : String} {generation : Int}
      {identity : ExecutionIdentity} {metadata : Option ModelMetadata}
      {capabilities : ModelCapabilities} (recovered : Recovered id x y)
      (happens : Happens id (.switched generation identity metadata capabilities) y z) :
      Effects x (.switched id generation identity metadata capabilities) z

section Effects

variable [Sha256] {x y : Sessions × Chronicle} {id : String}

theorem Happens.leads {e : Event} (h : Happens id e x y) : Leads x y := by
  cases h with
  | intro present allowed => exact Relation.ReflTransGen.single (.event id _ e present allowed)

theorem Recovered.leads (h : Recovered id x y) : Leads x y := by
  induction h with
  | refl => exact Relation.ReflTransGen.refl
  | step error_type _ present busy ih => exact ih.tail (.event id _ _ present busy)

theorem Effects.leads {deed : Deed} (h : Effects x deed y) : Leads x y := by
  cases h with
  | nothing | spared => exact Relation.ReflTransGen.refl
  | looked recovered | answered recovered => exact recovered.leads
  | created config metadata max_history_bytes free =>
    exact Relation.ReflTransGen.single (.create _ config metadata max_history_bytes free)
  | reserved _ _ recovered _ _ happens | switched recovered happens =>
    exact recovered.leads.trans happens.leads
  | completed happens | failed happens | renewed _ happens | interrupted _ _ happens
  | intended _ happens | settled _ _ happens => exact happens.leads

end Effects

/-! ## Traces as chronicles -/

section Chronicled

variable [Sha256] {E W : Type} (before : E → W) (deed : E → Deed) (Holds : W → Sessions → Prop)

/-- Every entry of a trace has had the effect of its deed on the sessions that the world
before it held. -/
inductive Chronicled : List E → Sessions × Chronicle → Prop where
  | nil : Chronicled [] (fun _ => none, [])
  | cons {older : List E} {x y : Sessions × Chronicle} (e : E) (earlier : Chronicled older x)
      (held : Holds (before e) x.1) (effects : Effects x (deed e) y) : Chronicled (e :: older) y

variable {before deed Holds} {trace newer older : List E} {x : Sessions × Chronicle}

theorem Chronicled.lived (h : Chronicled before deed Holds trace x) : Lived x.1 x.2 := by
  induction h with
  | nil => exact Relation.ReflTransGen.refl
  | cons e _ _ effects ih => exact Relation.ReflTransGen.trans ih effects.leads

theorem Chronicled.mono (h : Chronicled before deed Holds trace x) {Holds' : W → Sessions → Prop}
    (hmono : ∀ w sessions chronicle, Lived sessions chronicle → Holds w sessions →
      Holds' w sessions) : Chronicled before deed Holds' trace x := by
  induction h with
  | nil => exact .nil
  | @cons older x y e earlier held effects ih =>
    exact .cons e ih (hmono _ _ x.2 earlier.lived held) effects

theorem Chronicled.earlier (h : Chronicled before deed Holds (newer ++ older) x) :
    ∃ y, Chronicled before deed Holds older y ∧ Leads y x := by
  induction newer generalizing x with
  | nil => exact ⟨x, h, Relation.ReflTransGen.refl⟩
  | cons e newer ih =>
    cases h with
    | cons _ earlier held effects =>
      obtain ⟨y, hy, hleads⟩ := ih earlier
      exact ⟨y, hy, hleads.trans effects.leads⟩

theorem Chronicled.at {e : E} (h : Chronicled before deed Holds (newer ++ e :: older) x) :
    ∃ y z, Chronicled before deed Holds older y ∧ Holds (before e) y.1 ∧
      Effects y (deed e) z ∧ Leads z x := by
  obtain ⟨z, hz, hleads⟩ := h.earlier
  cases hz with
  | cons _ earlier held effects => exact ⟨_, z, earlier, held, effects, hleads⟩

end Chronicled

end Agentty.Harness
