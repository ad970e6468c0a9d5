/-
The life of a session, whatever stores it.

A session is its configuration, its turns, oldest first, and its write records. What
can happen to it is an `Event`; an event is allowed in some states (`Allows`) and has
one effect (`after`). The stores do nothing else to a session: what a store operation
does is a list of events, and the modules on the stores prove that.

Here is what follows from the events alone: only the last turn can be running, a turn
that has ended never changes, a host identifier belongs to one turn, the stored
continuation comes from a completion that nothing has invalidated since, and the model
generation counts the switches.
-/
import Agentty.Harness.MemoryStore
import Mathlib.Logic.Relation
import Mathlib.Logic.Function.Basic
import Mathlib.Data.List.Induction

set_option autoImplicit false

namespace Agentty.Harness

open List Function

/-! ## Sessions -/

/-- A turn. Only a running one has a lease. -/
structure Turn where
  error_type : Option String
  lease : Option Int
  messages : List ModelMessage
  model : RecordedModel
  options : StoredTurnOptions
  outcome : Option TurnOutcome
  request : Option HostRequest
  status : Status
  token : List UInt8
  deriving DecidableEq, Repr

def Turn.ended (turn : Turn) (status : Status) (error_type : Option String) : Turn :=
  { turn with status := status, error_type := error_type, lease := none }

structure Session where
  configuration : LoadedSession
  turns : List Turn
  writes : List WriteRecord
  deriving DecidableEq, Repr

namespace Session

def busy (s : Session) : Bool := s.turns.getLast?.any fun turn => turn.status = .Running

/-- The last turn is running, and is the owner's. -/
def OwnedBy (s : Session) (owner : TurnOwner) : Prop :=
  ∃ turn, s.turns.getLast? = some turn ∧ turn.status = .Running ∧ turn.token = owner.token ∧
    owner.turn_position + 1 = s.turns.length

/-- Completed turns, oldest first. -/
def completed (s : Session) : List Turn := s.turns.filter fun turn => turn.status = .Completed

def completed_messages (s : Session) : List ModelMessage := s.completed.flatMap (·.messages)

def host_turn (s : Session) (host_id : String) : Option Turn :=
  s.turns.find? fun turn => turn.request.any fun request => request.id = host_id

/-- The continuation a turn with these options is handed. -/
def continuation_for (s : Session) (options : TurnOptions) : Option String :=
  s.configuration.provider_session_id.filter fun _ =>
    s.completed.getLast?.any fun turn => turn.options.continuation_compatible options

def create (config : NewSession) (metadata : Option ModelMetadata) (max_history_bytes : Nat) :
    Session where
  configuration :=
    { max_history_bytes := max_history_bytes
      model := metadata.map (·.model)
      model_generation := 0
      provider := metadata.map (·.provider)
      provider_session_id := none
      registration_identity := config.registration_identity
      schema := config.schema
      system_prompt := config.system_prompt
      turns := [] }
  turns := []
  writes := []

end Session

/-! ## Events -/

inductive Event where
  /-- The running turn is given up. -/
  | interrupted (error_type : String)
  | reserved (message : ModelMessage) (options : TurnOptions) (request : Option HostRequest)
      (generation : Int) (token : List UInt8) (lease : Int)
  | completed (owner : TurnOwner) (messages : List ModelMessage) (continuation : Option String)
      (outcome : Option TurnOutcome)
  | failed (owner : TurnOwner) (error_type : String)
  | renewed (owner : TurnOwner) (lease : Int)
  | intended (owner : TurnOwner) (write : WriteRecord)
  | settled (owner : TurnOwner) (id : Nat) (status : WriteStatus)
  | switched (generation : Int) (identity : ExecutionIdentity) (metadata : Option ModelMetadata)
      (capabilities : ModelCapabilities)

namespace Session

def Allows (s : Session) : Event → Prop
  | .interrupted _ => s.busy = true
  | .reserved message _ request generation _ _ => s.busy = false ∧
      generation = s.configuration.model_generation ∧
      (∀ r, request = some r → s.host_turn r.id = none) ∧
        ∃ input, message = TurnInput.into_user_message input
  | .completed owner _ _ outcome => s.OwnedBy owner ∧
      (∀ turn, s.turns.getLast? = some turn → turn.request.isSome = true → outcome.isSome = true)
  | .failed owner _ => s.OwnedBy owner
  | .renewed owner _ => s.OwnedBy owner
  | .intended owner write => s.OwnedBy owner ∧ write.turn_position = owner.turn_position
  | .settled _ _ _ => True
  | .switched generation _ _ capabilities => s.busy = false ∧
      generation = s.configuration.model_generation ∧ generation + 1 ≤ i64_max ∧
      check_history capabilities s.completed_messages = .ok ()

def settle (id turn_position : Nat) (status : WriteStatus) (write : WriteRecord) : WriteRecord :=
  if write.id = id ∧ write.turn_position = turn_position ∧
      (write.status = .Pending ∨ write.status = status) then { write with status := status }
  else write

def after [Sha256] (s : Session) : Event → Session
  | .interrupted error_type =>
    { s with
      configuration := { s.configuration with provider_session_id := none }
      turns := update_last (·.ended .Interrupted (some error_type)) s.turns }
  | .reserved message options request _ token lease =>
    { s with
      configuration :=
        { s.configuration with provider_session_id := s.continuation_for options }
      turns := s.turns ++
        [{ error_type := none
           lease := some lease
           messages := [message]
           model := s.configuration.recorded_model
           options := StoredTurnOptions.encode options
           outcome := none
           request := request
           status := .Running
           token := token }] }
  | .completed _ messages continuation outcome =>
    { s with
      configuration := { s.configuration with provider_session_id := continuation }
      turns := update_last (fun turn =>
        { turn.ended .Completed none with
          messages := turn.messages ++ messages
          outcome := outcome }) s.turns }
  | .failed _ error_type =>
    { s with
      configuration := { s.configuration with provider_session_id := none }
      turns := update_last (·.ended .Failed (some error_type)) s.turns }
  | .renewed _ lease =>
    { s with turns := update_last (fun turn => { turn with lease := some lease }) s.turns }
  | .intended _ write => { s with writes := s.writes ++ [write] }
  | .settled owner id status =>
    { s with writes := s.writes.map (settle id owner.turn_position status) }
  | .switched generation identity metadata _ =>
    { s with
      configuration :=
        { s.configuration with
          model_generation := generation + 1
          registration_identity := some identity
          provider := metadata.map (·.provider)
          model := metadata.map (·.model)
          provider_session_id := none } }

end Session

/-! ## Lists of turns -/

section UpdateLast

variable {α β : Type}

section

variable (f : α → α) (as : List α)

include f as

@[simp] theorem update_last_concat (a : α) : update_last f (as ++ [a]) = as ++ [f a] := by
  induction as with
  | nil => rfl
  | cons b as ih =>
    cases as with
    | nil => rfl
    | cons c as => exact congrArg (b :: ·) ih

@[simp] theorem length_update_last : (update_last f as).length = as.length := by
  cases as using reverseRecOn with
  | nil => rfl
  | append_singleton as a => simp

theorem getLast?_update_last : (update_last f as).getLast? = as.getLast?.map f := by
  cases as using reverseRecOn with
  | nil => rfl
  | append_singleton as a => simp

theorem getElem?_update_last (i : Nat) :
    (update_last f as)[i]? = if i + 1 = as.length then as[i]?.map f else as[i]? := by
  cases as using reverseRecOn with
  | nil => simp
  | append_singleton as a =>
    rw [update_last_concat]
    by_cases hi : i = as.length
    · subst hi
      simp
    · rw [if_neg (by simpa using hi)]
      rcases Nat.lt_or_gt_of_ne hi with hlt | hgt
      · rw [getElem?_append_left hlt, getElem?_append_left hlt]
      · rw [getElem?_eq_none (by simp; omega), getElem?_eq_none (by simp; omega)]

end

theorem map_update_last (f : α → α) (g : α → β) (h : β → β) (as : List α)
    (hfg : ∀ a, as.getLast? = some a → g (f a) = h (g a)) :
    (update_last f as).map g = update_last h (as.map g) := by
  cases as using reverseRecOn with
  | nil => rfl
  | append_singleton as a => simp [hfg a]

end UpdateLast

theorem Session.busy_iff {s : Session} :
    s.busy = true ↔ ∃ init turn, s.turns = init ++ [turn] ∧ turn.status = .Running := by
  cases h : s.turns using reverseRecOn with
  | nil | append_singleton => simp [busy, h]

theorem Session.OwnedBy.busy {s : Session} {owner : TurnOwner} (h : s.OwnedBy owner) :
    s.busy = true := by
  obtain ⟨turn, hlast, hrunning, -, -⟩ := h
  simp [Session.busy, hlast, hrunning]

/-! ## Sound sessions -/

/-- Provider and model come together and are not blank. -/
def RecordedModel.Valid (model : RecordedModel) : Prop :=
  0 ≤ model.generation ∧ ((model.provider = none ∧ model.model = none) ∨
    ∃ metadata : ModelMetadata, model.provider = some metadata.provider ∧
      model.model = some metadata.model)

structure Turn.Sound [Sha256] (turn : Turn) : Prop where
  leased : turn.lease.isSome = true ↔ turn.status = .Running
  /-- The first message is the input, and a running turn has no other. -/
  opening : ∃ input rest, turn.messages = TurnInput.into_user_message input :: rest ∧
    (turn.status = .Running → rest = [])
  fresh : turn.status = .Running → turn.error_type = none ∧ turn.outcome = none
  outcome : turn.status = .Completed → turn.request.isSome = true → turn.outcome.isSome = true
  options : ∃ options, turn.options = StoredTurnOptions.encode options
  model : turn.model.Valid

/-- Different turns have different host identifiers. -/
def Turn.Apart (a b : Turn) : Prop :=
  ∀ r r', a.request = some r → b.request = some r' → r.id ≠ r'.id

structure Session.Sound [Sha256] (s : Session) : Prop where
  turn : ∀ turn ∈ s.turns, turn.Sound
  only_last : ∀ turn ∈ s.turns.dropLast, turn.status ≠ .Running
  hosts : s.turns.Pairwise Turn.Apart
  generation : ∀ turn ∈ s.turns, turn.model.generation ≤ s.configuration.model_generation
  configuration : s.configuration.recorded_model.Valid ∧ s.configuration.turns = []
  writes : s.writes.Pairwise fun a b => a.turn_position ≤ b.turn_position
  written : ∀ write ∈ s.writes, write.turn_position < s.turns.length

namespace Session

variable {s : Session}

theorem recorded_model_valid (generation : Int) (hgeneration : 0 ≤ generation)
    (metadata : Option ModelMetadata) (identity : Option ExecutionIdentity) :
    RecordedModel.Valid ⟨generation, metadata.map (·.model), metadata.map (·.provider),
      identity⟩ := by
  cases metadata with
  | none => exact ⟨hgeneration, .inl ⟨rfl, rfl⟩⟩
  | some metadata => exact ⟨hgeneration, .inr ⟨metadata, rfl, rfl⟩⟩

theorem sound_create [Sha256] (config : NewSession) (metadata : Option ModelMetadata)
    (max_history_bytes : Nat) : (create config metadata max_history_bytes).Sound where
  turn _ h := nomatch h
  only_last _ h := nomatch h
  hosts := List.Pairwise.nil
  generation _ h := nomatch h
  configuration := ⟨recorded_model_valid 0 (Int.le_refl 0) metadata _, rfl⟩
  writes := List.Pairwise.nil
  written _ h := nomatch h

variable {turn : Turn}

/-- The running turn becomes a sound one with the same request and model. -/
theorem Sound.update_last [Sha256] (h : s.Sound) (hbusy : s.busy = true) {f : Turn → Turn}
    (hf : ∀ turn, s.turns.getLast? = some turn → turn.status = .Running → turn.Sound →
      (f turn).Sound ∧ (f turn).request = turn.request ∧ (f turn).model = turn.model)
    (continuation : Option String) :
    Sound { s with
      configuration := { s.configuration with provider_session_id := continuation }
      turns := Harness.update_last f s.turns } := by
  obtain ⟨init, turn, hs, hrunning⟩ := busy_iff.mp hbusy
  have hmem : turn ∈ s.turns := hs ▸ mem_append_right _ (mem_singleton_self turn)
  have hinit : ∀ t ∈ init, t ∈ s.turns := fun t ht => hs ▸ mem_append_left _ ht
  obtain ⟨hturn, hrequest, hmodel⟩ := hf turn (by simp [hs]) hrunning (h.turn turn hmem)
  have hlast : Harness.update_last f s.turns = init ++ [f turn] := by rw [hs, update_last_concat]
  have hosts := h.hosts
  have honly := h.only_last
  rw [hs, pairwise_append] at hosts
  rw [hs, dropLast_concat] at honly
  rw [hlast]
  refine { h with turn := fun t ht => ?_, only_last := ?_, hosts := ?_, generation := fun t ht => ?_
                  written := ?_ }
  · rcases mem_append.mp ht with ht | ht
    · exact h.turn t (hinit t ht)
    · rwa [mem_singleton.mp ht]
  · rwa [dropLast_concat]
  · refine pairwise_append.mpr ⟨hosts.1, pairwise_singleton _ _, fun a ha b hb => ?_⟩
    rw [mem_singleton.mp hb]
    intro r r' hr hr'
    exact hosts.2.2 a ha turn (mem_singleton_self turn) r r' hr (hrequest ▸ hr')
  · rcases mem_append.mp ht with ht | ht
    · exact h.generation t (hinit t ht)
    · rw [mem_singleton.mp ht, hmodel]
      exact h.generation turn hmem
  · simpa [hs] using h.written

theorem sound_ended [Sha256] (h : turn.Sound) (status : Status) (error_type : Option String)
    (hrunning : status ≠ .Running) (hcompleted : status ≠ .Completed) :
    (turn.ended status error_type).Sound where
  leased := by simp [Turn.ended, hrunning]
  opening := by
    obtain ⟨input, rest, hmessages, -⟩ := h.opening
    exact ⟨input, rest, hmessages, fun hs => absurd hs hrunning⟩
  fresh hs := absurd hs hrunning
  outcome hs := absurd hs hcompleted
  options := h.options
  model := h.model

variable {p : Nat}

theorem Sound.running_last [Sha256] (h : s.Sound) (hturn : s.turns[p]? = some turn)
    (hrunning : turn.status = .Running) : ∃ init, s.turns = init ++ [turn] ∧ p = init.length := by
  cases hs : s.turns using reverseRecOn with
  | nil => simp [hs] at hturn
  | append_singleton init last =>
    rw [hs] at hturn
    by_cases hp : p = init.length
    · rw [hp, getElem?_concat_length] at hturn
      cases hturn
      exact ⟨init, rfl, hp⟩
    · have hlt := (List.getElem?_eq_some_iff.mp hturn).1
      rw [length_append, length_singleton] at hlt
      rw [getElem?_append_left (by omega)] at hturn
      refine absurd hrunning (h.only_last turn ?_)
      rw [hs, dropLast_concat]
      exact mem_of_getElem? hturn

theorem Sound.none_running [Sha256] (h : s.Sound) (hidle : s.busy = false) :
    ∀ turn ∈ s.turns, turn.status ≠ .Running := by
  intro turn hturn hrunning
  obtain ⟨p, hp⟩ := mem_iff_getElem?.mp hturn
  obtain ⟨init, hs, -⟩ := h.running_last hp hrunning
  have hbusy := busy_iff.mpr ⟨init, turn, hs, hrunning⟩
  rw [hidle] at hbusy
  cases hbusy

variable {e : Event}

/-- **Every event keeps a session sound.** -/
theorem Sound.after [Sha256] (h : s.Sound) (allowed : s.Allows e) : (s.after e).Sound := by
  cases e with
  | interrupted =>
    apply h.update_last allowed
    exact fun turn _ _ hturn => ⟨sound_ended hturn _ _ (by simp) (by simp), rfl, rfl⟩
  | failed =>
    apply h.update_last (OwnedBy.busy allowed)
    exact fun turn _ _ hturn => ⟨sound_ended hturn _ _ (by simp) (by simp), rfl, rfl⟩
  | reserved message options =>
    obtain ⟨hidle, -, hhost, input, rfl⟩ := allowed
    refine { h with turn := fun t ht => ?_, only_last := fun t ht => ?_, hosts := ?_
                    generation := fun t ht => ?_, written := fun w hw => ?_ }
    · rcases mem_append.mp ht with ht | ht
      · exact h.turn t ht
      · rw [mem_singleton.mp ht]
        exact ⟨by simp, ⟨input, [], rfl, fun _ => rfl⟩, fun _ => ⟨rfl, rfl⟩,
          fun hs => (nomatch hs), ⟨options, rfl⟩, h.configuration.1⟩
    · simp only [Session.after, dropLast_concat] at ht
      exact h.none_running hidle t ht
    · refine pairwise_append.mpr ⟨h.hosts, pairwise_singleton _ _, fun a ha b hb => ?_⟩
      rw [mem_singleton.mp hb]
      -- no turn has the identifier that the session does not know
      intro r r' hr hr' heq
      have hnone := find?_eq_none.mp (hhost r' hr') a ha
      simp [hr, heq] at hnone
    · rcases mem_append.mp ht with ht | ht
      · exact h.generation t ht
      · rw [mem_singleton.mp ht]
        exact Int.le_refl _
    · have := h.written w hw
      simp only [Session.after, length_append]
      omega
  | completed owner messages =>
    obtain ⟨howned, houtcome⟩ := allowed
    apply h.update_last howned.busy
    intro turn hlast _ hturn
    obtain ⟨input, rest, hmessages, -⟩ := hturn.opening
    exact ⟨⟨by simp [Turn.ended], ⟨input, rest ++ messages, by simp [hmessages],
      fun hs => (nomatch hs)⟩, fun hs => (nomatch hs), fun _ => houtcome turn hlast,
      hturn.options, hturn.model⟩, rfl, rfl⟩
  | renewed =>
    apply h.update_last (OwnedBy.busy allowed)
    exact fun turn _ hrunning hturn => ⟨{ hturn with leased := by simp [hrunning] }, rfl, rfl⟩
  | intended owner write =>
    obtain ⟨⟨turn, -, -, -, hposition⟩, hwrite⟩ := allowed
    refine { h with writes := ?_, written := fun w hw => ?_ }
    · refine pairwise_append.mpr ⟨h.writes, pairwise_singleton _ _, fun a ha b hb => ?_⟩
      rw [mem_singleton.mp hb, hwrite]
      have := h.written a ha
      omega
    · rcases mem_append.mp hw with hw | hw
      · exact h.written w hw
      · rw [mem_singleton.mp hw, hwrite]
        show owner.turn_position < s.turns.length
        omega
  | settled owner id status =>
    have hposition : ∀ w : WriteRecord,
        (settle id owner.turn_position status w).turn_position = w.turn_position := by
      intro w
      unfold settle
      split <;> rfl
    refine { h with writes := ?_, written := fun w hw => ?_ }
    · refine List.Pairwise.map _ (fun a b hab => ?_) h.writes
      rwa [hposition, hposition]
    · obtain ⟨w', hw', rfl⟩ := mem_map.mp hw
      rw [hposition]
      exact h.written w' hw'
  | switched generation identity metadata =>
    obtain ⟨-, rfl, -, -⟩ := allowed
    have hpositive : 0 ≤ s.configuration.model_generation := h.configuration.1.1
    refine { h with generation := fun t ht => ?_, configuration :=
      ⟨recorded_model_valid (s.configuration.model_generation + 1) (by omega) metadata _,
        h.configuration.2⟩ }
    have := h.generation t ht
    simp only [Session.after]
    omega

/-! ## What one event keeps -/

theorem getElem?_append_some {turns more : List Turn} (h : turns[p]? = some turn) :
    (turns ++ more)[p]? = some turn := by
  obtain ⟨hp, -⟩ := List.getElem?_eq_some_iff.mp h
  rw [getElem?_append_left hp, h]

/-- The events that change the last turn need it to be running. -/
theorem getElem?_after [Sha256] (s : Session) (allowed : s.Allows e)
    (hturn : s.turns[p]? = some turn) (hended : turn.status ≠ .Running) :
    (s.after e).turns[p]? = some turn := by
  -- an ended turn is not the last one of a busy session
  have hlast : s.busy = true → ∀ f, (update_last f s.turns)[p]? = some turn := by
    intro hbusy f
    obtain ⟨init, last, hs, hrunning⟩ := busy_iff.mp hbusy
    rw [getElem?_update_last, if_neg, hturn]
    intro hp
    have : p = init.length := by
      rw [hs] at hp
      simpa using hp
    subst this
    rw [hs] at hturn
    simp only [getElem?_concat_length, Option.some.injEq] at hturn
    exact hended (hturn ▸ hrunning)
  cases e with
  | interrupted => exact hlast allowed _
  | reserved => exact getElem?_append_some hturn
  | completed => exact hlast allowed.1.busy _
  | failed | renewed => exact hlast (OwnedBy.busy allowed) _
  | intended | settled | switched => exact hturn

/-- A turn keeps its request, its options and its model, running or not. -/
theorem exists_getElem?_after [Sha256] (s : Session) (e : Event) (hturn : s.turns[p]? = some turn) :
    ∃ turn', (s.after e).turns[p]? = some turn' ∧ turn'.request = turn.request ∧
      turn'.options = turn.options ∧ turn'.model = turn.model ∧ turn'.token = turn.token := by
  have hlast : ∀ f : Turn → Turn, (∀ t, (f t).request = t.request ∧ (f t).options = t.options ∧
      (f t).model = t.model ∧ (f t).token = t.token) →
      ∃ turn', (update_last f s.turns)[p]? = some turn' ∧ turn'.request = turn.request ∧
        turn'.options = turn.options ∧ turn'.model = turn.model ∧ turn'.token = turn.token := by
    intro f hf
    rw [getElem?_update_last]
    split
    · exact ⟨f turn, by rw [hturn, Option.map_some], hf turn⟩
    · exact ⟨turn, hturn, rfl, rfl, rfl, rfl⟩
  cases e with
  | interrupted | completed | failed | renewed => exact hlast _ fun t => ⟨rfl, rfl, rfl, rfl⟩
  | reserved => exact ⟨turn, getElem?_append_some hturn, rfl, rfl, rfl, rfl⟩
  | intended | settled | switched => exact ⟨turn, hturn, rfl, rfl, rfl, rfl⟩

/-- The generation never falls, and a switch makes it larger. -/
theorem generation_le_after [Sha256] (s : Session) (allowed : s.Allows e) :
    s.configuration.model_generation ≤ (s.after e).configuration.model_generation := by
  cases e with
  | switched =>
    obtain ⟨-, rfl, -, -⟩ := allowed
    simp only [Session.after]
    omega
  | _ => exact Int.le_refl _

end Session

/-! ## Chronicles -/

abbrev Sessions : Type := String → Option Session

/-- What has happened to which session, newest first. -/
abbrev Chronicle : Type := List (String × Event)

inductive Advance [Sha256] : Sessions × Chronicle → Sessions × Chronicle → Prop where
  | create {sessions : Sessions} {chronicle : Chronicle} (id : String) (config : NewSession)
      (metadata : Option ModelMetadata) (max_history_bytes : Nat) (free : sessions id = none) :
      Advance (sessions, chronicle)
        (update sessions id (some (Session.create config metadata max_history_bytes)),
          chronicle)
  | event {sessions : Sessions} {chronicle : Chronicle} (id : String) (s : Session) (e : Event)
      (present : sessions id = some s) (allowed : s.Allows e) :
      Advance (sessions, chronicle)
        (update sessions id (some (s.after e)), (id, e) :: chronicle)

abbrev Leads [Sha256] : Sessions × Chronicle → Sessions × Chronicle → Prop :=
  Relation.ReflTransGen Advance

/-- A store has come to this from nothing. -/
def Lived [Sha256] (sessions : Sessions) (chronicle : Chronicle) : Prop :=
  Leads (fun _ => none, []) (sessions, chronicle)

/-- What has happened to one session, newest first. -/
def Chronicle.of (chronicle : Chronicle) (id : String) : List Event :=
  (chronicle.filter fun entry => entry.1 = id).map Prod.snd

section Chronicles

variable [Sha256] {sessions sessions' : Sessions} {chronicle chronicle' : Chronicle} {id : String}
  {s s' : Session}

theorem Lived.leads (h : Lived sessions chronicle)
    (h' : Leads (sessions, chronicle) (sessions', chronicle')) : Lived sessions' chronicle' :=
  Relation.ReflTransGen.trans h h'

/-- What holds of a session when it is created, and is kept by every event, holds of
every session. -/
theorem Lived.invariant (Inv : Chronicle → String → Session → Prop)
    (h : Lived sessions chronicle) (hs : sessions id = some s)
    (create : ∀ chronicle id config metadata max_history_bytes,
      Chronicle.of chronicle id = [] →
      Inv chronicle id (Session.create config metadata max_history_bytes))
    (event : ∀ chronicle id s e, s.Sound → Inv chronicle id s → s.Allows e →
      Inv ((id, e) :: chronicle) id (s.after e))
    (other : ∀ chronicle id id' s e, id' ≠ id → Inv chronicle id s →
      Inv ((id', e) :: chronicle) id s) : s.Sound ∧ Inv chronicle id s := by
  -- a session that does not exist has no events
  suffices hall : ∀ p : Sessions × Chronicle, Leads (fun _ => none, []) p → ∀ id,
      (∀ s, p.1 id = some s → s.Sound ∧ Inv p.2 id s) ∧
        (p.1 id = none → Chronicle.of p.2 id = []) from (hall _ h id).1 s hs
  intro p hp
  induction hp with
  | refl => exact fun id => ⟨fun s hs => (nomatch hs), fun _ => rfl⟩
  | tail _ hstep ih =>
    intro id
    cases hstep with
    | create id₀ _ _ _ free =>
      by_cases hid : id = id₀
      · subst hid
        simp only [update_self, Option.some.injEq, reduceCtorEq, false_implies, and_true]
        rintro s rfl
        exact ⟨Session.sound_create _ _ _, create _ _ _ _ _ ((ih id).2 free)⟩
      · simp only [update_of_ne hid]
        exact ih id
    | event id₀ s₀ e present allowed =>
      by_cases hid : id = id₀
      · subst hid
        simp only [update_self, Option.some.injEq, reduceCtorEq, false_implies, and_true]
        rintro s rfl
        obtain ⟨hsound, hinv⟩ := (ih id).1 s₀ present
        exact ⟨hsound.after allowed, event _ _ _ _ hsound hinv allowed⟩
      · simp only [update_of_ne hid]
        have hne : id₀ ≠ id := fun h => hid h.symm
        refine ⟨fun s hs => ?_, fun hnone => ?_⟩
        · obtain ⟨hsound, hinv⟩ := (ih id).1 s hs
          exact ⟨hsound, other _ _ _ _ _ hne hinv⟩
        · simp only [Chronicle.of, filter_cons]
          rw [if_neg (by simpa using hne)]
          exact (ih id).2 hnone

theorem Lived.sound (h : Lived sessions chronicle) (hs : sessions id = some s) : s.Sound :=
  (h.invariant (fun _ _ _ => True) hs (fun _ _ _ _ _ _ => trivial)
    (fun _ _ _ _ _ _ _ => trivial) fun _ _ _ _ _ _ _ => trivial).1

section

variable (h : Leads (sessions, chronicle) (sessions', chronicle')) (hs : sessions id = some s)

include h hs

theorem Leads.keeps {P : Session → Session → Prop} (refl : ∀ s, P s s)
    (step : ∀ s₁ s₂ e, P s₁ s₂ → s₂.Allows e → P s₁ (s₂.after e)) :
    ∃ s', sessions' id = some s' ∧ P s s' := by
  suffices hall : ∀ p : Sessions × Chronicle, Leads (sessions, chronicle) p →
      ∃ s', p.1 id = some s' ∧ P s s' from hall _ h
  intro p hp
  induction hp with
  | refl => exact ⟨s, hs, refl s⟩
  | tail _ hstep ih =>
    obtain ⟨s', hs', hP⟩ := ih
    cases hstep with
    | create id₀ _ _ _ free =>
      have hid : id ≠ id₀ := by
        rintro rfl
        cases free.symm.trans hs'
      exact ⟨s', (update_of_ne hid ..).trans hs', hP⟩
    | event id₀ s₀ e present allowed =>
      by_cases hid : id = id₀
      · subst hid
        cases present.symm.trans hs'
        exact ⟨s'.after e, update_self .., step s s' e hP allowed⟩
      · exact ⟨s', (update_of_ne hid ..).trans hs', hP⟩

/-- **A turn that has ended never changes.** -/
theorem Leads.ended_turn {p : Nat} {turn : Turn} (hturn : s.turns[p]? = some turn)
    (hended : turn.status ≠ .Running) :
    ∃ s', sessions' id = some s' ∧ s'.turns[p]? = some turn := by
  obtain ⟨s', hs', hkept⟩ := h.keeps (P := fun s s' => s.turns[p]? = some turn →
    s'.turns[p]? = some turn) hs (fun _ h => h) fun s₁ s₂ e hP allowed h₁ =>
      s₂.getElem?_after allowed (hP h₁) hended
  exact ⟨s', hs', hkept hturn⟩

theorem Leads.generation_le :
    ∃ s', sessions' id = some s' ∧
      s.configuration.model_generation ≤ s'.configuration.model_generation :=
  h.keeps (P := fun s s' =>
    s.configuration.model_generation ≤ s'.configuration.model_generation) hs
    (fun _ => Int.le_refl _) fun _ s₂ _ hP allowed =>
      Int.le_trans hP (s₂.generation_le_after allowed)

end

/-! ## Host identifiers -/

theorem Session.Sound.host_unique (h : s.Sound) {p q : Nat} {turn turn' : Turn}
    {r r' : HostRequest} (hp : s.turns[p]? = some turn) (hq : s.turns[q]? = some turn')
    (hr : turn.request = some r) (hr' : turn'.request = some r') (hid : r.id = r'.id) : p = q := by
  obtain ⟨hplt, hp⟩ := List.getElem?_eq_some_iff.mp hp
  obtain ⟨hqlt, hq⟩ := List.getElem?_eq_some_iff.mp hq
  have hosts := pairwise_iff_getElem.mp h.hosts
  rcases Nat.lt_trichotomy p q with hlt | heq | hgt
  · exact absurd hid (hosts p q hplt hqlt hlt r r' (hp ▸ hr) (hq ▸ hr'))
  · exact heq
  · exact absurd hid.symm (hosts q p hqlt hplt hgt r' r (hq ▸ hr') (hp ▸ hr))

/-! ## Continuations -/

/-- The newest event that matters to the continuation is a completion that produced
it. Journaling a write does not matter. -/
def Standing (continuation : String) : List Event → Prop
  | .completed _ _ produced _ :: _ => produced = some continuation
  | .intended _ _ :: older => Standing continuation older
  | .settled _ _ _ :: older => Standing continuation older
  | _ => False

/-- A stored continuation stands, or a turn is running. The model of a running turn is
the selected one. -/
structure Continued (events : List Event) (s : Session) : Prop where
  running : ∀ turn, s.turns.getLast? = some turn → turn.status = .Running →
    turn.model.generation = s.configuration.model_generation
  stands : ∀ c, s.configuration.provider_session_id = some c → s.busy = false →
    Standing c events ∧ ∃ turn, s.turns.getLast? = some turn ∧ turn.status = .Completed ∧
      turn.model.generation = s.configuration.model_generation

theorem Continued.after {events : List Event} (h : Continued events s) {e : Event}
    (allowed : s.Allows e) : Continued (e :: events) (s.after e) := by
  -- a turn that is given up leaves no continuation
  have hcleared : ∀ status error_type, status ≠ .Running →
      Continued (e :: events) { s with
        configuration := { s.configuration with provider_session_id := none }
        turns := update_last (·.ended status error_type) s.turns } := by
    intro status error_type hstatus
    refine ⟨fun turn hlast hrunning => ?_, fun c hc => nomatch hc⟩
    simp only [getLast?_update_last] at hlast
    obtain ⟨turn', -, rfl⟩ := Option.map_eq_some_iff.mp hlast
    exact absurd hrunning hstatus
  cases e with
  | interrupted => exact hcleared .Interrupted _ (by simp)
  | failed => exact hcleared .Failed _ (by simp)
  | reserved =>
    refine ⟨fun turn hlast _ => ?_, fun c _ hidle => ?_⟩
    · simp only [Session.after, getLast?_concat, Option.some.injEq] at hlast
      subst hlast
      rfl
    · simp [Session.busy, Session.after] at hidle
  | completed =>
    obtain ⟨init, turn, hs, hrunning⟩ := Session.busy_iff.mp allowed.1.busy
    have hmodel := h.running turn (by simp [hs]) hrunning
    refine ⟨fun turn' hlast hrunning' => ?_, fun c hc _ => ⟨hc, ?_⟩⟩
    · simp only [Session.after, hs, update_last_concat, getLast?_concat,
        Option.some.injEq] at hlast
      subst hlast
      cases hrunning'
    · simp only [Session.after, hs, update_last_concat, getLast?_concat]
      exact ⟨_, rfl, rfl, hmodel⟩
  | renewed =>
    obtain ⟨init, turn, hs, hrunning⟩ := Session.busy_iff.mp (Session.OwnedBy.busy allowed)
    refine ⟨fun turn' hlast _ => ?_, fun c _ hidle => ?_⟩
    · simp only [Session.after, hs, update_last_concat, getLast?_concat,
        Option.some.injEq] at hlast
      subst hlast
      exact h.running turn (by simp [hs]) hrunning
    · simp [Session.busy, Session.after, hs, hrunning] at hidle
  | intended | settled => exact ⟨h.running, h.stands⟩
  | switched =>
    refine ⟨fun turn hlast hrunning => ?_, fun c hc => nomatch hc⟩
    have hidle := allowed.1
    simp only [Session.after] at hlast
    simp [Session.busy, hlast, hrunning] at hidle

theorem Lived.continued (h : Lived sessions chronicle) (hs : sessions id = some s) :
    Continued (Chronicle.of chronicle id) s := by
  refine (h.invariant (fun chronicle id s => Continued (Chronicle.of chronicle id) s) hs
    ?_ ?_ ?_).2
  · intro chronicle id config metadata max_history_bytes _
    exact ⟨fun turn hlast => (nomatch hlast), fun c hc => nomatch hc⟩
  · intro chronicle id s e _ hinv allowed
    have hof : Chronicle.of ((id, e) :: chronicle) id = e :: Chronicle.of chronicle id := by
      simp [Chronicle.of]
    rw [hof]
    exact hinv.after allowed
  · intro chronicle id id' s e hne hinv
    have hof : Chronicle.of ((id', e) :: chronicle) id = Chronicle.of chronicle id := by
      simp [Chronicle.of, hne]
    rw [hof]
    exact hinv

/-- **A continuation that is handed out stands.** The last turn completed, produced it,
had compatible options, and was run with the selected model. -/
theorem Lived.handed (h : Lived sessions chronicle) (hs : sessions id = some s)
    (hidle : s.busy = false) {options : TurnOptions} {c : String}
    (hc : s.continuation_for options = some c) :
    Standing c (Chronicle.of chronicle id) ∧ ∃ turn, s.turns.getLast? = some turn ∧
      turn.status = .Completed ∧ turn.options.continuation_compatible options = true ∧
      turn.model.generation = s.configuration.model_generation := by
  obtain ⟨hstored, hcompatible⟩ := Option.filter_eq_some_iff.mp hc
  obtain ⟨hstanding, turn, hlast, hcompleted, hmodel⟩ :=
    (h.continued hs).stands c hstored hidle
  refine ⟨hstanding, turn, hlast, hcompleted, ?_, hmodel⟩
  -- the newest completed turn is the last one
  have hnewest : s.completed.getLast? = some turn := by
    obtain ⟨init, hinit⟩ := getLast?_eq_some_iff.mp hlast
    rw [Session.completed, hinit, filter_append]
    simp [hcompleted]
  simpa [hnewest] using hcompatible

end Chronicles

end Agentty.Harness
