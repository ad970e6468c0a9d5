/-
`MemoryStore` keeps to its deeds.

The session of a record is its turns without the owners, which are fixed by the
session and the position. Every call is one `Effects` step on the sessions of the
store.
-/
import Agentty.Harness.Deeds

set_option autoImplicit false

namespace Agentty.Harness

open List Function

/-! ## Sessions of a memory store -/

/-- A turn, without its owner; the deadline of a turn that has ended is not used. -/
def TurnRecord.turn (turn : TurnRecord) : Turn where
  error_type := turn.error_type
  lease := if turn.status = .Running then some turn.deadline else none
  messages := turn.messages
  model := turn.model
  options := turn.options
  outcome := turn.outcome
  request := turn.request
  status := turn.status
  token := turn.owner.token

def Record.session (record : Record) : Session where
  configuration := record.configuration
  turns := record.turns.map TurnRecord.turn
  writes := record.writes

def MemoryStore.view (store : MemoryStore) : Sessions := fun id =>
  (store.sessions id).map Record.session

/-- Owners are those of their positions, and writes are numbered in order. -/
structure Record.Kept (record : Record) (identity : StoreIdentity) (next_write : Nat)
    (id : String) : Prop where
  next_turn : record.next_turn = record.turns.length
  owner : ∀ (p : Nat) (turn : TurnRecord), record.turns[p]? = some turn →
    turn.owner.identity = (identity, id, p, turn.owner.token)
  write_ids : record.writes.Pairwise fun a b => a.id < b.id
  written : ∀ write ∈ record.writes, write.id ≤ next_write

/-- The store shows these sessions, and all its records are kept. -/
structure MemoryHolds (store : MemoryStore) (sessions : Sessions) : Prop where
  view : sessions = store.view
  kept : ∀ id record, store.sessions id = some record →
    record.Kept store.identity store.next_write id

section Records

variable {record : Record} {identity : StoreIdentity} {next_write : Nat} {id : String}

@[simp] theorem Record.session_turns :
    record.session.turns = record.turns.map TurnRecord.turn := rfl

@[simp] theorem Record.session_configuration :
    record.session.configuration = record.configuration := rfl

@[simp] theorem Record.session_writes : record.session.writes = record.writes := rfl

theorem Record.busy_session : record.session.busy = record.busy := by
  simp only [Session.busy, Record.busy, Record.session_turns, getLast?_map]
  cases record.turns.getLast? <;> rfl

variable {f : TurnRecord → TurnRecord}

/-- What `f` does to the last record is what `g` does to the last turn. The two need to agree on
that record only, because some updates are right only for a turn that runs. -/
theorem Record.session_update_last (g : Turn → Turn)
    (hfg : ∀ turn, record.turns.getLast? = some turn → (f turn).turn = g turn.turn)
    (configuration : LoadedSession) :
    Record.session { record with
      configuration := configuration
      turns := Harness.update_last f record.turns }
      = { record.session with
          configuration := configuration
          turns := Harness.update_last g record.session.turns } := by
  simp only [Record.session]
  rw [map_update_last f TurnRecord.turn g record.turns hfg]

theorem Record.session_interrupt_last [Sha256] (error_type : String) :
    (record.interrupt_last error_type).session = record.session.after (.interrupted error_type) :=
  Record.session_update_last (·.ended .Interrupted (some error_type))
    (fun turn _ => by simp [TurnRecord.turn, Turn.ended]) _

/-- Recovery looks at the last turn alone: a turn runs only at the end of a session. -/
theorem Record.recover_cases (record : Record) (now : Int) :
    record.recover now = record ∨
      (record.session.Lapsed now ∧ record.recover now = record.interrupt_last "interrupted") := by
  unfold Record.recover
  split
  · exact .inl rfl
  rename_i turn hlast
  split
  · next h =>
    refine .inr ⟨⟨turn.turn, turn.deadline, by simp [hlast], h.1, ?_, h.2⟩, rfl⟩
    simp [TurnRecord.turn, h.1]
  · exact .inl rfl

/-- A turn of a record has its position in its owner, one of a session in the list. -/
theorem find?_zipIdx (test : Turn → Bool) (turns : List TurnRecord) (n : Nat)
    (h : ∀ (p : Nat) (turn : TurnRecord), turns[p]? = some turn →
      turn.owner.turn_position = n + p) :
    ((turns.map TurnRecord.turn).zipIdx n).find? (fun turn => test turn.1)
      = (turns.find? fun turn => test turn.turn).map
          fun turn => (turn.turn, turn.owner.turn_position) := by
  induction turns generalizing n with
  | nil => rfl
  | cons turn turns ih =>
    have hhead : turn.owner.turn_position = n := h 0 turn rfl
    have htail := ih (n + 1) fun p t hp => by
      have := h (p + 1) t hp
      omega
    simp only [map_cons, zipIdx_cons, find?_cons]
    cases test turn.turn with
    | true => simp [hhead]
    | false => exact htail

variable (h : record.Kept identity next_write id)

include h

/-- An update that keeps the owner keeps the record, whatever else it writes. -/
theorem Record.Kept.update_last (hf : ∀ turn, (f turn).owner = turn.owner)
    (configuration : LoadedSession) :
    Record.Kept { record with
      configuration := configuration
      turns := Harness.update_last f record.turns } identity next_write id := by
  refine { h with next_turn := by simpa using h.next_turn, owner := fun p turn hturn => ?_ }
  simp only [getElem?_update_last] at hturn
  split at hturn
  · obtain ⟨turn', hturn', rfl⟩ := Option.map_eq_some_iff.mp hturn
    rw [hf]
    exact h.owner p turn' hturn'
  · exact h.owner p turn hturn

theorem Record.Kept.interrupt_last (error_type : String) :
    (record.interrupt_last error_type).Kept identity next_write id :=
  h.update_last (f := fun turn =>
    { turn with status := .Interrupted, error_type := some error_type }) (fun _ => rfl) _

theorem Record.Kept.recover (now : Int) :
    (record.recover now).Kept identity next_write id := by
  rcases record.recover_cases now with heq | ⟨-, heq⟩ <;> rw [heq]
  · exact h
  · exact h.interrupt_last _

variable {turn : TurnRecord} {owner : TurnOwner}

/-- The source compares whole identities of owners. For the last turn of a kept record that is a
comparison of positions and tokens, which is what a session has of an owner. -/
theorem Record.Kept.position (hlast : record.turns.getLast? = some turn)
    (howner : turn.owner.identity = owner.identity) :
    owner.session_id = id ∧ owner.turn_position + 1 = record.turns.length ∧
      turn.owner.token = owner.token := by
  obtain ⟨init, hinit⟩ := getLast?_eq_some_iff.mp hlast
  have hkept := h.owner init.length turn (by simp [hinit])
  rw [howner] at hkept
  simp only [TurnOwner.identity, Prod.mk.injEq] at hkept
  obtain ⟨-, hid, hposition, htoken⟩ := hkept
  exact ⟨hid, by rw [hposition, hinit]; simp, htoken.symm⟩

/-- `live_turn` also asks for the lease; who owns the turn does not depend on it. -/
theorem Record.Kept.owned {now : Int} (hlive : record.live_turn owner now = some turn) :
    record.session.OwnedBy owner ∧ record.turns.getLast? = some turn := by
  obtain ⟨hlast, htest⟩ := Option.filter_eq_some_iff.mp hlive
  simp only [Bool.and_eq_true, decide_eq_true_eq] at htest
  obtain ⟨⟨howner, hrunning⟩, -⟩ := htest
  obtain ⟨-, hposition, htoken⟩ := h.position hlast howner
  exact ⟨⟨turn.turn, by simp [hlast], hrunning, htoken, by simpa using hposition⟩, hlast⟩

/-- The lookup of a host request finds the turn that the session has under it, at the same
position. -/
theorem Record.Kept.request (host_id : String) :
    record.request host_id = record.session.host_record host_id := by
  have hpositions : ∀ (p : Nat) (turn : TurnRecord), record.turns[p]? = some turn →
      turn.owner.turn_position = 0 + p := by
    intro p turn hturn
    have := h.owner p turn hturn
    simp only [TurnOwner.identity, Prod.mk.injEq] at this
    omega
  have hfound := find?_zipIdx (fun turn => turn.request.any fun request => request.id = host_id)
    record.turns 0 hpositions
  unfold Record.request Session.host_record
  rw [Record.session_turns, hfound]
  simp only [TurnRecord.turn]
  cases record.turns.find? fun turn => turn.request.any fun request =>
    decide (request.id = host_id) with
  | none | some => rfl

end Records

section Reserved

variable {record : Record} {identity : StoreIdentity} {next_write : Nat} {id : String}

/-- A reservation, as `acquire` makes it. -/
def Record.reserved [Sha256] (record : Record) (identity : StoreIdentity) (id : String)
    (input : TurnInput) (options : TurnOptions) (request : Option HostRequest) (deadline : Int) :
    Record :=
  { record with
    turns := record.turns ++
      [{ model := record.configuration.recorded_model
         deadline := deadline
         error_type := none
         messages := [input.into_user_message]
         options := StoredTurnOptions.encode options
         outcome := none
         owner := TurnOwner.new identity id record.next_turn
           (MemoryStore.to_le_bytes record.next_turn)
         request := request
         status := .Running }]
    next_turn := record.next_turn + 1
    configuration :=
      { record.configuration with
        provider_session_id := record.session.continuation_for options } }

theorem Record.session_reserved [Sha256] (generation : Int) (input : TurnInput)
    (options : TurnOptions) (request : Option HostRequest) (deadline : Int) :
    (record.reserved identity id input options request deadline).session
      = record.session.after (.reserved input.into_user_message options request generation
          (MemoryStore.to_le_bytes record.next_turn) deadline) := by
  simp [Record.session, Record.reserved, Session.after, TurnRecord.turn, TurnOwner.new]

theorem Session.settle_id (id turn_position : Nat) (status : WriteStatus) (write : WriteRecord) :
    (settle id turn_position status write).id = write.id := by
  unfold settle
  split <;> rfl

variable (h : record.Kept identity next_write id)

include h

theorem Record.Kept.configured (configuration : LoadedSession) :
    Record.Kept { record with configuration := configuration } identity next_write id :=
  { h with }

theorem Record.Kept.reserved [Sha256] (input : TurnInput) (options : TurnOptions)
    (request : Option HostRequest) (deadline : Int) :
    (record.reserved identity id input options request deadline).Kept identity next_write id := by
  refine { h with next_turn := ?_, owner := fun p turn hturn => ?_ }
  · simp [Record.reserved, h.next_turn]
  · simp only [Record.reserved, getElem?_append] at hturn
    split at hturn
    · exact h.owner p turn hturn
    obtain ⟨hlt, rfl⟩ := List.getElem?_eq_some_iff.mp hturn
    have : p = record.next_turn := by
      simp only [length_singleton] at hlt
      rw [h.next_turn]
      omega
    simp [TurnOwner.identity, TurnOwner.new, this]

/-- Writes are counted over all sessions of a store, so a new number is above those of every
record, not only of its own. -/
theorem Record.Kept.intended (write : WriteRecord) (hid : write.id = next_write + 1) :
    Record.Kept { record with writes := record.writes ++ [write] }
      identity (next_write + 1) id := by
  refine { h with write_ids := ?_, written := fun other hother => ?_ }
  · refine pairwise_append.mpr ⟨h.write_ids, pairwise_singleton _ _, fun a ha b hb => ?_⟩
    have := h.written a ha
    rw [mem_singleton.mp hb]
    omega
  · rcases mem_append.mp hother with hother | hother
    · exact Nat.le_succ_of_le (h.written other hother)
    · rw [mem_singleton.mp hother]
      omega

theorem Record.Kept.settled (write turn_position : Nat) (status : WriteStatus) :
    Record.Kept { record with
      writes := record.writes.map (Session.settle write turn_position status) }
      identity next_write id := by
  refine { h with write_ids := List.Pairwise.map _ (fun a b hab => ?_) h.write_ids
                  written := fun other hother => ?_ }
  · rw [Session.settle_id, Session.settle_id]
    exact hab
  · obtain ⟨write', hwrite', rfl⟩ := mem_map.mp hother
    rw [Session.settle_id]
    exact h.written write' hwrite'

end Reserved

variable {owner : TurnOwner}

/-- A turn that runs has no error yet. This is why a completion, which leaves the field as it is,
leaves it empty. -/
theorem Session.Sound.fresh [Sha256] {record : Record} {turn : TurnRecord}
    (hsound : record.session.Sound)
    (howned : record.session.OwnedBy owner) (hlast : record.turns.getLast? = some turn) :
    turn.status = .Running ∧ turn.error_type = none := by
  obtain ⟨turn', hlast', hrunning, -, -⟩ := howned
  simp only [Record.session_turns, getLast?_map, hlast, Option.map_some,
    Option.some.injEq] at hlast'
  subst hlast'
  have hmem : turn.turn ∈ record.session.turns :=
    mem_map_of_mem (mem_of_getLast? hlast)
  exact ⟨hrunning, ((hsound.turn _ hmem).fresh hrunning).1⟩

/-! ## The store after a call -/

section Store

variable {store : MemoryStore} {sessions : Sessions} {chronicle : Chronicle} {id : String}
  {record : Record}

theorem Record.completed_messages (record : Record) :
    (record.turns.filter fun turn => turn.status = .Completed).flatMap (·.messages)
      = record.session.completed_messages := by
  simp only [Session.completed_messages, Session.completed, Record.session_turns, filter_map,
    flatMap_map]
  rfl

/-- The error branch of `continuation` is never taken: the options of a turn in the store were
encoded there, and such options decode. -/
theorem Record.continuation_eq [Sha256] (hsound : record.session.Sound) (options : TurnOptions) :
    MemoryStore.continuation record options = .ok (record.session.continuation_for options) := by
  have hnewest : record.session.completed.getLast?
      = (record.turns.reverse.find? fun turn => turn.status = .Completed).map TurnRecord.turn := by
    rw [getLast?_eq_head?_reverse, Session.completed, ← filter_reverse,
      head?_filter, Record.session_turns, ← map_reverse, find?_map]
    rfl
  unfold MemoryStore.continuation Session.continuation_for
  rw [hnewest]
  dsimp only
  split
  · next heq =>
    rw [heq]
    cases record.session.configuration.provider_session_id <;> rfl
  · next turn heq =>
    rw [heq]
    -- the options of every turn have been encoded
    have hmem : turn.turn ∈ record.session.turns :=
      mem_map.mpr ⟨turn, mem_reverse.mp (mem_of_find?_eq_some heq), rfl⟩
    obtain ⟨encoded, hencoded⟩ := (hsound.turn _ hmem).options
    have hoptions : turn.options = StoredTurnOptions.encode encoded := hencoded
    rw [hoptions, StoredTurnOptions.decode_encode]
    simp only [Option.map_some, Option.any_some, Record.session_configuration]
    rw [show turn.turn.options = StoredTurnOptions.encode encoded from hencoded]

/-- Numbers are used once, so settling the first write that matches settles all. -/
theorem settle_write_eq {id turn_position : Nat} {status : WriteStatus}
    {writes writes' : List WriteRecord} (hids : writes.Pairwise fun a b => a.id < b.id)
    (h : MemoryStore.settle_write id turn_position status writes = some writes') :
    writes' = writes.map (Session.settle id turn_position status) := by
  induction writes generalizing writes' with
  | nil => cases h
  | cons write writes ih =>
    obtain ⟨hlater, hids⟩ := pairwise_cons.mp hids
    simp only [MemoryStore.settle_write] at h
    split at h
    · next hmatch =>
      cases h
      have hothers : writes.map (Session.settle id turn_position status) = writes.map fun w => w :=
        map_congr_left fun other hother => by
          have := hlater other hother
          exact if_neg fun h => by omega
      rw [map_cons, hothers, map_id', Session.settle, if_pos hmatch]
    · next hmiss =>
      obtain ⟨rest, hrest, rfl⟩ := Option.map_eq_some_iff.mp h
      rw [ih hids hrest, map_cons, Session.settle, if_neg hmiss]

/-- What is to be shown of one call: its deed has had its effect. -/
def Deeds [Sha256] (sessions : Sessions) (chronicle : Chronicle) (call : StoreCall)
    (result : MemoryStore × Except SessionError call.Reply) : Prop :=
  ∃ y, Effects (sessions, chronicle) (call.deed result.2) y ∧ MemoryHolds result.1 y.1

variable (h : MemoryHolds store sessions)

include h

theorem MemoryHolds.sessions_eq (hrecord : store.sessions id = some record) :
    sessions id = some record.session := by
  rw [h.view, MemoryStore.view, hrecord, Option.map_some]

theorem MemoryHolds.sessions_none (hrecord : store.sessions id = none) :
    sessions id = none := by
  rw [h.view, MemoryStore.view, hrecord, Option.map_none]

theorem MemoryHolds.put (hkept : record.Kept store.identity store.next_write id) :
    MemoryHolds (store.put id record) (update sessions id (some record.session)) where
  view := by
    funext id'
    by_cases hid : id' = id
    · subst hid
      simp [MemoryStore.view, MemoryStore.put]
    · simp [MemoryStore.view, MemoryStore.put, update_of_ne hid, h.view]
  kept id' record' hrecord' := by
    by_cases hid : id' = id
    · subst hid
      simp only [MemoryStore.put, update_self, Option.some.injEq] at hrecord'
      exact hrecord' ▸ hkept
    · simp only [MemoryStore.put, update_of_ne hid] at hrecord'
      exact h.kept id' record' hrecord'

omit h in
/-- A call that recovers a session first and then changes it writes its record twice; the second
write is the one that counts. -/
theorem MemoryHolds.put_again {record' : Record} (h : MemoryHolds (store.put id record) sessions)
    (hkept : record'.Kept store.identity store.next_write id) :
    MemoryHolds (store.put id record') (update sessions id (some record'.session)) := by
  have hput := h.put hkept
  simpa only [MemoryStore.put, update_idem] using hput

/-- The counter of writes may run ahead of the records. -/
theorem MemoryHolds.counted :
    MemoryHolds { store with next_write := store.next_write + 1 } sessions where
  view := h.view
  kept id record hrecord :=
    have hkept := h.kept id record hrecord
    { hkept with written := fun write hwrite => Nat.le_succ_of_le (hkept.written write hwrite) }

/-- A read of a session ends its lapsed turn first, and shows the session after that. -/
theorem MemoryHolds.lapses [Sha256] (hrecord : store.sessions id = some record) (now : Int) :
    ∃ sessions', Lapses sessions sessions' id now ∧
      MemoryHolds (store.put id (record.recover now)) sessions' ∧
      sessions' id = some (record.recover now).session := by
  have hkept := (h.kept id record hrecord).recover now
  have hput := h.put hkept
  rcases record.recover_cases now with heq | ⟨hlapsed, heq⟩
  · refine ⟨sessions, .inl rfl, ?_, ?_⟩
    · rw [heq] at hput ⊢
      rwa [update_eq_self_iff.mpr (h.sessions_eq hrecord).symm] at hput
    · rw [heq]
      exact h.sessions_eq hrecord
  · refine ⟨_, .inr ⟨_, h.sessions_eq hrecord, hlapsed, rfl⟩, ?_, ?_⟩
    · rw [heq, Record.session_interrupt_last] at hput
      rw [heq]
      exact hput
    · rw [heq, Record.session_interrupt_last]
      exact update_self _ _ _

theorem MemoryHolds.recovered [Sha256] (hrecord : store.sessions id = some record) (now : Int)
    (chronicle : Chronicle) :
    ∃ y, Recovered id (sessions, chronicle) y ∧
      MemoryHolds (store.put id (record.recover now)) y.1 ∧
      y.1 id = some (record.recover now).session := by
  obtain ⟨sessions', hlapses, hholds, hs⟩ := h.lapses hrecord now
  obtain ⟨chronicle', hrecovered⟩ := hlapses.recovered chronicle
  exact ⟨(sessions', chronicle'), hrecovered, hholds, hs⟩

/-! ## Calls -/

variable [Sha256] (chronicle) (now : Int)

theorem create_session_deeds (config : NewSession)
    (metadata : Option ModelMetadata) (max_history_bytes : Nat) :
    Deeds sessions chronicle (.create_session config metadata max_history_bytes)
      (store.create_session config metadata max_history_bytes) := by
  unfold MemoryStore.create_session
  split
  · exact ⟨_, .nothing, h⟩
  split
  · exact ⟨_, .nothing, h⟩
  rename_i hfree
  have hnone : store.sessions config.id = none := by simpa using hfree
  refine ⟨_, .created config metadata max_history_bytes (h.sessions_none hnone), ?_⟩
  exact h.put ⟨rfl, fun p turn hturn => by simp at hturn, List.Pairwise.nil,
    fun write hwrite => (nomatch hwrite)⟩

theorem load_session_deeds (id : String) :
    Deeds sessions chronicle (.load_session id) (store.load_session now id) := by
  unfold MemoryStore.load_session
  split
  · exact ⟨_, .looked .refl, h⟩
  · next record hrecord =>
    obtain ⟨y, hrecovered, hholds, -⟩ := h.recovered hrecord now chronicle
    exact ⟨y, .looked hrecovered, hholds⟩

theorem load_request_deeds (id host_id : String) :
    Deeds sessions chronicle (.load_request id host_id) (store.load_request now id host_id) := by
  unfold MemoryStore.load_request
  split
  · exact ⟨_, .looked .refl, h⟩
  rename_i record hrecord
  obtain ⟨⟨sessions', chronicle'⟩, hrecovered, hholds, hs⟩ := h.recovered hrecord now chronicle
  refine ⟨(sessions', chronicle'), ?_, hholds⟩
  simp only [StoreCall.deed, ((h.kept id record hrecord).recover now).request host_id]
  exact .answered hrecovered hs

theorem switch_model_deeds (id : String) (generation : Int) (identity : ExecutionIdentity)
    (metadata : Option ModelMetadata) (capabilities : ModelCapabilities) :
    Deeds sessions chronicle (.switch_model id generation identity metadata capabilities)
      (store.switch_model now id generation identity metadata capabilities) := by
  unfold MemoryStore.switch_model
  split
  · exact ⟨_, .looked .refl, h⟩
  rename_i record hrecord
  obtain ⟨⟨sessions', chronicle'⟩, hrecovered, hholds, hs⟩ := h.recovered hrecord now chronicle
  dsimp only
  -- every rejection leaves the recovered session
  have hrejected : ∀ error, Deeds sessions chronicle
      (.switch_model id generation identity metadata capabilities)
      (store.put id (record.recover now), .error error) :=
    fun error => ⟨_, .looked hrecovered, hholds⟩
  split
  · exact hrejected _
  rename_i hgeneration
  split
  · exact hrejected _
  rename_i hidle
  -- the history is checked under the lock of the store, so it is that of the switch
  split
  · exact hrejected _
  rename_i hhistory
  split
  · exact hrejected _
  rename_i next hnext
  obtain ⟨hle, rfl⟩ := next_generation_ok hnext
  rw [Record.completed_messages] at hhistory
  have hallowed : (record.recover now).session.Allows
      (.switched generation identity metadata capabilities) :=
    ⟨by rw [Record.busy_session]; simpa using hidle, (check_generation_ok hgeneration).symm, hle,
      hhistory⟩
  exact ⟨_, .switched hrecovered (.intro hs hallowed),
    hholds.put_again (((h.kept id record hrecord).recover now).configured _)⟩

/-! ### Owners -/

variable {call : StoreCall}

/-- An owner-scoped call on a turn that is not the owner's is refused. -/
theorem owned_deeds {body : Record → MemoryStore × Except SessionError call.Reply}
    (hlost : call.deed (.error owner.lost) = .nothing)
    (hbody : ∀ record, store.sessions owner.session_id = some record →
      owner.database = store.identity → Deeds sessions chronicle call (body record)) :
    Deeds sessions chronicle call (store.owned owner body) := by
  have hrefused : Deeds sessions chronicle call (store, .error owner.lost) := by
    refine ⟨(sessions, chronicle), ?_, h⟩
    rw [hlost]
    exact .nothing
  unfold MemoryStore.owned
  split
  · exact hrefused
  · next hdatabase =>
    split
    · exact hrefused
    · next record hrecord => exact hbody record hrecord (by simpa using hdatabase)

/-- `interrupt` ends the turn of its owner even if the lease has run out, unlike the calls for a
live turn below. -/
theorem interrupt_deeds (owner : TurnOwner) :
    Deeds sessions chronicle (.interrupt owner) (store.interrupt owner) := by
  unfold MemoryStore.interrupt
  split
  · exact ⟨_, .nothing, h⟩
  split
  · exact ⟨_, .spared, h⟩
  rename_i record hrecord
  split
  · exact ⟨_, .spared, h⟩
  rename_i turn hlast
  split
  · next hmine =>
    have hkept := h.kept _ _ hrecord
    obtain ⟨-, hposition, htoken⟩ := hkept.position hlast hmine.1
    have howned : record.session.OwnedBy owner :=
      ⟨turn.turn, by simp [hlast], hmine.2, htoken, by simpa using hposition⟩
    refine ⟨_, .interrupted (h.sessions_eq hrecord) howned
      (.intro (h.sessions_eq hrecord) howned.busy), ?_⟩
    rw [← Record.session_interrupt_last]
    exact h.put (hkept.interrupt_last _)
  · exact ⟨_, .spared, h⟩

/-- A write may be settled by its owner after the turn has ended. -/
theorem finish_write_deeds (owner : TurnOwner) (id : Nat) (applied : Bool) :
    Deeds sessions chronicle (.finish_write owner id applied)
      (store.finish_write owner id applied) := by
  refine owned_deeds chronicle h rfl fun record hrecord _ => ?_
  have hkept := h.kept _ _ hrecord
  split
  · exact ⟨_, .nothing, h⟩
  dsimp only
  split
  · exact ⟨_, .nothing, h⟩
  rename_i writes hwrites
  -- the store settles the first match, the session all of them
  refine ⟨_, .settled id (if applied then .Applied else .Failed)
    (.intro (h.sessions_eq hrecord) trivial), ?_⟩
  have hsettled := settle_write_eq hkept.write_ids hwrites
  have hput := h.put (hkept.settled id owner.turn_position
    (if applied then .Applied else .Failed))
  subst hsettled
  exact hput

/-! ### Sound sessions -/

variable (hlived : Lived sessions chronicle)

include hlived

/-- A request that is recorded is answered before anything else is checked, so a retry gets its
record under an old generation and while a turn runs. -/
theorem acquire_deeds (id : String) (input : TurnInput) (options : TurnOptions)
    (request : Option HostRequest) (generation : Int) :
    Deeds sessions chronicle (.acquire id input options request generation)
      (store.acquire now id input options request generation) := by
  unfold MemoryStore.acquire
  split
  · exact ⟨_, .looked .refl, h⟩
  rename_i record hrecord
  obtain ⟨⟨sessions', chronicle'⟩, hrecovered, hholds, hs⟩ := h.recovered hrecord now chronicle
  have hkept := (h.kept id record hrecord).recover now
  have hsound : (record.recover now).session.Sound := (hlived.leads hrecovered.leads).sound hs
  dsimp only
  have hrejected : ∀ error, Deeds sessions chronicle
      (.acquire id input options request generation)
      (store.put id (record.recover now), .error error) :=
    fun error => ⟨_, .looked hrecovered, hholds⟩
  split
  · next request' found heq =>
    obtain ⟨r, rfl, hfound⟩ := Option.bind_eq_some_iff.mp heq
    obtain ⟨found', hfound, hpair⟩ := Option.map_eq_some_iff.mp hfound
    cases hpair
    split
    · exact hrejected _
    · refine ⟨(sessions', chronicle'), ?_, hholds⟩
      simp only [StoreCall.deed, ← hfound, hkept.request]
      exact .answered hrecovered hs
  rename_i hnone
  split
  · exact hrejected _
  rename_i hgeneration
  split
  · exact hrejected _
  rename_i hidle
  rw [Record.continuation_eq hsound]
  have hhost : ∀ r, request = some r → (record.recover now).session.host_turn r.id = none := by
    rintro r rfl
    simp only [Option.bind_some, Option.map_eq_none_iff] at hnone
    exact host_turn_eq_none hsound (hkept.request r.id ▸ hnone)
  have hallowed : (record.recover now).session.Allows
      (.reserved input.into_user_message options request generation
        (MemoryStore.to_le_bytes (record.recover now).next_turn) (now + TURN_LEASE_SECONDS)) :=
    ⟨by rw [Record.busy_session]; simpa using hidle, (check_generation_ok hgeneration).symm, hhost,
      input, rfl⟩
  -- the owner that is handed out
  let owner := (TurnOwner.new store.identity id (record.recover now).next_turn
    (MemoryStore.to_le_bytes (record.recover now).next_turn)).activate
  have hposition : owner.turn_position = (record.recover now).session.turns.length :=
    hkept.next_turn.trans (by simp)
  have hhappens : Happens owner.session_id _ (sessions', chronicle') _ := .intro hs hallowed
  refine ⟨_, .reserved _ _ hrecovered hs hposition hhappens, ?_⟩
  have hput := hholds.put_again (hkept.reserved input options request (now + TURN_LEASE_SECONDS))
  rw [Record.session_reserved] at hput
  exact hput

/-- An owner-scoped call that changes the last turn, if it is live. -/
theorem live_turn_deeds {body : Record → TurnRecord → MemoryStore × Except SessionError call.Reply}
    (hlost : call.deed (.error owner.lost) = .nothing)
    (hbody : ∀ record turn, store.sessions owner.session_id = some record →
      record.Kept store.identity store.next_write owner.session_id → record.session.Sound →
      record.session.OwnedBy owner → record.turns.getLast? = some turn →
      Deeds sessions chronicle call (body record turn)) :
    Deeds sessions chronicle call (store.owned owner fun record =>
      match record.live_turn owner now with
      | none => (store, .error owner.lost)
      | some turn => body record turn) := by
  refine owned_deeds chronicle h hlost fun record hrecord _ => ?_
  have hkept := h.kept _ _ hrecord
  split
  · refine ⟨(sessions, chronicle), ?_, h⟩
    rw [hlost]
    exact .nothing
  · next turn hlive =>
    obtain ⟨howned, hlast⟩ := hkept.owned hlive
    exact hbody record turn hrecord hkept (hlived.sound (h.sessions_eq hrecord)) howned hlast

theorem complete_deeds (owner : TurnOwner) (messages : List ModelMessage)
    (continuation : Option String) (outcome : Option TurnOutcome) :
    Deeds sessions chronicle (.complete owner messages continuation outcome)
      (store.complete now owner messages continuation outcome) := by
  refine live_turn_deeds chronicle h now hlived rfl
    fun record turn hrecord hkept hsound howned hlast => ?_
  split
  · exact ⟨_, .nothing, h⟩
  rename_i houtcome
  have hallowed : record.session.Allows (.completed owner messages continuation outcome) := by
    -- a turn with a host request is not completed without an outcome
    refine ⟨howned, fun turn' hlast' hrequest => ?_⟩
    simp only [Record.session_turns, getLast?_map, hlast, Option.map_some,
      Option.some.injEq] at hlast'
    subst hlast'
    have hrequest : turn.request.isSome = true := hrequest
    rw [Option.isSome_iff_ne_none]
    simpa [hrequest] using houtcome
  refine ⟨_, .completed (.intro (h.sessions_eq hrecord) hallowed), ?_⟩
  have hput := h.put (hkept.update_last
    (f := fun turn => { turn with
      outcome := outcome
      messages := turn.messages ++ messages
      status := .Completed }) (fun _ => rfl)
    { record.configuration with provider_session_id := continuation })
  rw [Record.session_update_last (fun turn => { turn.ended .Completed none with
      messages := turn.messages ++ messages
      outcome := outcome })] at hput
  · exact hput
  · intro turn' hturn'
    have hfresh := hsound.fresh howned hturn'
    simp [TurnRecord.turn, Turn.ended, hfresh]

theorem renew_deeds (owner : TurnOwner) :
    Deeds sessions chronicle (.renew owner) (store.renew now owner) := by
  refine live_turn_deeds chronicle h now hlived rfl
    fun record turn hrecord hkept hsound howned hlast => ?_
  refine ⟨_, .renewed (now + TURN_LEASE_SECONDS) (.intro (h.sessions_eq hrecord) howned), ?_⟩
  have hput := h.put (hkept.update_last
    (f := fun turn => { turn with deadline := now + TURN_LEASE_SECONDS }) (fun _ => rfl)
    record.configuration)
  rw [Record.session_update_last (fun turn =>
    { turn with lease := some (now + TURN_LEASE_SECONDS) })] at hput
  · exact hput
  · intro turn' hturn'
    have hrunning := hsound.fresh howned hturn'
    simp [TurnRecord.turn, hrunning]

theorem fail_turn_deeds (owner : TurnOwner) (error_type : String) :
    Deeds sessions chronicle (.fail_turn owner error_type)
      (store.fail_turn now owner error_type) := by
  refine live_turn_deeds chronicle h now hlived rfl
    fun record turn hrecord hkept hsound howned hlast => ?_
  refine ⟨_, .failed (.intro (h.sessions_eq hrecord) howned), ?_⟩
  have hput := h.put (hkept.update_last
    (f := fun turn => { turn with status := .Failed, error_type := some error_type })
    (fun _ => rfl) { record.configuration with provider_session_id := none })
  rw [Record.session_update_last (·.ended .Failed (some error_type))] at hput
  · exact hput
  · intro turn' _
    simp [TurnRecord.turn, Turn.ended]

theorem write_intent_deeds (owner : TurnOwner) (call_id root path : String)
    (expected : Option (List UInt8)) (resulting : List UInt8) :
    Deeds sessions chronicle (.write_intent owner call_id root path expected resulting)
      (store.write_intent now owner call_id root path expected resulting) := by
  refine live_turn_deeds chronicle h now hlived rfl
    fun record turn hrecord hkept hsound howned hlast => ?_
  let write : WriteRecord :=
    { call_id := call_id
      expected_hash := expected.map content_hash
      id := store.next_write + 1
      path := path
      repository_root := root
      resulting_hash := content_hash resulting
      status := .Pending
      turn_position := owner.turn_position }
  refine ⟨_, .intended write (.intro (h.sessions_eq hrecord) ⟨howned, rfl⟩), ?_⟩
  exact h.counted.put (hkept.intended write rfl)

/-- **Every call on a memory store has the effect of its deed.** -/
theorem serve_deeds (call : StoreCall) : Deeds sessions chronicle call (store.serve now call) := by
  cases call with
  | create_session => exact create_session_deeds chronicle h ..
  | load_session => exact load_session_deeds chronicle h now ..
  | switch_model => exact switch_model_deeds chronicle h now ..
  | acquire => exact acquire_deeds chronicle h now hlived ..
  | load_request => exact load_request_deeds chronicle h now ..
  | complete => exact complete_deeds chronicle h now hlived ..
  | renew => exact renew_deeds chronicle h now hlived ..
  | fail_turn => exact fail_turn_deeds chronicle h now hlived ..
  | interrupt => exact interrupt_deeds chronicle h ..
  | load_writes => exact ⟨_, .nothing, h⟩
  | write_intent => exact write_intent_deeds chronicle h now hlived ..
  | finish_write => exact finish_write_deeds chronicle h ..

end Store

/-! ## Runs -/

/-- The sessions of a memory store and how it has come to them. -/
def MemoryInv [Sha256] (cfg : Config MemoryCall MemoryCall.Reply SessionError MemoryStore Nat)
    (x : Sessions × Chronicle) : Prop :=
  Chronicled Entry.before (fun e => e.call.deed e.reply) MemoryHolds cfg.trace x ∧
    MemoryHolds cfg.world x.1

/-- **Every step of a client of a memory store** has the effect of its deed. -/
theorem memory_step [Sha256]
    {cfg cfg' : Config MemoryCall MemoryCall.Reply SessionError MemoryStore Nat}
    {x : Sessions × Chronicle} {l : Label Int Empty Nat (Nat × Operation)} (h : MemoryInv cfg x)
    (hstep : memory_clients.step cfg l = some cfg') : ∃ x', MemoryInv cfg' x' ∧ Leads x x' := by
  obtain ⟨hchronicled, hholds⟩ := h
  obtain ⟨d, -, -, rfl⟩ | ⟨a, now, t, -, -, -, rfl⟩ | ⟨m, -⟩ | ⟨-, rfl⟩ := System.step_cases hstep
  · exact ⟨_, ⟨hchronicled, hholds⟩, Relation.ReflTransGen.refl⟩
  · -- a submission answers its client without the store
    have hdeeds : ∃ y, Effects x (t.call.deed (memory_clients.exec cfg.world now t.call).2) y ∧
        MemoryHolds (memory_clients.exec cfg.world now t.call).1 y.1 := by
      cases t.call with
      | store call => exact serve_deeds x.2 hholds now hchronicled.lived call
      | answer => exact ⟨_, .nothing, hholds⟩
    obtain ⟨y, heffects, hholds'⟩ := hdeeds
    exact ⟨y, ⟨.cons _ hchronicled hholds heffects, hholds'⟩, heffects.leads⟩
  · exact nomatch m
  · exact ⟨_, ⟨hchronicled, hholds⟩, Relation.ReflTransGen.refl⟩

end Agentty.Harness
