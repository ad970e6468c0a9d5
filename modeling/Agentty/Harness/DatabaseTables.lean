/-
The tables of a session.

`Represents` says which rows a session has: one `session` row, one `session_turn` row
for each turn, the messages of all turns in order, and its writes. It is stated for
every identifier; one that is not used has no rows. What the queries of `Database`
answer is then a matter of the session, and what its statements do to the rows is a
change of the session.
-/
import Agentty.Harness.Deeds

set_option autoImplicit false

namespace Agentty.Harness

open List Function

open Query (order_by)

/-! ## Rows of a session -/

/-- `session_turn.status` of a turn; nothing writes `pending`. -/
def Status.row : Status → TurnStatus
  | .Running => .running
  | .Completed => .completed
  | .Failed => .failed
  | .Interrupted => .interrupted

def LoadedSession.row (configuration : LoadedSession) : SessionRow where
  max_history_bytes := configuration.max_history_bytes
  model := configuration.model
  model_generation := configuration.model_generation
  output_schema := configuration.schema.value
  provider := configuration.provider
  provider_session_id := configuration.provider_session_id
  registration_key := configuration.registration_identity.map (·.key)
  registration_revision := configuration.registration_identity.map (·.revision)
  system_prompt := configuration.system_prompt

def RecordedModel.snapshot (model : RecordedModel) : Snapshot where
  generation := model.generation
  key := model.registration_identity.map (·.key)
  model := model.model
  provider := model.provider
  revision := model.registration_identity.map (·.revision)

def Turn.row (turn : Turn) : TurnRow where
  error_type := turn.error_type
  host_id := turn.request.map (·.id)
  host_request := turn.request
  lease_expires_at := turn.lease
  model_snapshot := some turn.model.snapshot
  owner_token := some turn.token
  status := turn.status.row
  terminal_outcome := turn.outcome
  turn_options := some turn.options

/-- The row of a message, if it can be stored. -/
def ModelMessage.row (session_id : String) (turn_position message_position : Nat)
    (message : ModelMessage) : Option MessageRow :=
  (EncodedMessage.from_message message).toOption.map fun encoded =>
    { kind := encoded.kind
      message_position := message_position
      payload := encoded.payload
      retained_bytes := encoded.retained_bytes
      session_id := session_id
      turn_position := turn_position }

/-- The rows of some messages of a turn, from a position on. -/
def message_block (session_id : String) (turn_position start : Nat)
    (messages : List ModelMessage) : List (Option MessageRow) :=
  (messages.zipIdx start).map fun message => message.1.row session_id turn_position message.2

/-- The rows of all messages of a session. -/
def stored_messages (session_id : String) (turns : List Turn) : List (Option MessageRow) :=
  turns.zipIdx.flatMap fun turn => message_block session_id turn.2 0 turn.1.messages

def stored_turns (turns : List Turn) : List (Nat × TurnRow) :=
  turns.zipIdx.map fun turn => (turn.2, turn.1.row)

/-- The rows of an identifier are those of its session. -/
structure Represents (db : Database) (id : String) (s : Option Session) : Prop where
  session : db.session.get? id = s.map fun s => s.configuration.row
  turns : db.turn_rows id = stored_turns (s.elim [] (·.turns))
  messages : (db.message_rows id).map (fun row => some row.2)
    = stored_messages id (s.elim [] (·.turns))
  writes : (db.write_rows id).map Database.write_record = s.elim [] (·.writes)

/-- The sessions a database stores. -/
structure Stores (db : Database) (sessions : Sessions) : Prop where
  represents : ∀ id, Represents db id (sessions id)
  message_ids : db.session_message.Ascending
  write_ids : db.session_write.Ascending

section Rows

variable {init turns : List Turn} {turn : Turn}

theorem stored_turns_concat :
    stored_turns (init ++ [turn]) = stored_turns init ++ [(init.length, turn.row)] := by
  simp [stored_turns, zipIdx_append]

theorem stored_messages_concat (id : String) :
    stored_messages id (init ++ [turn])
      = stored_messages id init ++ message_block id init.length 0 turn.messages := by
  simp [stored_messages, zipIdx_append]

theorem message_block_append (id : String) (position start : Nat)
    (messages messages' : List ModelMessage) :
    message_block id position start (messages ++ messages')
      = message_block id position start messages
        ++ message_block id position (start + messages.length) messages' := by
  simp [message_block, zipIdx_append]

theorem mem_stored_turns {p : Nat} {row : TurnRow} :
    (p, row) ∈ stored_turns turns ↔ ∃ turn, turns[p]? = some turn ∧ row = turn.row := by
  simp only [stored_turns, mem_map, Prod.mk.injEq, Prod.exists, mem_zipIdx_iff_getElem?]
  constructor
  · rintro ⟨turn, q, hturn, rfl, rfl⟩
    exact ⟨turn, hturn, rfl⟩
  · rintro ⟨turn, hturn, rfl⟩
    exact ⟨turn, p, hturn, rfl, rfl⟩

theorem stored_turns_fst : (stored_turns turns).map Prod.fst = range turns.length := by
  rw [stored_turns, map_map]
  exact (zipIdx_map_snd 0 turns).trans (range_eq_range' ..).symm

theorem stored_turns_ascending : ((stored_turns turns).map Prod.fst).Pairwise (· < ·) := by
  rw [stored_turns_fst]
  exact pairwise_lt_range

@[simp] theorem Status.row_active (status : Status) :
    status.row.active = decide (status = .Running) := by
  cases status <;> rfl

@[simp] theorem Status.row_completed {status : Status} :
    status.row = .completed ↔ status = .Completed := by
  cases status <;> simp [Status.row]

end Rows

/-! ## Queries -/

section Queries

variable {db : Database} {id : String} {s : Session}

theorem mem_turn_rows {p : Nat} {row : TurnRow} :
    (p, row) ∈ db.turn_rows id ↔ db.session_turn.get? (id, p) = some row := by
  simp only [Database.turn_rows, mem_filterMap, Table.get?_eq_some_iff]
  constructor
  · rintro ⟨⟨⟨id', p'⟩, row'⟩, hmem, heq⟩
    split at heq
    · next hid =>
      obtain ⟨rfl, rfl⟩ := heq
      exact hid ▸ hmem
    · cases heq
  · intro hmem
    exact ⟨((id, p), row), hmem, by simp⟩

theorem Represents.turn_at_none (h : Represents db id none) (p : Nat) :
    db.session_turn.get? (id, p) = none := by
  cases hrow : db.session_turn.get? (id, p) with
  | none => rfl
  | some row =>
    rw [← mem_turn_rows, h.turns] at hrow
    cases hrow

/-- The turns that have completed, with their positions. -/
def Session.completed_at (s : Session) : List (Turn × Nat) :=
  s.turns.zipIdx.filter fun turn => turn.1.status = .Completed

theorem Session.completed_at_ascending (s : Session) :
    (s.completed_at.map Prod.snd).Pairwise (· < ·) := by
  have hall : (s.turns.zipIdx.map Prod.snd).Pairwise (· < ·) := by
    rw [zipIdx_map_snd, ← range_eq_range']
    exact pairwise_lt_range
  exact hall.sublist (List.Sublist.map _ filter_sublist)

theorem Session.completed_at_fst (s : Session) : s.completed_at.map Prod.fst = s.completed := by
  have hfilter : s.completed_at.map Prod.fst
      = (s.turns.zipIdx.map Prod.fst).filter fun turn => turn.status = .Completed := by
    rw [filter_map]
    rfl
  rw [hfilter, zipIdx_map_fst]
  rfl

theorem ExecutionIdentity.new_self (identity : ExecutionIdentity) :
    ExecutionIdentity.new identity.key identity.revision = .ok identity := by
  unfold ExecutionIdentity.new
  rw [dif_pos identity.valid]

theorem RecordedModel.decode_snapshot {model : RecordedModel} (h : model.Valid) :
    RecordedModel.decode model.snapshot = .ok model := by
  obtain ⟨generation, name, provider, identity⟩ := model
  obtain ⟨hgeneration, hnames⟩ := h
  unfold RecordedModel.decode RecordedModel.snapshot
  rcases hnames with ⟨hprovider, hname⟩ | ⟨metadata, hprovider, hname⟩ <;> cases hprovider <;>
    cases hname <;> cases identity <;>
    simp_all [ExecutionIdentity.new_self, bind, Except.bind, pure, Except.pure, Except.map,
      ModelMetadata.named]

theorem find?_stored_turns (turns : List Turn) (host_id : String) :
    ((stored_turns turns).find? fun turn => turn.2.host_id = some host_id)
      = (turns.zipIdx.find? fun turn => turn.1.request.any fun request => request.id = host_id).map
          fun turn => (turn.2, turn.1.row) := by
  rw [stored_turns, find?_map]
  congr 2
  funext turn
  cases hrequest : turn.1.request <;> simp [Turn.row, hrequest]

variable (h : Represents db id (some s))

include h

theorem Represents.turn_at (p : Nat) : db.session_turn.get? (id, p) = s.turns[p]?.map Turn.row := by
  ext row
  rw [← mem_turn_rows, h.turns, Option.elim_some, mem_stored_turns, Option.map_eq_some_iff]
  exact exists_congr fun turn => and_congr_right fun _ => eq_comm

theorem Represents.next_turn_position : db.next_turn_position id = s.turns.length := by
  unfold Database.next_turn_position
  rw [h.turns, Option.elim_some, Query.max?_ascending stored_turns_ascending, stored_turns_fst]
  cases hlength : s.turns.length with
  | zero => rfl
  | succ n => simp [range_succ]

theorem Represents.completed_rows :
    ((db.turn_rows id).filter fun turn => turn.2.status = .completed)
      = s.completed_at.map fun turn => (turn.2, turn.1.row) := by
  rw [h.turns, Option.elim_some, stored_turns, filter_map, Session.completed_at]
  congr 2
  funext turn
  simp [Turn.row]

theorem Represents.latest_completed_turn :
    db.latest_completed_turn id = s.completed_at.getLast?.map Prod.snd := by
  unfold Database.latest_completed_turn
  rw [h.completed_rows, map_map]
  have hfst : (Prod.fst ∘ fun turn : Turn × Nat => (turn.2, turn.1.row)) = Prod.snd := rfl
  rw [hfst, Query.max?_ascending s.completed_at_ascending, getLast?_map]

theorem Represents.load_turn_configuration :
    db.load_turn_configuration id = .ok
      { max_history_bytes := s.configuration.max_history_bytes
        model_generation := s.configuration.model_generation
        provider_session_id := s.configuration.provider_session_id
        turn_options := s.completed.getLast?.map (·.options) } := by
  unfold Database.load_turn_configuration
  rw [h.session, h.completed_rows]
  have hdescending : (s.completed_at.map fun turn => (turn.2, turn.1.row)).Pairwise
      fun a b => ¬ b.1 ≤ a.1 := by
    have := s.completed_at_ascending
    rw [pairwise_map] at this ⊢
    exact this.imp fun hlt => Nat.not_le.mpr hlt
  simp only [Option.map_some]
  rw [Query.order_by_reverse hdescending, ← getLast?_eq_head?_reverse, getLast?_map,
    ← Session.completed_at_fst, getLast?_map]
  cases s.completed_at.getLast? <;> rfl

theorem Represents.active_rows [Sha256] (hsound : s.Sound) :
    ((db.turn_rows id).any fun turn => turn.2.status.active) = s.busy := by
  rw [h.turns, Option.elim_some, Bool.eq_iff_iff, any_eq_true]
  constructor
  · rintro ⟨⟨p, row⟩, hrow, hactive⟩
    obtain ⟨turn, hturn, rfl⟩ := mem_stored_turns.mp hrow
    simp only [Turn.row, Status.row_active, decide_eq_true_eq] at hactive
    by_contra hidle
    exact hsound.none_running (by simpa using hidle) turn (mem_of_getElem? hturn) hactive
  · intro hbusy
    obtain ⟨init, turn, hs, hrunning⟩ := Session.busy_iff.mp hbusy
    refine ⟨(init.length, turn.row), mem_stored_turns.mpr ⟨turn, by simp [hs], rfl⟩, ?_⟩
    simp [Turn.row, hrunning]

/-! ### Host records -/

theorem Represents.writes_at (hids : db.session_write.Ascending) (position : Nat) :
    (order_by (fun a b => a.1 ≤ b.1)
      ((db.write_rows id).filter fun write => write.2.turn_position = position)).map
        Database.write_record
      = s.writes.filter fun write => write.turn_position = position := by
  have hascending :
      ((db.write_rows id).filter fun write => write.2.turn_position = position).Pairwise
        fun a b => a.1 ≤ b.1 := by
    have := hids.select fun _ row => decide (row.session_id = id)
    rw [pairwise_map] at this
    exact (this.imp fun hlt => Nat.le_of_lt hlt).sublist filter_sublist
  rw [Query.order_by_eq hascending]
  have hwrites := h.writes
  rw [Option.elim_some] at hwrites
  rw [← hwrites, filter_map]
  rfl

theorem Represents.load_request_from [Sha256] (hsound : s.Sound) (hids : db.session_write.Ascending)
    (host_id : String) : db.load_request_from id host_id = .ok (s.host_record host_id) := by
  unfold Database.load_request_from Session.host_record
  rw [h.turns, Option.elim_some, find?_stored_turns]
  cases hfind : s.turns.zipIdx.find? fun turn =>
    turn.1.request.any fun request => decide (request.id = host_id) with
  | none => rfl
  | some found =>
    obtain ⟨turn, position⟩ := found
    have htest := find?_some hfind
    have hmem : turn ∈ s.turns := fst_mem_of_mem_zipIdx (mem_of_find?_eq_some hfind)
    have hturn := hsound.turn turn hmem
    cases hrequest : turn.request with
    | none => simp [hrequest] at htest
    | some request =>
      -- a turn with a request has a status
      have hstatus : ∃ status, turn.host_status = some status ∧
          Database.host_turn_status turn.row = .ok status := by
        unfold Turn.host_status Database.host_turn_status
        cases hs : turn.status with
        | Completed =>
          have houtcome := hturn.outcome hs (by simp [hrequest])
          obtain ⟨outcome, houtcome⟩ := Option.isSome_iff_exists.mp houtcome
          exact ⟨.Completed outcome, by simp [houtcome],
            by simp [Turn.row, hs, Status.row, houtcome]⟩
        | Running | Failed | Interrupted => exact ⟨_, rfl, by simp [Turn.row, hs, Status.row]⟩
      obtain ⟨status, hstatus, hrow⟩ := hstatus
      simp only [Option.map_some, hrow, Session.record_at, hrequest, hstatus]
      simp only [Turn.row, hrequest, RecordedModel.decode_snapshot hturn.model,
        h.writes_at hids position]
      rfl

end Queries

/-! ## Checked histories -/

section History

variable {db : Database} {id : String} {s : Session} {capabilities : ModelCapabilities}

theorem StoredToolCall.into_from (call : ToolCall) :
    (StoredToolCall.from_call call).into_call = .ok call := by
  obtain ⟨arguments, call_id, reasoning_content⟩ := call
  cases arguments <;>
    simp [StoredToolCall.into_call, StoredToolCall.from_call, ToolCall.name, ToolCall.tool,
      Tool.name, ToolCall.arguments_json]

theorem StoredToolCall.mapM_into_from (calls : List ToolCall) :
    (calls.map StoredToolCall.from_call).mapM StoredToolCall.into_call = .ok calls := by
  induction calls with
  | nil => rfl
  | cons call calls ih =>
    rw [map_cons, mapM_cons, StoredToolCall.into_from, ih]
    rfl

/-- What is read back of a stored message: text-only input has become one text. -/
def ModelMessage.read (message : ModelMessage) : ModelMessage :=
  match message with
  | .UserInput input => input.into_user_message
  | message => message

theorem EncodedMessage.into_from {message : ModelMessage} {encoded : EncodedMessage}
    (h : EncodedMessage.from_message message = .ok encoded) :
    EncodedMessage.into_message encoded.kind encoded.payload = .ok message.read := by
  cases message with
  | System => cases h
  | AssistantToolCall call =>
    cases h
    simp only [EncodedMessage.into_message, StoredToolCall.into_from]
    rfl
  | AssistantToolCalls calls =>
    cases h
    simp only [EncodedMessage.into_message, StoredToolCall.mapM_into_from]
    rfl
  | _ =>
    cases h
    rfl

/-- The check says of the message that is read back what it says of the message. -/
theorem check_message_read (message : ModelMessage) :
    check_message capabilities message.read = check_message capabilities message := by
  cases message with
  | UserInput input =>
    by_cases himages : input.has_images = true
    · simp only [ModelMessage.read, TurnInput.into_user_message, himages, if_true]
    · simp [ModelMessage.read, TurnInput.into_user_message, check_message, himages]
  | _ => rfl

/-- The messages a switch still has to look at. -/
def Database.unchecked (db : Database) (id : String) (after : Nat) : List (Nat × MessageRow) :=
  (db.message_rows id).filter fun row =>
    db.in_completed_turn row.2 && after < row.1 && row.2.kind ≠ .user && row.2.kind ≠ .assistant

theorem Database.unchecked_ascending (hids : db.session_message.Ascending) (id : String)
    (after : Nat) : (db.unchecked id after).Pairwise fun a b => a.1 < b.1 := by
  have := hids.select fun _ row => decide (row.session_id = id)
  rw [pairwise_map] at this
  exact this.sublist filter_sublist

theorem Database.switch_page_eq (hids : db.session_message.Ascending) (id : String) (after : Nat) :
    db.switch_page id after = (db.unchecked id after).take 64 := by
  have hascending : (db.unchecked id after).Pairwise fun a b => a.1 ≤ b.1 :=
    (Database.unchecked_ascending hids id after).imp Nat.le_of_lt
  exact congrArg (take 64) (Query.order_by_eq hascending)

variable {after : Nat}

theorem Database.unchecked_later {later : Nat} (h : after ≤ later) :
    db.unchecked id later = (db.unchecked id after).filter fun row => later < row.1 := by
  unfold Database.unchecked
  rw [filter_filter]
  refine filter_congr fun row _ => ?_
  by_cases hlater : later < row.1
  · simp [hlater, Nat.lt_of_le_of_lt h hlater]
  · simp [hlater]

/-- A row that was checked is a message the model takes over. -/
def RowPasses (capabilities : ModelCapabilities) (row : MessageRow) : Prop :=
  ∃ message, EncodedMessage.into_message row.kind row.payload = .ok message ∧
    check_message capabilities message = .ok ()

/-- A page that was checked: every row passes, and the check goes on after the last. -/
theorem check_page {later : Nat} {rows : List (Nat × MessageRow)}
    (h : rows.foldlM (Database.check_switch_row capabilities) after = .ok later) :
    (∀ row ∈ rows, RowPasses capabilities row.2) ∧
      later = (rows.getLast?.map Prod.fst).getD after := by
  induction rows generalizing after with
  | nil =>
    cases h
    exact ⟨fun row hrow => (nomatch hrow), rfl⟩
  | cons row rows ih =>
    obtain ⟨next, hrow, h⟩ := Query.bind_eq_ok.mp h
    obtain ⟨message, hmessage, hrow⟩ := Query.bind_eq_ok.mp hrow
    obtain ⟨_, hcheck, hrow⟩ := Query.bind_eq_ok.mp hrow
    cases hrow
    have hpasses : RowPasses capabilities row.2 :=
      ⟨message, hmessage, check_history_ok_iff.mp hcheck message (mem_singleton_self message)⟩
    obtain ⟨hrest, hlater⟩ := ih h
    refine ⟨forall_mem_cons.mpr ⟨hpasses, hrest⟩, ?_⟩
    rw [hlater, getLast?_cons]
    cases rows.getLast? <;> rfl

/-- **All pages.** With as much fuel as there are rows left, every one is checked. -/
theorem check_pages (hids : db.session_message.Ascending) {fuel : Nat} {u : Unit}
    (hfuel : (db.unchecked id after).length < fuel)
    (h : db.check_switch_pages id capabilities fuel after = .ok u) :
    ∀ row ∈ db.unchecked id after, RowPasses capabilities row.2 := by
  induction fuel generalizing after with
  | zero => omega
  | succ fuel ih =>
    unfold Database.check_switch_pages at h
    rw [Database.switch_page_eq hids] at h
    by_cases hpage : (db.unchecked id after).take 64 = []
    · -- an empty page is the last one
      have hnone : db.unchecked id after = [] := by simpa using hpage
      rw [hnone]
      exact fun row hrow => nomatch hrow
    · rw [if_neg (by simpa using hpage)] at h
      split at h
      · cases h
      rename_i later hchecked
      obtain ⟨hpasses, hlater⟩ := check_page hchecked
      obtain ⟨last, hlast⟩ := Option.ne_none_iff_exists'.mp (mt getLast?_eq_none_iff.mp hpage)
      rw [hlast, Option.map_some, Option.getD_some] at hlater
      subst hlater
      have hmem : last ∈ db.unchecked id after :=
        mem_of_mem_take (mem_of_getLast? hlast)
      have hle : after ≤ last.1 := by
        have htest := (mem_filter.mp hmem).2
        simp only [Bool.and_eq_true, decide_eq_true_eq] at htest
        exact Nat.le_of_lt htest.1.1.2
      have hshorter : (db.unchecked id last.1).length < fuel := by
        rw [Database.unchecked_later hle]
        have hlt : ((db.unchecked id after).filter fun row => last.1 < row.1).length
            < (db.unchecked id after).length :=
          length_filter_lt_length_iff_exists.mpr ⟨last, hmem, by simp⟩
        omega
      have hrest := ih hshorter h
      intro row hrow
      -- a row of a later page comes after the last one of this page
      have hsplit := hrow
      rw [← take_append_drop 64 (db.unchecked id after)] at hsplit
      rcases mem_append.mp hsplit with hnow | hthen
      · exact hpasses row hnow
      · have hascending := Database.unchecked_ascending hids id after
        rw [← take_append_drop 64 (db.unchecked id after)] at hascending
        have hlt := (pairwise_append.mp hascending).2.2 last
          (mem_of_getLast? hlast) row hthen
        refine hrest row ?_
        rw [Database.unchecked_later hle]
        exact mem_filter.mpr ⟨hrow, by simpa using hlt⟩

/-- **A history that was checked passes**, every message of every completed turn. -/
theorem Represents.checked_history (h : Represents db id (some s))
    (hids : db.session_message.Ascending) {u : Unit}
    (hcheck : db.check_switch_history id capabilities = .ok u) :
    ∀ turn ∈ s.completed, ∀ message ∈ turn.messages, check_message capabilities message
      = .ok () := by
  intro turn hturn message hmessage
  obtain ⟨hmem, hcompleted⟩ := mem_filter.mp hturn
  obtain ⟨p, hp⟩ := mem_iff_getElem?.mp hmem
  obtain ⟨i, hi⟩ := mem_iff_getElem?.mp hmessage
  -- the row of the message
  have hstored : message.row id p i ∈ stored_messages id s.turns := by
    refine mem_flatMap.mpr ⟨(turn, p), mem_zipIdx_iff_getElem?.mpr hp, ?_⟩
    exact mem_map.mpr ⟨(message, i), mem_zipIdx_iff_getElem?.mpr hi, rfl⟩
  have hmessages := h.messages
  rw [Option.elim_some] at hmessages
  rw [← hmessages] at hstored
  obtain ⟨row, hrow, hsome⟩ := mem_map.mp hstored
  obtain ⟨encoded, hencoded, heq⟩ := Option.map_eq_some_iff.mp hsome.symm
  have hencoded : EncodedMessage.from_message message = .ok encoded := by
    cases hfrom : EncodedMessage.from_message message with
    | error error =>
      rw [hfrom] at hencoded
      cases hencoded
    | ok =>
      rw [hfrom] at hencoded
      rw [Option.some.inj hencoded]
  have hread := EncodedMessage.into_from hencoded
  by_cases hskipped : encoded.kind = .user ∨ encoded.kind = .assistant
  · -- texts are not looked at, and always pass
    cases message with
    | User | Assistant => rfl
    | System => cases hencoded
    | _ =>
      cases hencoded
      simp at hskipped
  · have hin : db.in_completed_turn row.2 = true := by
      unfold Database.in_completed_turn
      rw [← heq]
      rw [h.turn_at, hp]
      simp [Turn.row, hcompleted]
    have hunchecked : row ∈ db.unchecked id 0 := by
      refine mem_filter.mpr ⟨hrow, ?_⟩
      have hpos : 0 < row.1 := hids.pos (mem_filter.mp hrow).1
      have hkind : row.2.kind = encoded.kind := by rw [← heq]
      rw [not_or] at hskipped
      simp [hin, hpos, hkind, hskipped.1, hskipped.2]
    have hfuel : (db.unchecked id 0).length < (db.message_rows id).length + 1 :=
      Nat.lt_succ_of_le (length_filter_le _ _)
    obtain ⟨message', hread', hpasses⟩ := check_pages hids hfuel hcheck row hunchecked
    rw [← heq] at hread'
    rw [hread] at hread'
    rw [← check_message_read, Except.ok.inj hread']
    exact hpasses

end History

/-! ## Reading a session back -/

def TurnStatus.read : TurnStatus → Status
  | .pending => .Running
  | .running => .Running
  | .completed => .Completed
  | .failed => .Failed
  | .interrupted => .Interrupted

namespace Database

def read_messages (db : Database) (id : String) (position : Nat) : List ModelMessage :=
  ((db.message_rows id).map Prod.snd).filterMap fun row =>
    if row.turn_position = position then
      (EncodedMessage.into_message row.kind row.payload).toOption
    else none

/-- One turn, if its row is complete. -/
def read_turn (db : Database) (id : String) (row : Nat × TurnRow) : Option Turn := do
  let options ← row.2.turn_options
  let snapshot ← row.2.model_snapshot
  let model ← (RecordedModel.decode snapshot).toOption
  let token ← row.2.owner_token
  return {
    error_type := row.2.error_type
    lease := row.2.lease_expires_at
    messages := db.read_messages id row.1
    model := model
    options := options
    outcome := row.2.terminal_outcome
    request := row.2.host_request
    status := row.2.status.read
    token := token }

/-- What the tables say about the sessions. -/
def view [Sha256] (db : Database) : Sessions := fun id =>
  (db.load_session_row id).toOption.map fun configuration =>
    { configuration := configuration
      turns := (db.turn_rows id).filterMap (db.read_turn id)
      writes := (db.write_rows id).map write_record }

end Database

/-- A turn whose messages are seen through a function. -/
def Turn.seen (f : ModelMessage → ModelMessage) (turn : Turn) : Turn :=
  { turn with messages := turn.messages.map f }

def Session.seen (f : ModelMessage → ModelMessage) (s : Session) : Session :=
  { s with turns := s.turns.map (Turn.seen f) }

section View

variable {db : Database} {sessions : Sessions} {id : String} {s : Session}

/-- What is read back of a message, if it could be stored. -/
def ModelMessage.stored (message : ModelMessage) : Option ModelMessage :=
  (EncodedMessage.from_message message).toOption.map fun _ => message.read

/-- Reading a row back, if it belongs to the turn asked for. -/
def read_row (position : Nat) (row : MessageRow) : Option ModelMessage :=
  if row.turn_position = position then
    (EncodedMessage.into_message row.kind row.payload).toOption
  else none

theorem message_block_read (id : String) (position p start : Nat) (messages : List ModelMessage) :
    (message_block id p start messages).filterMap (·.bind (read_row position))
      = if p = position then messages.filterMap ModelMessage.stored else [] := by
  unfold message_block
  induction messages generalizing start with
  | nil => simp
  | cons message messages ih =>
    rw [zipIdx_cons, map_cons, filterMap_cons, filterMap_cons, ih]
    unfold ModelMessage.row ModelMessage.stored
    by_cases hp : p = position
    all_goals cases hfrom : EncodedMessage.from_message message with
      | error error => simp [hp, Except.toOption]
      | ok => simp [hp, Except.toOption, read_row, EncodedMessage.into_from hfrom]

theorem flatMap_zipIdx_single {β : Type} (f : Turn → List β) (turns : List Turn)
    (start position : Nat) :
    ((turns.zipIdx start).flatMap fun turn => if turn.2 = start + position then f turn.1 else [])
      = (turns[position]?.map f).getD [] := by
  induction turns generalizing start position with
  | nil => simp
  | cons turn turns ih =>
    rw [zipIdx_cons, flatMap_cons]
    cases position with
    | zero =>
      have hrest : ((turns.zipIdx (start + 1)).flatMap fun turn =>
        if turn.2 = start + 0 then f turn.1 else []) = [] := by
        refine flatMap_eq_nil_iff.mpr fun turn hturn => ?_
        have := le_snd_of_mem_zipIdx hturn
        rw [if_neg (by omega)]
      rw [hrest]
      simp
    | succ position =>
      have := ih (start + 1) position
      rw [if_neg (by simp), nil_append, getElem?_cons_succ, ← this]
      have hadd : start + (position + 1) = start + 1 + position := by omega
      rw [hadd]

theorem Status.read_row (status : Status) : status.row.read = status := by
  cases status <;> rfl

variable (h : Represents db id (some s))

include h

theorem Represents.read_messages (position : Nat) :
    db.read_messages id position
      = (s.turns[position]?.map fun turn =>
          turn.messages.filterMap ModelMessage.stored).getD [] := by
  have hrows := h.messages
  have hread : db.read_messages id position
      = ((db.message_rows id).map fun row => some row.2).filterMap
          (·.bind (read_row position)) := by
    rw [filterMap_map]
    exact filterMap_map
  rw [hread, hrows, stored_messages, filterMap_flatMap]
  simp only [message_block_read]
  have hsingle := flatMap_zipIdx_single
    (fun turn => turn.messages.filterMap ModelMessage.stored) s.turns 0 position
  rw [Nat.zero_add] at hsingle
  exact hsingle

theorem Represents.stored {turn : Turn} (hturn : turn ∈ s.turns) :
    turn.messages.filterMap ModelMessage.stored = turn.messages.map ModelMessage.read := by
  have hrows := h.messages
  rw [Option.elim_some] at hrows
  obtain ⟨p, hp⟩ := mem_iff_getElem?.mp hturn
  have hsome : ∀ message ∈ turn.messages, message.stored = some message.read := by
    intro message hmessage
    obtain ⟨i, hi⟩ := mem_iff_getElem?.mp hmessage
    have hmem : message.row id p i ∈ stored_messages id s.turns := by
      refine mem_flatMap.mpr ⟨(turn, p), mem_zipIdx_iff_getElem?.mpr hp, ?_⟩
      exact mem_map.mpr ⟨(message, i), mem_zipIdx_iff_getElem?.mpr hi, rfl⟩
    rw [← hrows] at hmem
    obtain ⟨row, -, hrow⟩ := mem_map.mp hmem
    obtain ⟨encoded, hencoded, -⟩ := Option.map_eq_some_iff.mp hrow.symm
    unfold ModelMessage.stored
    rw [hencoded, Option.map_some]
  rw [← filterMap_eq_map]
  exact filterMap_congr fun message hmessage => hsome message hmessage

theorem Represents.newest_options [Sha256] (hsound : s.Sound) :
    ∀ snapshot, ((order_by (fun a b => b.1 ≤ a.1) (db.turn_rows id)).head?.bind
      fun turn => turn.2.turn_options) = some snapshot → snapshot.decode = .ok snapshot := by
  intro snapshot hsnapshot
  have hdescending : (db.turn_rows id).Pairwise fun a b => ¬ b.1 ≤ a.1 := by
    rw [h.turns, Option.elim_some]
    have : ((stored_turns s.turns).map Prod.fst).Pairwise (· < ·) := stored_turns_ascending
    rw [pairwise_map] at this
    exact this.imp fun hlt => Nat.not_le.mpr hlt
  rw [Query.order_by_reverse hdescending, ← getLast?_eq_head?_reverse, h.turns,
    Option.elim_some] at hsnapshot
  obtain ⟨⟨p, row⟩, hlast, hrow⟩ := Option.bind_eq_some_iff.mp hsnapshot
  obtain ⟨turn, hturn, rfl⟩ := mem_stored_turns.mp (mem_of_getLast? hlast)
  obtain ⟨options, hoptions⟩ := (hsound.turn turn (mem_of_getElem? hturn)).options
  obtain rfl : turn.options = snapshot := Option.some.inj hrow
  rw [hoptions]
  exact StoredTurnOptions.decode_encode options

theorem Represents.load_session_row [Sha256] (hsound : s.Sound) :
    db.load_session_row id = .ok s.configuration := by
  have hlimit : Database.decode_max_history_bytes id s.configuration.row.max_history_bytes
      = .ok s.configuration.max_history_bytes := by
    have hpos : ¬ (s.configuration.max_history_bytes : Int) < 0 := by omega
    simp [Database.decode_max_history_bytes, LoadedSession.row, hpos]
  have hnone := hsound.configuration.2
  have hoptions := h.newest_options hsound
  unfold Database.load_session_row
  rw [h.session]
  simp only [Option.map_some, pure_bind, hlimit]
  obtain ⟨configuration, turns, writes⟩ := s
  obtain ⟨limit, model, generation, provider, continuation, identity, schema, prompt, loaded⟩ :=
    configuration
  generalize ((order_by (fun a b => b.1 ≤ a.1) (db.turn_rows id)).head?.bind
    fun turn => turn.2.turn_options) = newest at hoptions ⊢
  cases newest <;> cases identity <;>
    simp_all [LoadedSession.row, ExecutionIdentity.new_self, Except.map, bind, Except.bind, pure,
      Except.pure]

theorem Represents.read_turn [Sha256] (hsound : s.Sound) {p : Nat} {turn : Turn}
    (hturn : s.turns[p]? = some turn) :
    db.read_turn id (p, turn.row) = some (turn.seen ModelMessage.read) := by
  have hmem := mem_of_getElem? hturn
  have hmodel := RecordedModel.decode_snapshot (hsound.turn turn hmem).model
  have hmessages := h.read_messages p
  rw [hturn, Option.map_some, Option.getD_some, h.stored hmem] at hmessages
  simp [Database.read_turn, Turn.row, Turn.seen, hmodel, Except.toOption, hmessages,
    Status.read_row]

/-- **The tables show the sessions they store**, with text-only input read back as text. -/
theorem Represents.view [Sha256] (hsound : s.Sound) :
    db.view id = some (s.seen ModelMessage.read) := by
  have hturns : (db.turn_rows id).filterMap (db.read_turn id)
      = s.turns.map (Turn.seen ModelMessage.read) := by
    rw [h.turns, Option.elim_some, stored_turns, filterMap_map]
    have hread : ∀ turn ∈ s.turns.zipIdx, (db.read_turn id ∘ fun turn => (turn.2, turn.1.row)) turn
        = (some ∘ (Turn.seen ModelMessage.read ∘ Prod.fst)) turn :=
      fun turn hturn => h.read_turn hsound (mem_zipIdx_iff_getElem?.mp hturn)
    rw [filterMap_congr hread, filterMap_eq_map, ← map_map, zipIdx_map_fst]
  have hwrites := h.writes
  unfold Database.view
  rw [h.load_session_row hsound, hturns, hwrites]
  rfl

end View

/-! ## Statements -/

section Statements

variable {db db' : Database} {sessions : Sessions} {id : String} {s s' : Session}

/-- The rows of another identifier are the same. -/
structure SameRows (db db' : Database) (id : String) : Prop where
  session : db'.session.get? id = db.session.get? id
  turns : db'.turn_rows id = db.turn_rows id
  messages : db'.message_rows id = db.message_rows id
  writes : db'.write_rows id = db.write_rows id

theorem turn_rows_updateAll (p : String × Nat → TurnRow → Bool) (f : TurnRow → TurnRow) :
    Database.turn_rows { db with session_turn := db.session_turn.updateAll p f } id
      = (db.turn_rows id).map fun turn =>
        (turn.1, if p (id, turn.1) turn.2 then f turn.2 else turn.2) := by
  simp only [Database.turn_rows, Table.updateAll, filterMap_map, map_filterMap]
  refine filterMap_congr fun row _ => ?_
  obtain ⟨⟨id', p'⟩, row⟩ := row
  simp only [comp_apply]
  split
  · next hid =>
    obtain rfl : id' = id := hid
    rfl
  · rfl

variable (h : Stores db sessions)

include h

theorem Stores.change (hself : Represents db' id (some s'))
    (hother : ∀ id', id' ≠ id → SameRows db db' id') (hmessages : db'.session_message.Ascending)
    (hwrites : db'.session_write.Ascending) :
    Stores db' (update sessions id (some s')) where
  represents id' := by
    by_cases hid : id' = id
    · subst hid
      rw [update_self]
      exact hself
    · rw [update_of_ne hid]
      have hsame := hother id' hid
      have hrep := h.represents id'
      exact ⟨hsame.session.trans hrep.session, hsame.turns.trans hrep.turns,
        hsame.messages ▸ hrep.messages, hsame.writes ▸ hrep.writes⟩
  message_ids := hmessages
  write_ids := hwrites

theorem Stores.represents_some (hs : sessions id = some s) :
    Represents db id (some s) :=
  hs ▸ h.represents id

theorem Stores.represents_none (hs : sessions id = none) :
    Represents db id none :=
  hs ▸ h.represents id

theorem Stores.insert_session (hs : sessions id = none) (hfree : db.session.get? id = none)
    {row : SessionRow} (hrow : s.configuration.row = row) (hturns : s.turns = [])
    (hwrites : s.writes = []) : Stores { db with session := db.session.insert id row hfree }
      (update sessions id (some s)) := by
  have hrep := h.represents_none hs
  refine h.change ⟨?_, ?_, ?_, ?_⟩ (fun id' hid => ⟨?_, rfl, rfl, rfl⟩) h.message_ids h.write_ids
  · rw [Table.get?_insert, if_pos rfl, Option.map_some, hrow]
  · rw [Option.elim_some, hturns]
    exact hrep.turns
  · rw [Option.elim_some, hturns]
    exact hrep.messages
  · rw [Option.elim_some, hwrites]
    exact hrep.writes
  · rw [Table.get?_insert, if_neg hid]

variable (hs : sessions id = some s)

include hs

theorem Stores.update_session {f : SessionRow → SessionRow} {configuration : LoadedSession}
    (hrow : f s.configuration.row = configuration.row) :
    Stores { db with session := db.session.update id (fun _ => true) f }
      (update sessions id (some { s with configuration := configuration })) := by
  have hrep := h.represents_some hs
  refine h.change ⟨?_, hrep.turns, hrep.messages, hrep.writes⟩
    (fun id' hid => ⟨?_, rfl, rfl, rfl⟩) h.message_ids h.write_ids
  · rw [Table.get?_update_self, hrep.session]
    simp [hrow]
  · rw [Table.get?_update, if_neg hid]

theorem Stores.set_continuation (continuation : Option String) :
    Stores (db.set_continuation id continuation) (update sessions id (some { s with
      configuration := { s.configuration with provider_session_id := continuation } })) :=
  h.update_session hs rfl

variable {init : List Turn} {turn : Turn}

theorem Stores.update_turn (hturns : s.turns = init ++ [turn]) {p : String × Nat → TurnRow → Bool}
    {f : TurnRow → TurnRow} {g : Turn → Turn} (hmessages : (g turn).messages = turn.messages)
    (hlast : p (id, init.length) turn.row = true) (hrow : f turn.row = (g turn).row)
    (hold : ∀ q t, init[q]? = some t → p (id, q) t.row = false)
    (hother : ∀ id' q row, id' ≠ id → p (id', q) row = false) :
    Stores { db with session_turn := db.session_turn.updateAll p f }
      (update sessions id (some { s with turns := update_last g s.turns })) := by
  have hrep := h.represents_some hs
  refine h.change ⟨hrep.session, ?_, ?_, hrep.writes⟩ (fun id' hid => ⟨rfl, ?_, rfl, rfl⟩)
    h.message_ids h.write_ids
  · rw [turn_rows_updateAll, hrep.turns]
    simp only [Option.elim_some, hturns, update_last_concat, stored_turns_concat, map_append,
      map_cons, map_nil, hlast, if_true, hrow]
    congr 1
    -- no earlier turn is hit
    refine (map_congr_left fun row hmem => ?_).trans (map_id' _)
    obtain ⟨q, row⟩ := row
    obtain ⟨t, ht, rfl⟩ := mem_stored_turns.mp hmem
    simp [hold q t ht]
  · have hstored : stored_messages id (update_last g s.turns) = stored_messages id s.turns := by
      rw [hturns, update_last_concat, stored_messages_concat, stored_messages_concat, hmessages]
    rw [Option.elim_some, hstored]
    exact hrep.messages
  · rw [turn_rows_updateAll]
    refine (map_congr_left fun row _ => ?_).trans (map_id' _)
    simp [hother id' row.1 row.2 hid]

theorem Stores.insert_turn (hmessages : turn.messages = [])
    (hfree : db.session_turn.get? (id, s.turns.length) = none) :
    Stores { db with session_turn := db.session_turn.insert (id, s.turns.length) turn.row hfree }
      (update sessions id (some { s with turns := s.turns ++ [turn] })) := by
  have hrep := h.represents_some hs
  refine h.change ⟨hrep.session, ?_, ?_, hrep.writes⟩ (fun id' hid => ⟨rfl, ?_, rfl, rfl⟩)
    h.message_ids h.write_ids
  · have hrows := hrep.turns
    simp only [Database.turn_rows, Option.elim_some] at hrows
    simp [Database.turn_rows, Table.insert, filterMap_append, stored_turns_concat, hrows]
  · rw [Option.elim_some, stored_messages_concat, hmessages]
    exact hrep.messages.trans (append_nil _).symm
  · have hne : ¬ id = id' := fun heq => hid heq.symm
    simp [Database.turn_rows, Table.insert, filterMap_append, hne]

theorem Stores.insert_message (hturns : s.turns = init ++ [turn]) {message : ModelMessage}
    {encoded : EncodedMessage} (hencoded : EncodedMessage.from_message message = .ok encoded)
    {operation : String}
    (hinsert : db.insert_message id init.length turn.messages.length encoded operation = .ok db') :
    Stores db' (update sessions id (some { s with
      turns := init ++ [{ turn with messages := turn.messages ++ [message] }] })) := by
  have hrep := h.represents_some hs
  unfold Database.insert_message at hinsert
  split at hinsert
  · cases hinsert
  cases hinsert
  refine h.change ⟨hrep.session, ?_, ?_, hrep.writes⟩ (fun id' hid => ⟨rfl, rfl, ?_, rfl⟩)
    (h.message_ids.push _) h.write_ids
  · have hrows := hrep.turns
    rw [Option.elim_some, hturns, stored_turns_concat] at hrows
    rw [Option.elim_some, stored_turns_concat]
    exact hrows
  · have hrows := hrep.messages
    simp only [Option.elim_some, hturns, stored_messages_concat] at hrows
    simp only [Option.elim_some, stored_messages_concat, message_block_append, ← append_assoc,
      ← hrows]
    simp [Database.message_rows, Table.select_push, message_block, ModelMessage.row, hencoded,
      Except.toOption]
  · have hne : ¬ id = id' := fun heq => hid heq.symm
    simp [Database.message_rows, Table.select_push, hne]

theorem Stores.insert_messages (hturns : s.turns = init ++ [turn]) {messages : List ModelMessage}
    {encoded : List EncodedMessage}
    (hencoded : messages.mapM EncodedMessage.from_message = .ok encoded)
    (hinsert : db.insert_messages id init.length turn.messages.length encoded = .ok db') :
    Stores db' (update sessions id (some { s with
      turns := init ++ [{ turn with messages := turn.messages ++ messages }] })) := by
  induction messages generalizing db sessions s turn encoded with
  | nil =>
    cases hencoded
    cases hinsert
    have hsame : ({ s with
        turns := init ++ [{ turn with messages := turn.messages ++ [] }] } : Session) = s := by
      simp [← hturns]
    rw [hsame, update_eq_self_iff.mpr hs.symm]
    exact h
  | cons message messages ih =>
    rw [mapM_cons] at hencoded
    obtain ⟨first, hfirst, hencoded⟩ := Query.bind_eq_ok.mp hencoded
    obtain ⟨rest, hrest, hencoded⟩ := Query.bind_eq_ok.mp hencoded
    cases hencoded
    obtain ⟨inserted, hinserted, hinsert⟩ := Query.bind_eq_ok.mp hinsert
    have hstored := h.insert_message hs hturns hfirst hinserted
    have hnext := ih hstored (update_self _ _ _) rfl hrest
      (by simpa using hinsert)
    simpa [append_assoc] using hnext

theorem Stores.insert_write {row : WriteRow} (hrow : row.session_id = id) :
    Stores { db with session_write := db.session_write.push row }
      (update sessions id (some { s with
        writes := s.writes ++ [Database.write_record (db.session_write.nextId, row)] })) := by
  have hrep := h.represents_some hs
  refine h.change ⟨hrep.session, hrep.turns, hrep.messages, ?_⟩
    (fun id' hid => ⟨rfl, rfl, rfl, ?_⟩) h.message_ids (h.write_ids.push _)
  · have hrows := hrep.writes
    rw [Option.elim_some] at hrows
    rw [Option.elim_some, ← hrows]
    simp [Database.write_rows, Table.select_push, hrow]
  · have hne : ¬ id = id' := fun heq => hid heq.symm
    simp [Database.write_rows, Table.select_push, hrow, hne]

theorem Stores.update_write {write : Nat} {p : WriteRow → Bool} {status : WriteStatus}
    {f : WriteRecord → WriteRecord} (hp : ∀ row, p row = true → row.session_id = id)
    (hf : ∀ key row, row.session_id = id → f (Database.write_record (key, row)) =
      if key = write ∧ p row = true then { Database.write_record (key, row) with status := status }
      else Database.write_record (key, row)) :
    Stores { db with
      session_write := db.session_write.update write p fun row => { row with status := status } }
      (update sessions id (some { s with writes := s.writes.map f })) := by
  have hrep := h.represents_some hs
  have hrows : ∀ id', Database.write_rows { db with
      session_write := db.session_write.update write p fun row =>
        { row with status := status } } id'
        = (db.write_rows id').map fun row =>
          (row.1, if row.1 = write && p row.2 then { row.2 with status := status } else row.2) := by
    intro id'
    unfold Database.write_rows Table.update
    rw [Table.select_updateAll]
    intro _ _
    rfl
  refine h.change ⟨hrep.session, hrep.turns, hrep.messages, ?_⟩
    (fun id' hid => ⟨rfl, rfl, rfl, ?_⟩) h.message_ids (h.write_ids.updateAll _ _)
  · have hwrites := hrep.writes
    rw [Option.elim_some] at hwrites
    rw [Option.elim_some, ← hwrites, hrows, map_map, map_map]
    refine map_congr_left fun row hrow => ?_
    have hid : row.2.session_id = id := by
      simpa [Database.write_rows, Table.select] using (mem_filter.mp hrow).2
    simp only [comp_apply, hf row.1 row.2 hid, Bool.and_eq_true, decide_eq_true_eq]
    split <;> rfl
  · rw [hrows]
    refine (map_congr_left fun row hrow => ?_).trans (map_id' _)
    have hid' : row.2.session_id = id' := by
      simpa [Database.write_rows, Table.select] using (mem_filter.mp hrow).2
    have hmiss : p row.2 = false := by
      by_contra hhit
      exact hid (hid' ▸ hp row.2 (by simpa using hhit))
    simp [hmiss]

end Statements

end Agentty.Harness
