/-
`Database` keeps to its deeds.

Every transaction that commits is one `Effects` step on the sessions the database
stores. Two of them depend on what their program has read before: a reservation is
made from a user message, and a switch is committed for a history that was checked in
an earlier transaction. The turns that were checked have ended by then, so they are
still what they were (`Vetted`).
-/
import Agentty.Harness.DatabaseTables

set_option autoImplicit false

namespace Agentty.Harness

open List Function

/-! ## Active turns -/

section Active

variable [Sha256] {db : Database} {sessions : Sessions} {chronicle : Chronicle} {id : String}

variable {p : String × Nat → TurnRow → Bool}

/-- An `UPDATE` that can hit active turns of one session only is an update of its last turn: a
sound session has no other turn that runs. -/
theorem Stores.update_active (h : Stores db sessions) {s : Session} (hs : sessions id = some s)
    (hsound : s.Sound) {init : List Turn} {turn : Turn} (hturns : s.turns = init ++ [turn])
    (hp : ∀ key row, p key row = true → key.1 = id ∧ row.status.active = true)
    (hlast : p (id, init.length) turn.row = true) {f : TurnRow → TurnRow} {g : Turn → Turn}
    (hmessages : (g turn).messages = turn.messages) (hrow : f turn.row = (g turn).row) :
    Stores { db with session_turn := db.session_turn.updateAll p f }
      (update sessions id (some { s with turns := update_last g s.turns })) := by
  refine h.update_turn hs hturns hmessages hlast hrow (fun q t ht => ?_) fun id' q row hid => ?_
  · by_contra hhit
    obtain ⟨-, hactive⟩ := hp _ _ (by simpa using hhit)
    have hrunning : t.status = .Running := by simpa [Turn.row] using hactive
    exact hsound.only_last t
      (by rw [hturns, dropLast_concat]; exact mem_of_getElem? ht) hrunning
  · by_contra hhit
    exact hid (hp _ _ (by simpa using hhit)).1

variable (h : Stores db sessions) (hlived : Lived sessions chronicle)

include h hlived

/-- An active row is that of the last turn, so a statement need not name the position of the turn
it is about. -/
theorem Stores.active_turn {p : Nat} {row : TurnRow}
    (hrow : db.session_turn.get? (id, p) = some row) (hactive : row.status.active = true) :
    ∃ s init turn, sessions id = some s ∧ s.Sound ∧ s.turns = init ++ [turn] ∧ p = init.length ∧
      row = turn.row ∧ turn.status = .Running := by
  cases hs : sessions id with
  | none =>
    rw [(h.represents_none hs).turn_at_none] at hrow
    cases hrow
  | some s =>
    have hsound := hlived.sound hs
    rw [(h.represents_some hs).turn_at, Option.map_eq_some_iff] at hrow
    obtain ⟨turn, hturn, rfl⟩ := hrow
    have hrunning : turn.status = .Running := by simpa [Turn.row] using hactive
    obtain ⟨init, hturns, hp⟩ := hsound.running_last hturn hrunning
    exact ⟨s, init, turn, rfl, hsound, hturns, hp, rfl, hrunning⟩

section

variable (hp : ∀ key row, p key row = true → key.1 = id ∧ row.status.active = true)

include hp

/-- An `UPDATE` of active turns of one session hits none of them, or the last one. -/
theorem Stores.active_cases :
    db.session_turn.select p = [] ∨
      db.session_turn.select p ≠ [] ∧ ∃ s init turn, sessions id = some s ∧ s.Sound ∧
        s.turns = init ++ [turn] ∧ turn.status = .Running ∧
          p (id, init.length) turn.row = true := by
  by_cases hnone : db.session_turn.select p = []
  · exact .inl hnone
  obtain ⟨⟨⟨id', q⟩, row⟩, hmem⟩ := exists_mem_of_ne_nil _ hnone
  obtain ⟨hrow, htest⟩ := Table.mem_select.mp hmem
  obtain ⟨hid, hactive⟩ := hp _ _ htest
  obtain rfl : id' = id := hid
  obtain ⟨s, init, turn, hs, hsound, hturns, rfl, rfl, hrunning⟩ :=
    h.active_turn hlived hrow hactive
  exact .inr ⟨hnone, s, init, turn, hs, hsound, hturns, hrunning, htest⟩

/-- **Interrupting active turns** of a session is an interruption of the last one, or
nothing. -/
theorem Stores.interrupt (error_type : String) :
    db.session_turn.select p = [] ∨
      db.session_turn.select p ≠ [] ∧ ∃ s init turn, sessions id = some s ∧
        s.turns = init ++ [turn] ∧ turn.status = .Running ∧ p (id, init.length) turn.row = true ∧
        Stores (Database.set_continuation { db with
          session_turn := db.session_turn.updateAll p fun row =>
            Database.TurnRow.finish row .interrupted (some error_type) } id none)
          (update sessions id (some (s.after (.interrupted error_type)))) := by
  obtain hnone | ⟨hsome, s, init, turn, hs, hsound, hturns, hrunning, hlast⟩ :=
    h.active_cases hlived hp
  · exact .inl hnone
  · refine .inr ⟨hsome, s, init, turn, hs, hturns, hrunning, hlast, ?_⟩
    have hupdated := h.update_active hs hsound hturns hp hlast
      (f := fun row => Database.TurnRow.finish row .interrupted (some error_type))
      (g := (·.ended .Interrupted (some error_type))) rfl rfl
    have hcleared := hupdated.set_continuation (update_self _ _ _) none
    rw [update_idem] at hcleared
    exact hcleared

end

end Active

/-! ## Recovery -/

/-- The registry of abandoned turns is filtered by session before any of them is interrupted. -/
theorem mem_for_session {id : String} {owner : TurnOwner} {identity : StoreIdentity}
    {abandoned_turns : List TurnOwner}
    (h : owner ∈ Database.for_session abandoned_turns identity id) : owner.session_id = id := by
  have htest := (mem_filter.mp h).2
  simp only [Bool.and_eq_true, decide_eq_true_eq] at htest
  exact htest.2

section Recovery

variable [Sha256] {db : Database} {sessions : Sessions} {chronicle : Chronicle} {id : String}

theorem Recovered.trans {x y z : Sessions × Chronicle} (h : Recovered id x y)
    (h' : Recovered id y z) : Recovered id x z := by
  induction h' with
  | refl => exact h
  | step error_type _ present busy ih => exact .step error_type ih present busy

theorem Recovered.present {x y : Sessions × Chronicle} (h : Recovered id x y) {id' : String} :
    y.1 id' = none ↔ x.1 id' = none := by
  induction h with
  | refl => rfl
  | @step sessions chronicle s error_type _ present _ ih =>
    rw [← ih]
    by_cases hid : id' = id
    · subst hid
      simp [present]
    · simp [update_of_ne hid]

variable (h : Stores db sessions) (hlived : Lived sessions chronicle)

include h hlived

/-- `recover_stale_turns` gives up a lapsed turn of the session, and nothing else. -/
theorem Stores.lapses (id : String) (now : Int) :
    ∃ sessions', Lapses sessions sessions' id now ∧
      Stores (db.recover_stale_turns id now) sessions' := by
  unfold Database.recover_stale_turns
  dsimp only
  have hstale : ∀ (key : String × Nat) (row : TurnRow),
      (decide (key.1 = id) && row.status.active && Database.lapsed now row) = true →
        key.1 = id ∧ row.status.active = true := by
    intro key row htest
    simp only [Bool.and_eq_true, decide_eq_true_eq] at htest
    exact htest.1
  obtain hnone | ⟨hsome, s, init, turn, hs, hturns, hrunning, hlast, hstored⟩ :=
    h.interrupt hlived hstale "interrupted"
  · rw [hnone, Table.updateAll_of_select hnone]
    exact ⟨sessions, .inl rfl, h⟩
  · rw [if_neg (by simpa using hsome)]
    simp only [Bool.and_eq_true, Database.lapsed] at hlast
    obtain ⟨lease, hlease, hle⟩ := (Option.any_eq_true _ _).mp hlast.2
    exact ⟨_, .inr ⟨s, hs, ⟨turn, lease, by simp [hturns], hrunning, hlease,
      of_decide_eq_true hle⟩, rfl⟩, hstored⟩

theorem Stores.recovered (id : String) (now : Int) :
    ∃ y, Recovered id (sessions, chronicle) y ∧ Stores (db.recover_stale_turns id now) y.1 := by
  obtain ⟨sessions', hlapses, hstored⟩ := h.lapses hlived id now
  obtain ⟨chronicle', hrecovered⟩ := hlapses.recovered chronicle
  exact ⟨(sessions', chronicle'), hrecovered, hstored⟩

/-- The interruption of an owner's turn is found by key and token. It does nothing, not even to
the continuation, if the turn has ended or has another token. -/
theorem Stores.interrupt_owned (owner : TurnOwner) :
    db.interrupt_owned_turn owner = db ∨
      ∃ s, sessions owner.session_id = some s ∧ s.OwnedBy owner ∧
        Stores (db.interrupt_owned_turn owner) (update sessions owner.session_id
          (some (s.after (.interrupted owner.interruption_error_type)))) := by
  unfold Database.interrupt_owned_turn
  dsimp only
  have howned : ∀ (key : String × Nat) (row : TurnRow),
      (decide (key = (owner.session_id, owner.turn_position)) &&
        (decide (row.owner_token = some owner.token) && row.status.active)) = true →
        key.1 = owner.session_id ∧ row.status.active = true := by
    intro key row htest
    simp only [Bool.and_eq_true, decide_eq_true_eq] at htest
    exact ⟨congrArg Prod.fst htest.1, htest.2.2⟩
  obtain hnone | ⟨hsome, s, init, turn, hs, hturns, hrunning, hlast, hstored⟩ :=
    h.interrupt hlived howned owner.interruption_error_type
  · left
    rw [Table.select_key_eq_nil_iff.mp hnone, Table.update, Table.updateAll_of_select hnone]
    rfl
  · right
    have haffects : db.session_turn.affects (owner.session_id, owner.turn_position)
        (fun row => decide (row.owner_token = some owner.token) && row.status.active) = true := by
      by_contra hmiss
      exact hsome (Table.select_key_eq_nil_iff.mpr (Bool.eq_false_of_not_eq_true hmiss))
    simp only [Bool.and_eq_true, decide_eq_true_eq, Prod.mk.injEq, true_and] at hlast
    obtain ⟨hposition, htoken, -⟩ := hlast
    refine ⟨s, hs, ⟨turn, by simp [hturns], hrunning, Option.some.inj htoken,
      by simp [hturns, ← hposition]⟩, ?_⟩
    rw [if_pos haffects]
    exact hstored

/-- Each interruption may find the turn already ended by the one before; all of them together are
still a recovery of the session. -/
theorem Stores.abandoned {owners : List TurnOwner}
    (howners : ∀ owner ∈ owners, owner.session_id = id) :
    ∃ y, Recovered id (sessions, chronicle) y ∧
      Stores (owners.foldl Database.interrupt_owned_turn db) y.1 := by
  induction owners generalizing db sessions chronicle with
  | nil => exact ⟨_, .refl, h⟩
  | cons owner owners ih =>
    obtain rfl := howners owner mem_cons_self
    have hrest := fun o ho => howners o (mem_cons_of_mem _ ho)
    rcases h.interrupt_owned hlived owner with hsame | ⟨s, hs, howned, hstored⟩
    · rw [foldl_cons, hsame]
      exact ih h hlived hrest
    · have hfirst : Recovered owner.session_id (sessions, chronicle) _ :=
        .step owner.interruption_error_type .refl hs howned.busy
      obtain ⟨y, hrecovered, hholds⟩ := ih hstored (hlived.leads hfirst.leads) hrest
      exact ⟨y, hfirst.trans hrecovered, hholds⟩

/-- What a reservation gives up before it looks at anything. -/
theorem Stores.given_up (input : Database.ReservationInput) (id : String) :
    ∃ y, Recovered id (sessions, chronicle) y ∧
      Stores (foldl Database.interrupt_owned_turn
        (db.recover_stale_turns id input.recovery_now)
        (Database.for_session input.abandoned_turns db.identity id)) y.1 := by
  obtain ⟨y, hrecovered, hstored⟩ := h.recovered hlived id input.recovery_now
  have hlived' : Lived y.1 y.2 := hlived.leads hrecovered.leads
  obtain ⟨z, habandoned, hstored'⟩ := hstored.abandoned hlived' fun _ => mem_for_session
  exact ⟨z, hrecovered.trans habandoned, hstored'⟩

end Recovery

/-! ## Transactions -/

/-- What is to be shown of a transaction that commits: its deed has had its effect. -/
def Commits [Sha256] (sessions : Sessions) (chronicle : Chronicle) (deed : Deed)
    (db : Database) : Prop :=
  ∃ y, Effects (sessions, chronicle) deed y ∧ Stores db y.1

section Transactions

variable [Sha256] {db db' : Database} {sessions : Sessions} {chronicle : Chronicle} {id : String}

variable {reply : Unit}

variable (chronicle) in
/-- The row is inserted only where there is none, so nothing is known about the session yet. -/
theorem create_session_commits (h : Stores db sessions) {config : NewSession}
    {metadata : Option ModelMetadata} {max_history_bytes : Nat}
    (hcommit : db.create_session config metadata max_history_bytes = .ok (reply, db')) :
    Commits sessions chronicle (.created config.id) db' := by
  unfold Database.create_session at hcommit
  split_ifs at hcommit with _ _ _ hfree
  cases hcommit
  have hnone : sessions config.id = none := by
    cases hs : sessions config.id with
    | none => rfl
    | some s =>
      rw [(h.represents_some hs).session] at hfree
      cases hfree
  exact ⟨_, .created config metadata max_history_bytes hnone,
    h.insert_session hnone hfree rfl rfl rfl⟩

variable {owner : TurnOwner}

variable (chronicle) in
/-- The `UPDATE` asks that the turn of the write has the token of the owner, and not that it
still runs. -/
theorem finish_write_commits (h : Stores db sessions) {write : Nat} {applied : Bool}
    (hcommit : db.finish_write owner write applied = .ok (reply, db')) :
    Commits sessions chronicle (.settled owner) db' := by
  obtain ⟨-, -, hcommit⟩ := Query.bind_eq_ok.mp hcommit
  generalize (if applied then WriteStatus.Applied else WriteStatus.Failed) = status at hcommit
  obtain ⟨haffects, hcommit⟩ := Query.guard_eq_ok hcommit
  cases hcommit
  obtain ⟨row, -, hsettles⟩ := Table.affects_iff.mp haffects
  obtain ⟨-, howned⟩ := Bool.and_eq_true_iff.mp hsettles
  obtain ⟨turn, hturn, -⟩ := Table.affects_iff.mp howned
  cases hs : sessions owner.session_id with
  | none =>
    rw [(h.represents_none hs).turn_at_none] at hturn
    cases hturn
  | some s =>
    refine ⟨_, .settled write status (.intro hs trivial), ?_⟩
    refine h.update_write hs (fun row htest => ?_) fun key row hid => ?_
    · simp only [Bool.and_eq_true, decide_eq_true_eq] at htest
      exact htest.1.1.1
    · simp only [Session.settle, Database.write_record, howned, hid, decide_true,
        Bool.true_and, Bool.and_true, Bool.and_eq_true, Bool.or_eq_true, decide_eq_true_eq]
      congr

/-! ### What transactions are made of -/

/-- What a session answers to `load_turn_configuration`. -/
def Session.turn_configuration (s : Session) : Database.TurnConfigurationRow where
  max_history_bytes := s.configuration.max_history_bytes
  model_generation := s.configuration.model_generation
  provider_session_id := s.configuration.provider_session_id
  turn_options := s.completed.getLast?.map (·.options)

omit [Sha256] in
theorem Stores.configured (h : Stores db sessions) {configuration : Database.TurnConfigurationRow}
    (hread : db.load_turn_configuration id = .ok configuration) :
    ∃ s, sessions id = some s ∧ configuration = s.turn_configuration := by
  cases hs : sessions id with
  | none =>
    rw [Database.load_turn_configuration, (h.represents_none hs).session] at hread
    cases hread
  | some s =>
    rw [(h.represents_some hs).load_turn_configuration] at hread
    cases hread
    exact ⟨s, rfl, rfl⟩

variable {now : Int} {s : Session} {p : TurnRow → Bool}

/-- The statements of an owner name the turn by its key, and test that it runs under the token. -/
theorem Stores.update_live (h : Stores db sessions) (hs : sessions owner.session_id = some s)
    (hsound : s.Sound) {init : List Turn} {turn : Turn} (hturns : s.turns = init ++ [turn])
    (hposition : owner.turn_position = init.length)
    (hp : ∀ row, p row = true → Database.live owner now row = true) (hlast : p turn.row = true)
    {f : TurnRow → TurnRow} {g : Turn → Turn} (hmessages : (g turn).messages = turn.messages)
    (hrow : f turn.row = (g turn).row) :
    Stores { db with
      session_turn := db.session_turn.update (owner.session_id, owner.turn_position) p f }
      (update sessions owner.session_id
        (some { s with turns := update_last g s.turns })) := by
  refine h.update_active hs hsound hturns (fun key row htest => ?_) ?_ hmessages hrow
  · simp only [Bool.and_eq_true, decide_eq_true_eq] at htest
    obtain ⟨rfl, htest⟩ := htest
    have hlive := hp row htest
    simp only [Database.live, Bool.and_eq_true, decide_eq_true_eq] at hlive
    exact ⟨rfl, by rw [hlive.1.2]; rfl⟩
  · simp [hposition, hlast]

/-- The options of the newest completed turn decode, because every turn was stored with encoded
ones. So the test of the continuation cannot fail, it can only say no. -/
theorem Session.compatible_eq (hsound : s.Sound) (options : TurnOptions) :
    Database.compatible s.turn_configuration options
      = .ok (s.completed.getLast?.any fun turn =>
        turn.options.continuation_compatible options) := by
  unfold Database.compatible Session.turn_configuration
  cases hlast : s.completed.getLast? with
  | none => rfl
  | some turn =>
    have hmem : turn ∈ s.turns := (mem_filter.mp (mem_of_getLast? hlast)).1
    obtain ⟨encoded, hencoded⟩ := (hsound.turn turn hmem).options
    simp only [Option.map_some, hencoded, StoredTurnOptions.decode_encode, Option.any_some]
    rfl

variable {acquisition : Database.TurnAcquisition}

omit [Sha256] in
/-- A reservation from what was read is made if all of it is current. -/
theorem Stores.is_current (h : Stores db sessions)
    (hcurrent : db.is_current id acquisition = .ok true) :
    ∃ s, sessions id = some s ∧ acquisition.configuration = s.turn_configuration ∧
      acquisition.expected_generation = s.configuration.model_generation ∧
      acquisition.turn_position = s.turns.length := by
  obtain ⟨configuration, hconfiguration, hcurrent⟩ := Query.bind_eq_ok.mp hcurrent
  obtain ⟨_, hgeneration, hcurrent⟩ := Query.bind_eq_ok.mp hcurrent
  obtain ⟨s, hs, rfl⟩ := h.configured hconfiguration
  rw [(h.represents_some hs).next_turn_position] at hcurrent
  have htest := Except.ok.inj hcurrent
  simp only [Bool.and_eq_true, decide_eq_true_eq] at htest
  obtain ⟨⟨hsame, hposition⟩, -⟩ := htest
  exact ⟨s, hs, hsame.symm, (check_generation_ok hgeneration).symm, hposition.symm⟩

omit [Sha256] in
/-- The partial unique index on active turns refuses a second one, so an insertion that succeeds
shows that the session was idle. -/
theorem Stores.inserted_turn (h : Stores db sessions) (hs : sessions id = some s) (turn : Turn)
    (hmessages : turn.messages = [])
    (hinsert : db.insert_turn id s.turns.length turn.row = some db') :
    Stores db' (update sessions id (some { s with turns := s.turns ++ [turn] })) ∧
      (turn.status = .Running → (db.turn_rows id).any (fun turn => turn.2.status.active)
        = false) := by
  unfold Database.insert_turn at hinsert
  split at hinsert
  · next hfree =>
    split at hinsert
    · cases hinsert
    rename_i hunique
    cases hinsert
    refine ⟨h.insert_turn hs hmessages hfree, fun hrunning => ?_⟩
    by_contra hactive
    refine hunique ?_
    rw [Bool.not_eq_false] at hactive
    rw [hactive]
    simp [Turn.row, hrunning]
  · cases hinsert

variable {options : TurnOptions}

/-- The continuation is compared with what was read before the turn was inserted; `s₀` is the
session then, and the insertion has not changed its configuration. -/
theorem Stores.cleared (h : Stores db sessions) {s s₀ : Session} (hs : sessions id = some s)
    (hsound : s₀.Sound) (hsame : s.configuration = s₀.configuration)
    (hcleared : db.clear_incompatible_continuation id s₀.turn_configuration options = .ok db') :
    Stores db' (update sessions id (some { s with
      configuration :=
        { s₀.configuration with provider_session_id := s₀.continuation_for options } })) := by
  unfold Database.clear_incompatible_continuation at hcleared
  rw [s₀.compatible_eq hsound options] at hcleared
  obtain ⟨compatible, hcompatible, hcleared⟩ := Query.bind_eq_ok.mp hcleared
  have hcompatible := Except.ok.inj hcompatible
  unfold Session.continuation_for
  by_cases htest : compatible = true
  · rw [if_pos htest] at hcleared
    cases hcleared
    rw [hcompatible, htest]
    have hkept : s₀.configuration.provider_session_id.filter (fun _ => true)
        = s₀.configuration.provider_session_id := by
      cases s₀.configuration.provider_session_id <;> rfl
    rw [hkept, ← hsame, update_eq_self_iff.mpr hs.symm]
    exact h
  · rw [if_neg htest] at hcleared
    cases hcleared
    rw [hcompatible, Bool.eq_false_of_not_eq_true htest]
    have hdropped : s₀.configuration.provider_session_id.filter (fun _ => false) = none := by
      cases s₀.configuration.provider_session_id <;> rfl
    rw [hdropped, ← hsame]
    exact h.set_continuation hs none

variable {reservation : Database.Reservation} {input : Database.ReservationInput}
  {request : Option HostRequest} {message : EncodedMessage} {turn_input : TurnInput}

/-- The reservation itself: a turn, its message, and a continuation it can use. -/
theorem insert_reservation_commits {x : Sessions × Chronicle} (h : Stores db sessions)
    (hrecovered : Recovered id x (sessions, chronicle)) (hlived : Lived sessions chronicle)
    (hs : sessions id = some s)
    (hmessage : EncodedMessage.from_message turn_input.into_user_message = .ok message)
    (hconfiguration : acquisition.configuration = s.turn_configuration)
    (hgeneration : acquisition.expected_generation = s.configuration.model_generation)
    (hposition : acquisition.turn_position = s.turns.length)
    (hhost : ∀ r, request = some r → s.host_turn r.id = none)
    (hcommit : db.insert_reservation input id message acquisition options request =
      .ok (reservation, db')) :
    ∃ owner y, reservation = .Acquired owner ∧
      Effects x (.reserved id options request acquisition.expected_generation
        (Database.handed acquisition options) owner) y ∧ Stores db' y.1 := by
  have hrep := h.represents_some hs
  have hsound := hlived.sound hs
  unfold Database.insert_reservation at hcommit
  rw [hrep.session, hposition, hconfiguration] at hcommit
  obtain ⟨row, hrow, hcommit⟩ := Query.bind_eq_ok.mp hcommit
  cases hrow
  dsimp only at hcommit
  split at hcommit
  · cases hcommit
  rename_i inserted hinserted
  obtain ⟨inserted', hsame, hcommit⟩ := Query.bind_eq_ok.mp hcommit
  cases hsame
  obtain ⟨recorded, hrecorded, hcommit⟩ := Query.bind_eq_ok.mp hcommit
  obtain ⟨reserved, hreserved, hcommit⟩ := Query.bind_eq_ok.mp hcommit
  cases hcommit
  -- the turn before its message
  let turn : Turn :=
    { error_type := none
      lease := some (saturating_add_i64 input.reservation_now TURN_LEASE_SECONDS)
      messages := []
      model := s.configuration.recorded_model
      options := StoredTurnOptions.encode options
      outcome := none
      request := request
      status := .Running
      token := input.token }
  obtain ⟨hturn, hidle⟩ := h.inserted_turn hs turn rfl hinserted
  have hidle := hidle rfl
  rw [hrep.active_rows hsound] at hidle
  have hmessaged := hturn.insert_message (update_self _ _ _) rfl hmessage hrecorded
  have hcleared := hmessaged.cleared (update_self _ _ _) hsound rfl hreserved
  rw [update_idem, update_idem] at hcleared
  let owner := TurnOwner.new db.identity id s.turns.length input.token
  have hallowed : s.Allows (.reserved turn_input.into_user_message options request
      acquisition.expected_generation owner.token
      (saturating_add_i64 input.reservation_now TURN_LEASE_SECONDS)) :=
    ⟨hidle, hgeneration, hhost, turn_input, rfl⟩
  have heffects : Effects x (.reserved owner.session_id options request
      acquisition.expected_generation (s.continuation_for options) owner) _ :=
    .reserved _ _ hrecovered hs rfl (.intro hs hallowed)
  -- the turn is handed what the session has for it
  rw [Database.handed, hconfiguration, s.compatible_eq hsound options]
  exact ⟨owner, _, rfl, heffects, hcleared⟩

/-! ### Sound sessions -/

variable (h : Stores db sessions) (hlived : Lived sessions chronicle)

include h hlived

theorem load_request_commits {host_id : String} {record : Option HostTurnRecord}
    (hcommit : db.load_request now id host_id = .ok (record, db')) :
    Commits sessions chronicle (.answered id host_id record) db' := by
  obtain ⟨configuration, hconfiguration, hcommit⟩ := Query.bind_eq_ok.mp hcommit
  obtain ⟨⟨sessions', chronicle'⟩, hrecovered, hstored⟩ := h.recovered hlived id now
  obtain ⟨found, hfound, hcommit⟩ := Query.bind_eq_ok.mp hcommit
  cases hcommit
  obtain ⟨_, hpresent, -⟩ := h.configured hconfiguration
  cases hs : sessions' id with
  | none => cases hpresent.symm.trans (hrecovered.present.mp hs)
  | some s =>
    have hsound := (hlived.leads hrecovered.leads).sound hs
    rw [(hstored.represents_some hs).load_request_from hsound hstored.write_ids] at hfound
    cases hfound
    exact ⟨_, .answered hrecovered hs, hstored⟩

/-! ### Owners -/

/-- A statement of an owner that affects a row has found the last turn of the session, running and
owned. Every transaction of an owner checks nothing but this. -/
theorem Stores.live_turn (hp : ∀ row, p row = true → Database.live owner now row = true)
    (haffects : db.session_turn.affects (owner.session_id, owner.turn_position) p = true) :
    ∃ s init turn, sessions owner.session_id = some s ∧ s.Sound ∧ s.turns = init ++ [turn] ∧
      turn.status = .Running ∧ owner.turn_position = init.length ∧ p turn.row = true ∧
      s.OwnedBy owner := by
  obtain ⟨row, hrow, htest⟩ := Table.affects_iff.mp haffects
  have hlive := hp row htest
  simp only [Database.live, Bool.and_eq_true, decide_eq_true_eq] at hlive
  obtain ⟨⟨htoken, hstatus⟩, -⟩ := hlive
  obtain ⟨s, init, turn, hs, hsound, hturns, hposition, rfl, hrunning⟩ :=
    h.active_turn hlived hrow (by rw [hstatus]; rfl)
  exact ⟨s, init, turn, hs, hsound, hturns, hrunning, hposition, htest, turn, by simp [hturns],
    hrunning, Option.some.inj htoken, by simp [hturns, hposition]⟩

theorem fail_turn_commits {error_type : String}
    (hcommit : db.fail_turn now owner error_type = .ok (reply, db')) :
    Commits sessions chronicle (.failed owner error_type) db' := by
  obtain ⟨-, -, hcommit⟩ := Query.bind_eq_ok.mp hcommit
  obtain ⟨haffects, hcommit⟩ := Query.guard_eq_ok hcommit
  cases hcommit
  obtain ⟨s, init, turn, hs, hsound, hturns, hrunning, hposition, htest, howned⟩ :=
    h.live_turn hlived (fun _ htest => htest) haffects
  refine ⟨_, .failed (.intro hs howned), ?_⟩
  have hupdated := h.update_live hs hsound hturns hposition (fun _ htest => htest) htest
    (f := fun row => Database.TurnRow.finish row .failed (some error_type))
    (g := (·.ended .Failed (some error_type))) rfl rfl
  have hcleared := hupdated.set_continuation (update_self _ _ _) none
  rw [update_idem] at hcleared
  exact hcleared

theorem renew_commits {deadline : Int} (hcommit : db.renew now owner = .ok (deadline, db')) :
    Commits sessions chronicle (.renewed owner) db' := by
  obtain ⟨-, -, hcommit⟩ := Query.bind_eq_ok.mp hcommit
  obtain ⟨haffects, hcommit⟩ := Query.guard_eq_ok hcommit
  cases hcommit
  obtain ⟨s, init, turn, hs, hsound, hturns, hrunning, hposition, htest, howned⟩ :=
    h.live_turn hlived (fun _ htest => htest) haffects
  exact ⟨_, .renewed (saturating_add_i64 now TURN_LEASE_SECONDS) (.intro hs howned),
    h.update_live hs hsound hturns hposition (fun _ htest => htest) htest rfl rfl⟩

theorem interrupt_commits (hcommit : db.interrupt owner = .ok (reply, db')) :
    Commits sessions chronicle (.interrupted owner) db' := by
  obtain ⟨-, -, hcommit⟩ := Query.bind_eq_ok.mp hcommit
  cases hcommit
  rcases h.interrupt_owned hlived owner with hsame | ⟨s, hs, howned, hstored⟩
  · rw [hsame]
    exact ⟨_, .spared, h⟩
  · exact ⟨_, .interrupted hs howned (.intro hs howned.busy), hstored⟩

/-- Completing the running turn, in the three steps of its transaction. -/
theorem complete_commits {messages : List ModelMessage} {continuation : Option String}
    {outcome : Option TurnOutcome}
    (hcommit : db.complete now owner messages continuation outcome = .ok (reply, db')) :
    Commits sessions chronicle (.completed owner messages continuation outcome) db' := by
  obtain ⟨encoded, hencoded, hcommit⟩ := Query.bind_eq_ok.mp hcommit
  obtain ⟨-, -, hcommit⟩ := Query.bind_eq_ok.mp hcommit
  obtain ⟨haffects, hcommit⟩ := Query.guard_eq_ok hcommit
  obtain ⟨recorded, hrecorded, hcommit⟩ := Query.bind_eq_ok.mp hcommit
  cases hcommit
  have hlive : ∀ row, (Database.live owner now row && (row.host_id.isNone || outcome.isSome))
      = true → Database.live owner now row = true := fun row htest =>
    (Bool.and_eq_true_iff.mp htest).1
  obtain ⟨s, init, turn, hs, hsound, hturns, hrunning, hposition, htest, howned⟩ :=
    h.live_turn hlived hlive haffects
  have hallowed : s.Allows (.completed owner messages continuation outcome) := by
    refine ⟨howned, fun turn' hlast hrequest => ?_⟩
    obtain rfl : turn = turn' := by simpa [hturns] using hlast
    have hhost := (Bool.and_eq_true_iff.mp htest).2
    simpa [Turn.row, Option.isSome_iff_ne_none.mp hrequest] using hhost
  refine ⟨_, .completed (.intro hs hallowed), ?_⟩
  have hupdated := h.update_live hs hsound hturns hposition hlive htest
    (f := fun row => { Database.TurnRow.finish row .completed none with
      terminal_outcome := outcome })
    (g := fun turn => { turn.ended .Completed none with outcome := outcome }) rfl rfl
  -- a running turn has one message, so the others start at position 1
  have hlength : turn.messages.length = 1 := by
    obtain ⟨input, rest, hmessages, hrest⟩ :=
      (hsound.turn turn (hturns ▸ mem_append_right _ (mem_singleton_self turn))).opening
    rw [hmessages, hrest hrunning, length_singleton]
  rw [hturns, update_last_concat] at hupdated
  have hinserted := hupdated.insert_messages (update_self _ _ _) rfl hencoded
    (by rw [← hrecorded, hposition, ← hlength]; rfl)
  have hcontinued := hinserted.set_continuation (update_self _ _ _) continuation
  rw [update_idem, update_idem] at hcontinued
  simp only [Session.after, hturns, update_last_concat]
  exact hcontinued

/-! ### Writes -/

/-- The number of the write is the next one of the table, over all sessions. -/
theorem write_intent_commits {call_id root path : String} {expected : Option (List UInt8)}
    {resulting : List UInt8} {write : Nat}
    (hcommit : db.write_intent now owner call_id root path expected resulting = .ok (write, db')) :
    Commits sessions chronicle (.intended owner) db' := by
  obtain ⟨-, -, hcommit⟩ := Query.bind_eq_ok.mp hcommit
  obtain ⟨haffects, hcommit⟩ := Query.guard_eq_ok hcommit
  cases hcommit
  obtain ⟨s, init, turn, hs, -, -, -, -, -, howned⟩ :=
    h.live_turn hlived (fun _ htest => htest) haffects
  let row : WriteRow :=
    { call_id := call_id
      expected_hash := expected.map content_hash
      path := path
      repository_root := root
      resulting_hash := content_hash resulting
      session_id := owner.session_id
      status := .Pending
      turn_position := owner.turn_position }
  exact ⟨_, .intended (Database.write_record (db.session_write.nextId, row))
    (.intro hs ⟨howned, rfl⟩), h.insert_write hs rfl⟩

/-! ### Reservations -/

/-- A reservation first gives up what has lapsed or was abandoned, then answers a request that is
recorded, and only then compares what its program has read; if that is stale it asks for a retry
and has only looked. -/
theorem reserve_turn_commits
    (hmessage : EncodedMessage.from_message turn_input.into_user_message = .ok message)
    (hcommit : db.reserve_turn input id message acquisition options request =
      .ok (reservation, db')) :
    Commits sessions chronicle
      (DatabaseCall.deed (.reserve_turn id message acquisition options request) (.ok reservation))
      db' := by
  unfold Database.reserve_turn at hcommit
  dsimp only at hcommit
  obtain ⟨⟨sessions₂, chronicle₂⟩, hrecovered₂, hstored₂⟩ := h.given_up hlived input id
  have hlived₂ := hlived.leads hrecovered₂.leads
  generalize foldl Database.interrupt_owned_turn (db.recover_stale_turns id input.recovery_now)
    (Database.for_session input.abandoned_turns db.identity id) = db₂ at hcommit hstored₂
  -- a request that is not recorded is reserved like a turn without one
  have hreserve : ∀ (hhost : ∀ s r, sessions₂ id = some s → request = some r →
      s.host_turn r.id = none),
      ((do
        if ← db₂.is_current id acquisition then
          db₂.insert_reservation input id message acquisition options request
        else return (.Retry, db₂)) : Except SessionError (Database.Reservation × Database))
          = .ok (reservation, db') →
      Commits sessions chronicle
        (DatabaseCall.deed (.reserve_turn id message acquisition options request) (.ok reservation))
        db' := by
    intro hhost hcommit
    obtain ⟨current, hcurrent, hcommit⟩ := Query.bind_eq_ok.mp hcommit
    by_cases htest : current = true
    · rw [htest] at hcurrent
      rw [if_pos htest] at hcommit
      obtain ⟨s, hs, hconfiguration, hgeneration, hposition⟩ := hstored₂.is_current hcurrent
      obtain ⟨owner, y, rfl, heffects, hstored⟩ := insert_reservation_commits hstored₂ hrecovered₂
        hlived₂ hs hmessage hconfiguration hgeneration hposition
          (fun r hr => hhost s r hs hr) hcommit
      exact ⟨y, heffects, hstored⟩
    · rw [if_neg htest] at hcommit
      cases hcommit
      cases request <;> exact ⟨_, .looked hrecovered₂, hstored₂⟩
  cases request with
  | none => exact hreserve (fun s r _ hr => nomatch hr) hcommit
  | some =>
    obtain ⟨record, hrecord, hcommit⟩ := Query.bind_eq_ok.mp hcommit
    cases hs : sessions₂ id with
    | none =>
      rw [Database.load_request_from, (hstored₂.represents_none hs).turns] at hrecord
      cases hrecord
      refine hreserve (fun s r hs' _ => ?_) hcommit
      rw [hs] at hs'
      cases hs'
    | some s =>
      have hsound := hlived₂.sound hs
      rw [(hstored₂.represents_some hs).load_request_from hsound hstored₂.write_ids] at hrecord
      have hrecord := Except.ok.inj hrecord
      cases record with
      | none =>
        refine hreserve (fun s' r hs' hr => ?_) hcommit
        rw [hs] at hs'
        cases hs'
        cases hr
        exact host_turn_eq_none hsound hrecord
      | some record =>
        obtain ⟨_, -, hcommit⟩ := Query.bind_eq_ok.mp hcommit
        cases hcommit
        refine ⟨_, ?_, hstored₂⟩
        simp only [DatabaseCall.deed, ← hrecord]
        exact .answered hrecovered₂ hs

end Transactions

/-! ## Switches -/

/-- The turns up to a revision have ended, and a model takes over those that completed. -/
def Vetted (capabilities : ModelCapabilities) (revision : Option Nat) (s : Session) : Prop :=
  ∀ q, revision = some q → ∀ p, p ≤ q → ∃ turn, s.turns[p]? = some turn ∧
    turn.status ≠ .Running ∧ (turn.status = .Completed → ∀ message ∈ turn.messages,
      check_message capabilities message = .ok ())

section Switches

variable {db db' : Database} {sessions sessions' : Sessions} {chronicle chronicle' : Chronicle}
  {id : String} {s : Session} {capabilities : ModelCapabilities} {revision : Option Nat}

/-- Turns that have ended stay as they are, so no event takes back what was vetted. -/
theorem Vetted.after [Sha256] (h : Vetted capabilities revision s) {e : Event}
    (allowed : s.Allows e) :
    Vetted capabilities revision (s.after e) := by
  intro q hq p hp
  obtain ⟨turn, hturn, hended, hpasses⟩ := h q hq p hp
  exact ⟨turn, s.getElem?_after allowed hturn hended, hended, hpasses⟩

theorem Vetted.leads [Sha256] (h : Vetted capabilities revision s)
    (hleads : Leads (sessions, chronicle) (sessions', chronicle')) (hs : sessions id = some s) :
    ∃ s', sessions' id = some s' ∧ Vetted capabilities revision s' := by
  obtain ⟨s', hs', hkept⟩ := hleads.keeps
    (P := fun s s' => Vetted capabilities revision s → Vetted capabilities revision s') hs
    (fun _ h => h) fun _ _ _ hP allowed h => (hP h).after allowed
  exact ⟨s', hs', hkept h⟩

/-- The revision of a snapshot is the position of the newest completed turn. -/
theorem Session.completed_at_le {q : Nat} (hnewest : s.completed_at.getLast?.map Prod.snd = some q)
    {p : Nat} {turn : Turn} (hturn : s.turns[p]? = some turn)
    (hcompleted : turn.status = .Completed) :
    p ≤ q := by
  have hmem : (turn, p) ∈ s.completed_at :=
    mem_filter.mpr ⟨mem_zipIdx_iff_getElem?.mpr hturn, by simpa using hcompleted⟩
  obtain ⟨last, hlast, rfl⟩ := Option.map_eq_some_iff.mp hnewest
  obtain ⟨init, hinit⟩ := getLast?_eq_some_iff.mp hlast
  have hascending := s.completed_at_ascending
  rw [hinit, map_append, pairwise_append] at hascending
  rw [hinit] at hmem
  rcases mem_append.mp hmem with hmem | hmem
  · exact Nat.le_of_lt (hascending.2.2 p (mem_map.mpr ⟨_, hmem, rfl⟩) last.2
      (mem_singleton_self last.2))
  · rw [← mem_singleton.mp hmem]

/-- The first transaction of a switch vets what has completed so far. -/
theorem Stores.switch_snapshot [Sha256] (h : Stores db sessions) (hlived : Lived sessions chronicle)
    {generation : Int} (hsnapshot : db.switch_snapshot id generation capabilities = .ok revision) :
    ∃ s, sessions id = some s ∧ Vetted capabilities revision s := by
  obtain ⟨configuration, hconfiguration, hsnapshot⟩ := Query.bind_eq_ok.mp hsnapshot
  obtain ⟨_, -, hsnapshot⟩ := Query.bind_eq_ok.mp hsnapshot
  obtain ⟨_, hchecked, hsnapshot⟩ := Query.bind_eq_ok.mp hsnapshot
  have hrevision := Except.ok.inj hsnapshot
  obtain ⟨s, hs, -⟩ := h.configured hconfiguration
  have hrep := h.represents_some hs
  have hsound := hlived.sound hs
  rw [hrep.latest_completed_turn] at hrevision
  refine ⟨s, hs, fun q hq p hp => ?_⟩
  rw [hq] at hrevision
  obtain ⟨⟨last, q'⟩, hlast, rfl⟩ := Option.map_eq_some_iff.mp hrevision
  obtain ⟨hlast_mem, hlast_completed⟩ := mem_filter.mp (mem_of_getLast? hlast)
  have hlast_at : s.turns[q']? = some last := mem_zipIdx_iff_getElem?.mp hlast_mem
  have hlt : q' < s.turns.length := (List.getElem?_eq_some_iff.mp hlast_at).1
  obtain ⟨turn, hturn⟩ : ∃ turn, s.turns[p]? = some turn :=
    ⟨s.turns[p], getElem?_eq_getElem (by omega)⟩
  refine ⟨turn, hturn, fun hrunning => ?_, fun hcompleted => ?_⟩
  · -- only the last turn runs, and it has completed
    obtain ⟨init, hinit, rfl⟩ := hsound.running_last hturn hrunning
    rw [hinit, length_append, length_singleton] at hlt
    obtain rfl : init.length = q' := by omega
    rw [hlast_at] at hturn
    cases hturn
    rw [hrunning] at hlast_completed
    cases hlast_completed
  · exact hrep.checked_history h.message_ids hchecked turn
      (mem_filter.mpr ⟨mem_of_getElem? hturn, by simpa using hcompleted⟩)

/-- When nothing has completed since, the whole history is vetted. -/
theorem Vetted.history (h : Vetted capabilities revision s)
    (hrevision : s.completed_at.getLast?.map Prod.snd = revision) :
    check_history capabilities s.completed_messages = .ok () := by
  refine check_history_ok_iff.mpr fun message hmessage => ?_
  obtain ⟨turn, hturn, hmessage⟩ := mem_flatMap.mp hmessage
  obtain ⟨hmem, hcompleted⟩ := mem_filter.mp hturn
  have hcompleted : turn.status = .Completed := by simpa using hcompleted
  obtain ⟨p, hp⟩ := mem_iff_getElem?.mp hmem
  have hat : (turn, p) ∈ s.completed_at :=
    mem_filter.mpr ⟨mem_zipIdx_iff_getElem?.mpr hp, by simpa using hcompleted⟩
  cases hrev : revision with
  | none =>
    rw [hrev, Option.map_eq_none_iff, getLast?_eq_none_iff] at hrevision
    rw [hrevision] at hat
    cases hat
  | some q =>
    rw [hrev] at hrevision
    obtain ⟨turn', hturn', -, hpasses⟩ := h q hrev p (s.completed_at_le hrevision hp hcompleted)
    rw [hp] at hturn'
    cases hturn'
    exact hpasses hcompleted message hmessage

/-- The switch commits only if no turn has completed since its snapshot. What was vetted there is
then the whole history, although the two transactions may be far apart. -/
theorem switch_commit_commits [Sha256] (h : Stores db sessions) (hlived : Lived sessions chronicle)
    (hs : sessions id = some s) (hvetted : Vetted capabilities revision s)
    {now generation next : Int}
    (hnext : next_generation generation = .ok next) {identity : ExecutionIdentity}
    {metadata : Option ModelMetadata} {committed : Bool}
    (hcommit : db.switch_commit now id generation next identity metadata revision
      = .ok (committed, db')) :
    Commits sessions chronicle (DatabaseCall.deed
      (.switch_commit id generation next identity metadata capabilities revision) (.ok committed))
      db' := by
  unfold Database.switch_commit at hcommit
  dsimp only at hcommit
  obtain ⟨⟨sessions₁, chronicle₁⟩, hrecovered, hstored⟩ := h.recovered hlived id now
  have hlived₁ := hlived.leads hrecovered.leads
  obtain ⟨s₁, hs₁, hvetted₁⟩ := hvetted.leads hrecovered.leads hs
  have hrep := hstored.represents_some hs₁
  obtain ⟨configuration, hconfiguration, hcommit⟩ := Query.bind_eq_ok.mp hcommit
  rw [hrep.load_turn_configuration] at hconfiguration
  cases hconfiguration
  obtain ⟨_, hgeneration, hcommit⟩ := Query.bind_eq_ok.mp hcommit
  have hcurrent := check_generation_ok hgeneration
  obtain ⟨hbound, rfl⟩ := next_generation_ok hnext
  split at hcommit
  · cases hcommit
  rename_i hactive
  split at hcommit
  · cases hcommit
    exact ⟨_, .looked hrecovered, hstored⟩
  rename_i hsame
  cases hcommit
  have hidle : s₁.busy = false := by
    rw [← hrep.active_rows (hlived₁.sound hs₁)]
    simpa [filter_eq_nil_iff] using hactive
  rw [ne_eq, not_not, hrep.latest_completed_turn] at hsame
  have hallowed : s₁.Allows (.switched generation identity metadata capabilities) :=
    ⟨hidle, hcurrent.symm, hbound, hvetted₁.history hsame⟩
  exact ⟨_, .switched hrecovered (.intro hs₁ hallowed), hstored.update_session hs₁ rfl⟩

end Switches

/-! ## Programs -/

section Programs

open Prog (Log Obeys Meets)

abbrev DatabaseLog : Type := Log DatabaseCall DatabaseCall.Reply SessionError

/-- The first transaction of a switch, with its answer. -/
def snapshot_event (id : String) (generation : Int) (capabilities : ModelCapabilities)
    (revision : Option Nat) : Prog.Event DatabaseCall DatabaseCall.Reply SessionError :=
  ⟨.switch_snapshot id generation capabilities, .ok revision⟩

/-- What a program has seen when it issues a transaction; what it has seen when it
answers is left open. -/
def Prepared (A : DatabaseLog → String → HostRequest →
    Except SessionError HostTurnAcquisition → Prop) (log : DatabaseLog) : DatabaseCall → Prop
  | .switch_commit id generation next _ _ capabilities revision =>
    next_generation generation = .ok next ∧
      ∃ older, log = snapshot_event id generation capabilities revision :: older
  | .reserve_turn _ message _ _ _ =>
    ∃ input, EncodedMessage.from_message (TurnInput.into_user_message input) = .ok message
  | .answer id request result => A log id request result
  | _ => True

abbrev Prepares
    (A : DatabaseLog → String → HostRequest → Except SessionError HostTurnAcquisition → Prop)
    {α : Type} (prog : Database.DatabaseProg α) (log : DatabaseLog) : Prop :=
  Obeys (fun _ _ => True) (Prepared A) (fun _ _ => True) prog log

variable {α β : Type} {log : DatabaseLog}
  {A : DatabaseLog → String → HostRequest → Except SessionError HostTurnAcquisition → Prop}
  {call : DatabaseCall}

theorem prepares_transaction (h : Prepared A log call) :
    Prepares A (Database.transaction call) log :=
  Prog.obeys_perform_last h fun _ _ => trivial

variable {prog : Database.DatabaseProg α}

theorem Prepares.bind (h : Prepares A prog log) {f : α → Database.DatabaseProg β}
    (hf : ∀ a log, Prepares A (f a) log) : Prepares A (prog.bind f) log :=
  Meets.bind h fun log a _ => hf a log

theorem prepares_step {f : call.Reply → Database.DatabaseProg β} (h : Prepared A log call)
    (hf : ∀ a log, Prepares A (f a) log) : Prepares A ((Database.transaction call).bind f) log :=
  (prepares_transaction h).bind hf

/-- A program that reads its own failure as a value issues the same transactions. -/
theorem prepares_outcome (h : Prepares A prog log) : Prepares A prog.outcome log := by
  induction prog generalizing log with
  | ret | fail => trivial
  | call c k ih => exact ⟨h.1, fun a ha => ih _ (h.2.1 a ha), fun e => ih _ (h.2.2 e)⟩

theorem Prepares.ignore (h : Prepares A prog log) : Prepares A (Database.ignore prog) log :=
  h.bind fun _ _ => trivial

/-- A retry reserves with the message of the first attempt. -/
theorem prepares_acquire_loop [Sha256] {message : EncodedMessage}
    (hmessage : ∃ input, EncodedMessage.from_message (TurnInput.into_user_message input)
      = .ok message)
    (id : String) (options : TurnOptions) (request : Option HostRequest) (generation : Int)
    (fuel : Nat) (log : DatabaseLog) :
    Prepares A (Database.acquire_loop id message options request generation fuel) log := by
  induction fuel generalizing log with
  | zero => trivial
  | succ fuel ih =>
    refine prepares_step trivial fun loaded log => ?_
    dsimp only
    split
    · trivial
    · refine prepares_step hmessage fun reservation log => ?_
      cases reservation with
      | Acquired | Recorded => trivial
      | Retry => exact ih log

theorem prepares_acquire [Sha256] (fuel : Nat) (id : String) (input : TurnInput)
    (options : TurnOptions) (request : Option HostRequest) (generation : Int) (log : DatabaseLog) :
    Prepares A (Database.acquire fuel id input options request generation) log := by
  unfold Database.acquire
  split
  · trivial
  · next message hmessage =>
    exact prepares_acquire_loop ⟨input, hmessage⟩ id options request generation fuel log

/-- The commit of a switch comes right after its own snapshot, in every round. -/
theorem prepares_switch_model (fuel : Nat) (id : String) (generation : Int)
    (identity : ExecutionIdentity) (metadata : Option ModelMetadata)
    (capabilities : ModelCapabilities) (log : DatabaseLog) :
    Prepares A (Database.switch_model fuel id generation identity metadata capabilities) log := by
  unfold Database.switch_model
  split
  · trivial
  · next next hnext =>
    induction fuel generalizing log with
    | zero => trivial
    | succ fuel ih =>
      refine Prog.obeys_perform trivial fun revision _ => ?_
      refine prepares_step ⟨hnext, log, rfl⟩ fun committed log => ?_
      split
      · trivial
      · exact ih log

theorem prepares_recover_abandoned (owners : List TurnOwner) (log : DatabaseLog) :
    Prepares A (recover_abandoned (fun owner => Database.transaction (.interrupt owner)) owners)
      log := by
  induction owners generalizing log with
  | nil => trivial
  | cons owner owners ih => exact prepares_step trivial fun _ log => ih log

theorem prepares_acquire_request {load_request : Database.DatabaseProg (Option HostTurnRecord)}
    (hload : ∀ log, Prepares A load_request log) {recover : Database.DatabaseProg Unit}
    (hrecover : ∀ log, Prepares A recover log)
    {begin_request : Database.DatabaseProg (Option HostTurnAcquisition)}
    (hbegin : ∀ log, Prepares A begin_request log) (request : HostRequest) (log : DatabaseLog) :
    Prepares A (acquire_request load_request recover begin_request request) log := by
  refine (hload log).bind fun record log => ?_
  cases record with
  | some record => dsimp only; split <;> trivial
  | none =>
    refine (hload log).bind fun record log => ?_
    cases record with
    | some record => dsimp only; split <;> trivial
    | none => exact (hrecover log).bind fun _ log => hbegin log

theorem prepares_store_program [Sha256] (fuel : Nat) (call : StoreCall) (log : DatabaseLog) :
    Prepares A (Database.store_program fuel call) log := by
  cases call with
  | load_session id =>
    refine Prepares.ignore (prepares_step trivial fun _ log => ?_)
    refine prepares_step trivial fun session log => ?_
    exact prepares_step trivial fun _ _ => trivial
  | switch_model id generation identity metadata capabilities =>
    exact (prepares_switch_model fuel id generation identity metadata capabilities log).ignore
  | acquire id input options request generation =>
    exact (prepares_acquire fuel id input options request generation log).ignore
  | _ => exact prepares_step trivial fun _ _ => trivial

theorem prepares_program [Sha256] (fuel : Nat) (operation : Operation) (log : DatabaseLog) :
    Prepares (fun _ _ _ _ => True) (Database.program fuel operation) log := by
  cases operation with
  | store call => exact prepares_store_program fuel call log
  | submit id input options request generation identity abandoned_turns =>
    refine Prepares.bind (prepares_outcome (prepares_acquire_request (fun log => ?_)
      (prepares_recover_abandoned _) (fun log => ?_) request log)) fun result log => ?_
    · exact prepares_transaction trivial
    · exact prepares_acquire fuel id input options (some request) generation log
    · unfold respond
      split
      · trivial
      · exact prepares_transaction trivial
      · exact prepares_transaction trivial

theorem database_certified [Sha256] :
    database_clients.Certified (fun _ _ => True)
      fun _ log call => Prepared (fun _ _ _ _ => True) log call where
  valid _ _ _ _ _ := trivial
  meets command := prepares_program command.2.1 command.2.2 []

end Programs

/-! ## Runs -/

section Runs

variable {db db' : Database} {sessions : Sessions} {chronicle : Chronicle}

theorem reading_eq {α : Type} {result : Except SessionError α} {a : α}
    (h : db.reading result = .ok (a, db')) : result = .ok a ∧ db' = db := by
  cases result with
  | error => cases h
  | ok => cases h; exact ⟨rfl, rfl⟩

/-- A program that has taken the snapshot of a switch has vetted it. -/
def Switching (sessions : Sessions) (log : DatabaseLog) : Prop :=
  ∀ id generation capabilities revision older,
    log = snapshot_event id generation capabilities revision :: older →
      ∃ s, sessions id = some s ∧ Vetted capabilities revision s

variable [Sha256] {call : DatabaseCall} {log : DatabaseLog}

/-- **Every transaction that commits has the effect of its deed.** -/
theorem transact_commits (h : Stores db sessions) (hlived : Lived sessions chronicle)
    (hswitching : Switching sessions log) {input : Database.ReservationInput}
    (hprepared : Prepared (fun _ _ _ _ => True) log call) {reply : call.Reply}
    (hcommit : db.transact input call = .ok (reply, db')) :
    Commits sessions chronicle (call.deed (.ok reply)) db' := by
  -- transactions that only read
  have hread : ∀ {α : Type} {result : Except SessionError α} {a : α},
      db.reading result = .ok (a, db') → Commits sessions chronicle .nothing db' := by
    intro α result a hreading
    obtain ⟨-, rfl⟩ := reading_eq hreading
    exact ⟨_, .nothing, h⟩
  cases call with
  | create_session =>
    exact create_session_commits chronicle h hcommit
  | recover_stale_turns id =>
    cases hcommit
    obtain ⟨y, hrecovered, hstored⟩ := h.recovered hlived id input.recovery_now
    exact ⟨y, .looked hrecovered, hstored⟩
  | load_session_row | load_turns | switch_snapshot | load_turn_acquisition => exact hread hcommit
  | switch_commit id generation next identity metadata capabilities revision =>
    obtain ⟨hnext, older, hlog⟩ := hprepared
    obtain ⟨s, hs, hvetted⟩ := hswitching id generation capabilities revision older hlog
    exact switch_commit_commits h hlived hs hvetted hnext hcommit
  | reserve_turn =>
    obtain ⟨turn_input, hmessage⟩ := hprepared
    exact reserve_turn_commits h hlived hmessage hcommit
  | load_request => exact load_request_commits h hlived hcommit
  | complete => exact complete_commits h hlived hcommit
  | renew owner => exact renew_commits h hlived hcommit
  | fail_turn => exact fail_turn_commits h hlived hcommit
  | interrupt owner => exact interrupt_commits h hlived hcommit
  | load_writes | answer =>
    cases hcommit
    exact ⟨_, .nothing, h⟩
  | write_intent =>
    exact write_intent_commits h hlived hcommit
  | finish_write => exact finish_write_commits chronicle h hcommit

variable {choice : Except (String × String) Database.ReservationInput}

variable {reply : Except SessionError call.Reply}

/-- A transaction commits, or it fails and leaves the database as it is; storage may fail at every
call. -/
theorem exec_cases (hexec : database_clients.exec db choice call = (db', reply)) :
    (∃ error, reply = .error error ∧ db' = db) ∨
      ∃ input value, reply = .ok value ∧ db.transact input call = .ok (value, db') := by
  cases choice with
  | error failure =>
    cases hexec
    exact .inl ⟨_, rfl, rfl⟩
  | ok input =>
    have hserve : db.serve input call = (db', reply) := hexec
    unfold Database.serve at hserve
    split at hserve
    · cases hserve
      exact .inl ⟨_, rfl, rfl⟩
    · next hcommit =>
      cases hserve
      exact .inr ⟨input, _, rfl, hcommit⟩

theorem exec_commits (h : Stores db sessions) (hlived : Lived sessions chronicle)
    (hswitching : Switching sessions log) (hprepared : Prepared (fun _ _ _ _ => True) log call)
    (hexec : database_clients.exec db choice call = (db', reply)) :
    Commits sessions chronicle (call.deed reply) db' := by
  obtain ⟨error, rfl, rfl⟩ | ⟨input, value, rfl, hcommit⟩ := exec_cases hexec
  · -- nothing comes of a call that fails
    cases call with
    | reserve_turn id message acquisition options request =>
      cases request <;> exact ⟨_, .nothing, h⟩
    | _ => exact ⟨_, .nothing, h⟩
  · exact transact_commits h hlived hswitching hprepared hcommit

/-- What the snapshot of a switch has established stays. -/
theorem Switching.leads (h : Switching sessions log) {y : Sessions × Chronicle}
    (hleads : Leads (sessions, chronicle) y) : Switching y.1 log := by
  intro id generation capabilities revision older hlog
  obtain ⟨s, hs, hvetted⟩ := h id generation capabilities revision older hlog
  exact hvetted.leads hleads hs

/-- If the last event of a log is a snapshot, the session was vetted by it just now. -/
theorem Switching.snapshot (h : Stores db sessions) (hlived : Lived sessions chronicle)
    (hexec : database_clients.exec db choice call = (db', reply)) :
    Switching sessions (⟨call, reply⟩ :: log) := by
  intro id generation capabilities revision older hlog
  obtain ⟨hevent, -⟩ := cons.inj hlog
  cases hevent
  obtain ⟨error, herror, -⟩ | ⟨input, value, hok, hcommit⟩ := exec_cases hexec
  · cases herror
  · cases hok
    exact h.switch_snapshot hlived (reading_eq hcommit).1

/-- The sessions of a database, how it has come to them, and what programs that switch
know about them. -/
def DatabaseInv (cfg : Config DatabaseCall DatabaseCall.Reply SessionError Database Nat)
    (x : Sessions × Chronicle) : Prop :=
  Chronicled Entry.before (fun e => e.call.deed e.reply) Stores cfg.trace x ∧
    Stores cfg.world x.1 ∧ ∀ a log, cfg.log a = some log → Switching x.1 log

/-- **Every step of a client of a database** has the effect of its deed. -/
theorem database_step {identity : StoreIdentity}
    {cfg cfg' : Config DatabaseCall DatabaseCall.Reply SessionError Database Nat}
    (hreach : database_clients.Reaches System.anyStep (Config.idle (Database.new identity)) cfg)
    {x : Sessions × Chronicle}
    {l : Label (Except (String × String) Database.ReservationInput) Empty Nat
      (Nat × Nat × Operation)} (h : DatabaseInv cfg x)
    (hstep : database_clients.step cfg l = some cfg') : ∃ x', DatabaseInv cfg' x' ∧ Leads x x' := by
  obtain ⟨sessions, chronicle⟩ := x
  obtain ⟨hchronicled, hstores, hswitching⟩ := h
  cases hreach.view database_certified (fun _ => rfl) hstep with
  | start d world trace _ own others =>
    refine ⟨(sessions, chronicle), ⟨?_, ?_, fun a log hlog => ?_⟩, Relation.ReflTransGen.refl⟩
    · rw [trace]
      exact hchronicled
    · rw [world]
      exact hstores
    · by_cases ha : a = database_clients.actor d
      · subst ha
        rw [own log hlog]
        intro id generation capabilities revision older hnil
        cases hnil
      · exact hswitching a log (others a ha ▸ hlog)
  | call a choice call reply log _ hlog hprepared _ hexec trace own others =>
    have hlived := hchronicled.lived
    obtain ⟨y, heffects, hstores'⟩ := exec_commits hstores hlived (hswitching a log hlog)
      hprepared hexec
    refine ⟨y, ⟨?_, hstores', fun b log' hlog' => ?_⟩, heffects.leads⟩
    · rw [trace]
      exact .cons _ hchronicled hstores heffects
    · by_cases hb : b = a
      · subst hb
        rw [own log' hlog']
        exact (Switching.snapshot hstores hlived hexec).leads heffects.leads
      · rw [others b hb] at hlog'
        exact (hswitching b log' hlog').leads heffects.leads
  | env m => exact nomatch m
  | crash world trace logs =>
    refine ⟨(sessions, chronicle), ⟨?_, ?_, fun a log hlog => ?_⟩, Relation.ReflTransGen.refl⟩
    · rw [trace]
      exact hchronicled
    · rw [world]
      exact hstores
    · rw [logs a] at hlog
      cases hlog

end Runs

end Agentty.Harness
