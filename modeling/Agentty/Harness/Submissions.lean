/-
Host submissions: what clients get when they submit requests under host identifiers.

A submission looks its request up before it begins a turn, and the store looks again
when the turn is begun. Whatever other clients do in between, one identifier belongs to
one turn, and a submission that finds its identifier taken is answered from the record.
-/
import Agentty.Harness.StoreSafety

set_option autoImplicit false

namespace Agentty.Harness

open List

open Prog (Log Meets Obeys Ends)

/-! ## Records of host identifiers -/

/-- A store has recorded another request under the same identifier. -/
def Conflicts (sessions : Sessions) (id : String) (request : HostRequest) : Prop :=
  ∃ s turn r, sessions id = some s ∧ turn ∈ s.turns ∧ turn.request = some r ∧
    r.id = request.id ∧ r ≠ request

/-- The storage could not carry out a transaction. -/
def StorageFailed (result : Except SessionError HostTurnAcquisition) : Prop :=
  ∃ operation reason, result = .error (.QueryContext operation reason)

/-- A submission is answered from what is recorded of its identifier: another request is
a conflict, and the same one, if it is completed, has its outcome. -/
def FromRecord (sessions : Sessions) (id : String) (request : HostRequest)
    (result : Except SessionError HostTurnAcquisition) : Prop :=
  ∀ s turn r, sessions id = some s → turn ∈ s.turns → turn.request = some r → r.id = request.id →
    StorageFailed result ∨
      ((r ≠ request → result = .error .HostTurnConflict) ∧
        (r = request → turn.status = .Completed → ∃ record outcome,
          result = .ok (.Recorded record) ∧ record.request = request ∧
            turn.outcome = some outcome ∧ record.status = .Completed outcome))

/-- What a record says to the submitter of a request. -/
def classify (request : HostRequest) (record : HostTurnRecord) :
    Except SessionError HostTurnAcquisition :=
  (record.check_request request).map fun _ => .Recorded record

section Records

variable [Sha256] {x y : Sessions × Chronicle} {sessions : Sessions} {id : String} {s : Session}
  {turn : Turn} {r : HostRequest}

variable {request : HostRequest} {record : HostTurnRecord}

theorem Session.Sound.host_record_eq (h : s.Sound) {p : Nat} (hp : s.turns[p]? = some turn)
    (hr : turn.request = some r) :
    ∃ record, s.host_record r.id = some record ∧ record.request = r ∧
      (turn.status = .Completed → ∃ outcome, turn.outcome = some outcome ∧
        record.status = .Completed outcome) := by
  have hmem : turn ∈ s.turns := mem_of_getElem? hp
  -- the search finds this turn, because no other has the identifier
  have hfind : s.turns.zipIdx.find? (fun turn => turn.1.request.any fun request =>
    decide (request.id = r.id)) = some (turn, p) := by
    cases hfind : s.turns.zipIdx.find? (fun turn => turn.1.request.any fun request =>
      decide (request.id = r.id)) with
    | none =>
      have hnone := find?_eq_none.mp hfind (turn, p) (mem_zipIdx_iff_getElem?.mpr hp)
      simp [hr] at hnone
    | some found =>
      obtain ⟨turn', q⟩ := found
      have hq : s.turns[q]? = some turn' :=
        mem_zipIdx_iff_getElem?.mp (mem_of_find?_eq_some hfind)
      have htest := find?_some hfind
      cases hr' : turn'.request with
      | none => simp [hr'] at htest
      | some r' =>
        have hid : r'.id = r.id := by simpa [hr'] using htest
        obtain rfl := h.host_unique hp hq hr hr' hid.symm
        rw [hp] at hq
        cases hq
        rfl
  obtain ⟨status, hstatus, hcompleted⟩ : ∃ status, turn.host_status = some status ∧
      (turn.status = .Completed → ∃ outcome, turn.outcome = some outcome ∧
        status = .Completed outcome) := by
    unfold Turn.host_status
    cases hturn : turn.status with
    | Completed =>
      have hsome := (h.turn turn hmem).outcome hturn (by rw [hr]; rfl)
      obtain ⟨outcome, houtcome⟩ := Option.isSome_iff_exists.mp hsome
      exact ⟨.Completed outcome, by simp [houtcome], fun _ => ⟨outcome, houtcome, rfl⟩⟩
    | Running | Failed | Interrupted => exact ⟨_, rfl, fun hs => nomatch hs⟩
  unfold Session.host_record
  rw [hfind]
  simp only [Session.record_at, hr, hstatus, Option.map_some]
  exact ⟨_, rfl, rfl, hcompleted⟩

theorem Leads.host_record (hleads : Leads x y) (hlived : Lived x.1 x.2) (hs : x.1 id = some s)
    (hturn : turn ∈ s.turns) (hr : turn.request = some r) :
    ∃ s' record, y.1 id = some s' ∧ s'.host_record r.id = some record ∧ record.request = r ∧
      (turn.status = .Completed → ∃ outcome, turn.outcome = some outcome ∧
        record.status = .Completed outcome) := by
  obtain ⟨p, hp⟩ := mem_iff_getElem?.mp hturn
  obtain ⟨s', hs', hkept⟩ := Leads.keeps (P := fun s s' => s.turns[p]? = some turn →
      ∃ turn', s'.turns[p]? = some turn' ∧ turn'.request = some r ∧
        (turn.status = .Completed → turn' = turn)) hleads hs
    (fun _ h => ⟨turn, h, hr, fun _ => rfl⟩) (by
      intro s₁ s₂ e hP allowed h₁
      obtain ⟨turn₂, hturn₂, hr₂, hsame⟩ := hP h₁
      obtain ⟨turn₃, hturn₃, hr₃, -, -, -⟩ := s₂.exists_getElem?_after e hturn₂
      refine ⟨turn₃, hturn₃, hr₃.trans hr₂, fun hcompleted => ?_⟩
      -- a completed turn has ended, so it stays as it is
      obtain rfl := hsame hcompleted
      have hended := s₂.getElem?_after allowed hturn₂ (by simp [hcompleted])
      rw [hturn₃] at hended
      exact Option.some.inj hended)
  obtain ⟨turn', hturn', hr', hsame⟩ := hkept hp
  have hsound := (Lived.leads hlived hleads).sound hs'
  obtain ⟨record, hrecord, hrequest, hcompleted⟩ := hsound.host_record_eq hturn' hr'
  refine ⟨s', record, hs', hrecord, hrequest, fun hdone => ?_⟩
  obtain rfl := hsame hdone
  exact hcompleted hdone

/-- **An answer from the record settles a submission.** -/
theorem from_record (hlived : Lived x.1 x.2) (hleads : Leads x y)
    {result : Except SessionError HostTurnAcquisition}
    (hresult : ∀ s' record, y.1 id = some s' → s'.host_record request.id = some record →
      StorageFailed result ∨ result = classify request record) :
    FromRecord x.1 id request result := by
  intro s turn r hs hturn hr hid
  obtain ⟨s', record, hs', hrecord, hrequest, hcompleted⟩ :=
    Leads.host_record hleads hlived hs hturn hr
  rw [hid] at hrecord
  refine (hresult s' record hs' hrecord).imp_right fun hclassify =>
    ⟨fun hne => ?_, fun heq hdone => ?_⟩
  · rw [hclassify]
    simp [classify, HostTurnRecord.check_request, hrequest, hne, Except.map]
  · obtain ⟨outcome, houtcome, hstatus⟩ := hcompleted hdone
    have hsame : record.request = request := hrequest.trans heq
    exact ⟨record, outcome,
      by simp [hclassify, classify, HostTurnRecord.check_request, hsame, Except.map],
      hsame, houtcome, hstatus⟩

end Records

/-! ## Seen from outside -/

section Seen

variable {f : ModelMessage → ModelMessage}

theorem Session.seen_interrupted [Sha256] (s : Session) (error_type : String) :
    (s.after (.interrupted error_type)).seen f = (s.seen f).after (.interrupted error_type) := by
  have hturns := map_update_last (·.ended .Interrupted (some error_type)) (Turn.seen f)
    (·.ended .Interrupted (some error_type)) s.turns fun _ _ => rfl
  simp only [Session.after, Session.seen, hturns]

variable {sessions : Sessions} {id : String} {W : Type} {view : W → Sessions} {w w' : W}

theorem Shows.eq (h : Shows view f w sessions) (h' : Shows view f w' sessions) :
    view w' = view w := by
  funext id
  rw [h, h']

theorem Shows.interrupted [Sha256] {s : Session} {error_type : String} (h : Shows view f w sessions)
    (h' : Shows view f w'
      (Function.update sessions id (some (s.after (.interrupted error_type))))) :
    view w' = Function.update (view w) id (some ((s.seen f).after (.interrupted error_type))) := by
  funext id'
  by_cases hid : id' = id
  · subst hid
    rw [h', Function.update_self, Function.update_self, Option.map_some, Session.seen_interrupted]
  · rw [h', Function.update_of_ne hid, Function.update_of_ne hid, h]

theorem Lapses.seen [Sha256] {sessions' : Sessions} {now : Int}
    (h : Lapses sessions sessions' id now)
    (hshows : Shows view f w sessions) (hshows' : Shows view f w' sessions') :
    Lapses (view w) (view w') id now := by
  rcases h with rfl | ⟨s, hs, ⟨turn, lease, hlast, hrunning, hlease, hle⟩, rfl⟩
  · exact .inl (hshows.eq hshows')
  · refine .inr ⟨s.seen f, hshows.view_eq hs, ⟨turn.seen f, lease, ?_, hrunning, hlease, hle⟩,
      hshows.interrupted hshows'⟩
    rw [Session.seen_turns, getLast?_map, hlast, Option.map_some]

/-- Nothing has changed, but that the running turn of an owner may have been given up. -/
def GivesUp [Sha256] (sessions sessions' : Sessions) (owner : TurnOwner) : Prop :=
  sessions' = sessions ∨ ∃ s, sessions owner.session_id = some s ∧ s.OwnedBy owner ∧
    sessions' = Function.update sessions owner.session_id
      (some (s.after (.interrupted owner.interruption_error_type)))

theorem Effects.gives_up [Sha256] {x y : Sessions × Chronicle} {owner : TurnOwner} {deed : Deed}
    (h : Effects x deed y) (hdeed : deed = .nothing ∨ deed = .interrupted owner)
    (hshows : Shows view f w x.1) (hshows' : Shows view f w' y.1) :
    GivesUp (view w) (view w') owner := by
  rcases hdeed with rfl | rfl
  · cases h
    exact .inl (hshows.eq hshows')
  · cases h with
    | spared => exact .inl (hshows.eq hshows')
    | interrupted present owned happens =>
      cases happens with
      | intro present' _ =>
        cases present.symm.trans present'
        exact .inr ⟨_, hshows.view_eq present, Session.seen_owned.mpr owned,
          hshows.interrupted hshows'⟩

variable {request : HostRequest}

theorem FromRecord.seen {result : Except SessionError HostTurnAcquisition}
    (hshows : Shows view f w sessions)
    (h : FromRecord sessions id request result) : FromRecord (view w) id request result := by
  intro s turn r hs hturn hr hid
  obtain ⟨s₀, hs₀, rfl⟩ := hshows.session hs
  obtain ⟨turn₀, hturn₀, rfl⟩ := mem_map.mp hturn
  exact h s₀ turn₀ r hs₀ hturn₀ hr hid

theorem Conflicts.of_seen (hshows : Shows view f w sessions) (h : Conflicts (view w) id request) :
    Conflicts sessions id request := by
  obtain ⟨s, turn, r, hs, hturn, hr, hid, hne⟩ := h
  obtain ⟨s₀, hs₀, rfl⟩ := hshows.session hs
  obtain ⟨turn₀, hturn₀, rfl⟩ := mem_map.mp hturn
  exact ⟨s₀, turn₀, r, hs₀, hturn₀, hr, hid, hne⟩

end Seen

/-! ## What a run guarantees -/

section Runs

variable {C : Type} {R : C → Type} {W X D : Type}

/-- In one session an identifier belongs to one turn; a submission is answered from what
was recorded of its identifier at any of its lookups; and a call of a submission that is
made while the identifier is recorded with another request changes nothing, but that a turn
whose lease has run out may be given up. A submission also makes the calls that recover
abandoned turns, each of which at most gives up the running turn of its owner. -/
structure SubmittedOnce [Sha256] (S : System C R SessionError W X Empty Nat D)
    (answer : C → Option (String × HostRequest × Except SessionError HostTurnAcquisition))
    (submits : String → HostRequest → C → Prop) (abandons : C → Option TurnOwner)
    (lookup : C → Bool) (time : X → Int) (view : W → Sessions)
    (cfg : Config C R SessionError W Nat) : Prop where
  one_turn : ∀ (id : String) (s : Session) (p q : Nat) (turn turn' : Turn) (r r' : HostRequest),
    view cfg.world id = some s → s.turns[p]? = some turn → s.turns[q]? = some turn' →
    turn.request = some r → turn'.request = some r' → r.id = r'.id → p = q
  answers : ∀ newer e older, cfg.trace = newer ++ e :: older → ∀ id request result,
    answer e.call = some (id, request, result) →
    ∃ mine rest, older.filter (fun e' => e'.actor = e.actor) = mine ++ rest ∧
      (∃ first ∈ mine, lookup first.call = true) ∧
      ∀ e' ∈ mine,
        (submits id request e'.call ∨
          ∃ owner, abandons e'.call = some owner ∧ owner.session_id = id) ∧
        (lookup e'.call = true → FromRecord (view e'.before) id request result)
  changes : ∀ a choice c cfg', S.step cfg (.call a choice) = some cfg' → cfg.next a = some c →
    ∀ id request, submits id request c → Conflicts (view cfg.world) id request →
    Lapses (view cfg.world) (view cfg'.world) id (time choice)
  abandoned : ∀ a choice c cfg', S.step cfg (.call a choice) = some cfg' → cfg.next a = some c →
    ∀ owner, abandons c = some owner → GivesUp (view cfg.world) (view cfg'.world) owner

variable {S : System C R SessionError W X Empty Nat D} {start : W}
  {deed : (c : C) → Except SessionError (R c) → Deed} {view : W → Sessions}
  {f : ModelMessage → ModelMessage}
  {Inv : Config C R SessionError W Nat → Sessions × Chronicle → Prop}
  {cfg : Config C R SessionError W Nat}

theorem Keeps.one_turn [Sha256] (h : Keeps S start deed view f Inv)
    (hreach : S.Reaches System.anyStep (Config.idle start) cfg) {id : String} {s : Session}
    {p q : Nat} {turn turn' : Turn} {r r' : HostRequest} (hs : view cfg.world id = some s)
    (hp : s.turns[p]? = some turn) (hq : s.turns[q]? = some turn') (hr : turn.request = some r)
    (hr' : turn'.request = some r') (hid : r.id = r'.id) : p = q := by
  obtain ⟨x, hx⟩ := h.reaches hreach
  obtain ⟨s₀, hs₀, rfl⟩ := (h.shows _ _ hx).session hs
  rw [Session.seen_turns, getElem?_map] at hp hq
  obtain ⟨turn₀, hp₀, rfl⟩ := Option.map_eq_some_iff.mp hp
  obtain ⟨turn₁, hq₀, rfl⟩ := Option.map_eq_some_iff.mp hq
  exact ((h.chronicled _ _ hx).lived.sound hs₀).host_unique hp₀ hq₀ hr hr' hid

/-- What the log of a submission shows when it answers: it began with a lookup, all of
its calls belong to the submission, and the lookups allow the answer. -/
def Submitted {E : Type} (decides : String → HostRequest →
    Except SessionError HostTurnAcquisition → E → Prop) (first : E → Bool) (log : List E)
    (id : String) (request : HostRequest) (result : Except SessionError HostTurnAcquisition) :
    Prop :=
  (∃ event ∈ log, first event = true) ∧ ∀ event ∈ log, decides id request result event

section Submitted

variable {E : Type} {decides : String → HostRequest →
  Except SessionError HostTurnAcquisition → E → Prop} {first : E → Bool} {log : List E}
  {id : String} {request : HostRequest}

theorem submitted_cons {result : Except SessionError HostTurnAcquisition} {event : E}
    (hfirst : first event = true) (hlog : ∀ event ∈ log, decides id request result event)
    (hevent : decides id request result event) :
    Submitted decides first (event :: log) id request result :=
  ⟨⟨event, mem_cons_self, hfirst⟩, forall_mem_cons.mpr ⟨hevent, hlog⟩⟩

theorem Submitted.step {result : Except SessionError HostTurnAcquisition} {event : E}
    (h : Submitted decides first log id request result) (hevent : decides id request result event) :
    Submitted decides first (event :: log) id request result :=
  ⟨h.1.imp fun _ hfirst => ⟨mem_cons_of_mem _ hfirst.1, hfirst.2⟩,
    forall_mem_cons.mpr ⟨hevent, h.2⟩⟩

/-- Nothing has been decided when a submission starts, or when it goes on. -/
theorem all_decided
    (h : log = [] ∨ ∀ result, Submitted decides first log id request result) :
    ∀ result, ∀ event ∈ log, decides id request result event := by
  intro result event hevent
  rcases h with rfl | h
  · cases hevent
  · exact (h result).2 event hevent

end Submitted

variable {answer : C → Option (String × HostRequest × Except SessionError HostTurnAcquisition)}

variable {J : Nat → Log C R SessionError → C → Prop} {V : (c : C) → R c → Prop} {lookup : C → Bool}

/-- **Answers are those the logs allow.** -/
theorem answers_of_logs (hcertified : S.Certified V J)
    {decides : String → HostRequest → Except SessionError HostTurnAcquisition →
      Prog.Event C R SessionError → Prop}
    (hJ : ∀ a log c id request result, J a log c → answer c = some (id, request, result) →
      Submitted decides (fun event => lookup event.1) log id request result)
    (hreach : S.Reaches System.anyStep (Config.idle start) cfg)
    {newer older : List (Entry C R SessionError W Nat)} {e : Entry C R SessionError W Nat}
    (htrace : cfg.trace = newer ++ e :: older) {id : String} {request : HostRequest}
    {result : Except SessionError HostTurnAcquisition}
    (hanswer : answer e.call = some (id, request, result)) :
    ∃ mine rest, older.filter (fun e' => e'.actor = e.actor) = mine ++ rest ∧
      (∃ first ∈ mine, lookup first.call = true) ∧
      ∀ e' ∈ mine, decides id request result e'.event := by
  suffices hevery : Every (fun e older => ∀ id request result,
      answer e.call = some (id, request, result) →
      ∃ mine rest, older.filter (fun e' => e'.actor = e.actor) = mine ++ rest ∧
        (∃ first ∈ mine, lookup first.call = true) ∧
        ∀ e' ∈ mine, decides id request result e'.event) cfg.trace from
    hevery.at htrace id request result hanswer
  refine hreach.invariant (fun cfg => Every _ cfg.trace) trivial ?_
  intro cfg l cfg' hreach ih _ hstep
  cases hreach.view hcertified (fun _ => rfl) hstep with
  | start _ _ trace | crash _ trace => rwa [trace]
  | env m => exact nomatch m
  | call a choice c r log next hlog justified admitted exec trace =>
    rw [trace]
    refine ⟨fun id request result hanswer => ?_, ih⟩
    obtain ⟨hfirst, hall⟩ := hJ a log c id request result justified hanswer
    obtain ⟨mine, rest, hmine, hevents⟩ := hreach.log_entries (fun _ => rfl) hlog
    refine ⟨mine, rest, hmine, ?_, fun e' he' => ?_⟩
    · obtain ⟨event, hevent, hlookup⟩ := hfirst
      rw [← hevents] at hevent
      obtain ⟨first, hmem, rfl⟩ := mem_map.mp hevent
      exact ⟨first, hmem, hlookup⟩
    · exact hall _ (hevents ▸ mem_map.mpr ⟨e', he', rfl⟩)

/-- **What a store has to show** for its clients' submissions to be made once. -/
theorem Keeps.submitted_once [Sha256] (h : Keeps S start deed view f Inv) {H : W → Sessions → Prop}
    (hinv : ∀ cfg x, Inv cfg x →
      Chronicled Entry.before (fun e => deed e.call e.reply) H cfg.trace x ∧ H cfg.world x.1)
    (hcertified : S.Certified V J)
    {d : String → HostRequest → Except SessionError HostTurnAcquisition →
      Prog.Event C R SessionError → Prop}
    {submits : String → HostRequest → C → Prop} {abandons : C → Option TurnOwner}
    {time : X → Int}
    (hJ : ∀ a log c id request result, J a log c → answer c = some (id, request, result) →
      Submitted d (fun event => lookup event.1) log id request result)
    (hsubmits : ∀ {id request result event}, d id request result event →
      submits id request event.1 ∨ ∃ owner, abandons event.1 = some owner ∧ owner.session_id = id)
    (habandons : ∀ c r owner, abandons c = some owner →
      deed c r = .nothing ∨ deed c r = .interrupted owner)
    (hrecord : ∀ w sessions chronicle choice w' c r id request result, H w sessions →
      Lived sessions chronicle → S.exec w choice c = (w', r) → d id request result ⟨c, r⟩ →
      lookup c = true → FromRecord (view w) id request result)
    (hchanges : ∀ w sessions chronicle choice w' c r id request, H w sessions →
      Lived sessions chronicle → S.exec w choice c = (w', r) → submits id request c →
      Conflicts (view w) id request → Lapses (view w) (view w') id (time choice))
    (hreach : S.Reaches System.anyStep (Config.idle start) cfg) :
    SubmittedOnce S answer submits abandons lookup time view cfg where
  one_turn _ _ _ _ _ _ _ _ hs hp hq hr hr' hid := h.one_turn hreach hs hp hq hr hr' hid
  answers newer e older htrace id request result hanswer := by
    obtain ⟨mine, rest, hfilter, hfirst, hall⟩ :=
      answers_of_logs hcertified hJ hreach htrace hanswer
    refine ⟨mine, rest, hfilter, hfirst, fun e' he' => ⟨hsubmits (hall e' he'), fun hlookup => ?_⟩⟩
    -- the lookup was executed in a state that the store holds
    have hmem : e' ∈ older := (mem_filter.mp
      (hfilter ▸ mem_append_left rest he' : e' ∈ older.filter _)).1
    have hmem' : e' ∈ cfg.trace := by simp [htrace, hmem]
    obtain ⟨choice, w', hexec⟩ := hreach.executed rfl e' hmem'
    obtain ⟨newer', older', htrace'⟩ := append_of_mem hmem'
    obtain ⟨x, hx⟩ := h.reaches hreach
    have hchronicled := (hinv _ _ hx).1
    rw [htrace'] at hchronicled
    obtain ⟨y, z, hearlier, hheld, -, -⟩ := hchronicled.at
    exact hrecord _ _ _ _ _ _ _ _ _ _ hheld hearlier.lived hexec (hall e' he') hlookup
  changes a choice c cfg' hstep hnext id request hcall hconflicts := by
    obtain ⟨x, hx⟩ := h.reaches hreach
    obtain ⟨c', r, -, -, hnext', -, hexec, -⟩ := h.call hreach hstep
    rw [hnext] at hnext'
    cases hnext'
    exact hchanges _ _ _ _ _ _ _ _ _ (hinv _ _ hx).2 (hinv _ _ hx).1.lived hexec hcall hconflicts
  abandoned a choice c cfg' hstep hnext owner howner := by
    obtain ⟨c', r, x, y, hnext', -, -, -, hshows, heffects, hshows'⟩ := h.call hreach hstep
    rw [hnext] at hnext'
    cases hnext'
    exact heffects.gives_up (habandons c r owner howner) hshows hshows'

end Runs

/-! ## The program of a submission -/

section Program

variable {C : Type} {R : C → Type} {V : (c : C) → R c → Prop}
  {J : Log C R SessionError → C → Prop}

/-- A submission that ends like this may answer `answer`. -/
def Allowed (A : Log C R SessionError → Except SessionError HostTurnAcquisition → Prop)
    (log : Log C R SessionError) (result : Except SessionError (Option HostTurnAcquisition)) :
    Prop :=
  ∀ answer : Except SessionError HostTurnAcquisition, result = answer.map some → A log answer

/-- What a lookup leads to. -/
def LookedUp (A : Log C R SessionError → Except SessionError HostTurnAcquisition → Prop)
    (request : HostRequest) (log : Log C R SessionError) :
    Except SessionError (Option HostTurnRecord) → Prop
  | .ok none => ∀ answer, A log answer
  | .ok (some record) => A log (classify request record)
  | .error error => A log (.error error)

variable {A : Log C R SessionError → Except SessionError HostTurnAcquisition → Prop}

variable {log : Log C R SessionError}

theorem allowed_error {error : SessionError} (h : A log (.error error)) :
    Allowed A log (.error error) := by
  intro answer hanswer
  cases answer with
  | ok => cases hanswer
  | error error => cases hanswer; exact h

theorem allowed_ok {acquisition : HostTurnAcquisition} (h : A log (.ok acquisition)) :
    Allowed A log (.ok (some acquisition)) := by
  intro answer hanswer
  cases answer with
  | ok => cases hanswer; exact h
  | error error => cases hanswer

theorem checked_ends {request : HostRequest} {record : HostTurnRecord}
    (h : A log (classify request record)) :
    Ends V J (Allowed A) (match record.check_request request with
      | .error error => Prog.fail error
      | .ok _ => Prog.ret (some (HostTurnAcquisition.Recorded record))) log := by
  unfold classify at h
  split
  · next error hcheck =>
    rw [hcheck] at h
    exact allowed_error h
  · next hcheck =>
    rw [hcheck] at h
    exact allowed_ok h

/-- Recovering abandoned turns decides nothing. -/
theorem recover_abandoned_ends {interrupt : TurnOwner → Prog C R SessionError Unit}
    {owners : List TurnOwner}
    (hinterrupt : ∀ owner ∈ owners, ∀ log', (∀ answer, A log' answer) →
      Ends V J (fun log _ => ∀ answer, A log answer) (interrupt owner) log')
    (hopen : ∀ answer, A log answer) :
    Ends V J (fun log _ => ∀ answer, A log answer) (recover_abandoned interrupt owners) log := by
  induction owners generalizing log with
  | nil => exact hopen
  | cons owner owners ih =>
    exact Ends.bind (hinterrupt owner mem_cons_self log hopen)
      (fun log _ hopen => ih (fun o ho => hinterrupt o (mem_cons_of_mem _ ho)) hopen)
      fun log error hopen => hopen

/-- `acquire_request`: when a lookup finds a record the record is the answer, when it
fails its error is; otherwise the request is begun. -/
theorem acquire_request_ends {load_request : Prog C R SessionError (Option HostTurnRecord)}
    {recover : Prog C R SessionError Unit}
    {begin_request : Prog C R SessionError (Option HostTurnAcquisition)} {request : HostRequest}
    (hload : ∀ log', log' = log ∨ (∀ answer, A log' answer) →
      Ends V J (LookedUp A request) load_request log')
    (hrecover : ∀ log', (∀ answer, A log' answer) →
      Ends V J (fun log _ => ∀ answer, A log answer) recover log')
    (hbegin : ∀ log', (∀ answer, A log' answer) → Ends V J (Allowed A) begin_request log') :
    Ends V J (Allowed A) (acquire_request load_request recover begin_request request) log := by
  refine Ends.bind (hload log (.inl rfl)) (fun log record hrecord => ?_)
    fun log error herror => allowed_error herror
  cases record with
  | some record => exact checked_ends hrecord
  | none =>
    refine Ends.bind (hload log (.inr hrecord)) (fun log record hrecord => ?_)
      fun log error herror => allowed_error herror
    cases record with
    | some record => exact checked_ends hrecord
    | none =>
      exact Ends.bind (hrecover log hrecord) (fun log _ hopen => hbegin log hopen)
        fun log error hopen => allowed_error (hopen _)

theorem submission_obeys {prog : Prog C R SessionError (Option HostTurnAcquisition)}
    (hprog : Ends V J (Allowed A) prog log)
    {answer : Except SessionError HostTurnAcquisition → Prog C R SessionError Unit}
    (hanswer : ∀ log result, A log result → Obeys V J (fun _ _ => True) (answer result) log) :
    Obeys V J (fun _ _ => True) (prog.outcome.bind (respond answer)) log := by
  refine Meets.bind hprog fun log result hresult => ?_
  unfold respond
  split
  · trivial
  · next acquisition => exact hanswer log _ (hresult (.ok acquisition) rfl)
  · next error => exact hanswer log _ (hresult (.error error) rfl)

end Program

/-! ## Memory -/

section Memory

abbrev MemoryLog : Type := Log MemoryCall MemoryCall.Reply SessionError

def MemoryCall.answered :
    MemoryCall → Option (String × HostRequest × Except SessionError HostTurnAcquisition)
  | .answer id request result => some (id, request, result)
  | _ => none

def MemoryCall.Submits (id : String) (request : HostRequest) : MemoryCall → Prop
  | .store (.load_request session_id host_id) => session_id = id ∧ host_id = request.id
  | .store (.acquire session_id _ _ submitted _) => session_id = id ∧ submitted = some request
  | .answer session_id submitted _ => session_id = id ∧ submitted = request
  | _ => False

def MemoryCall.abandons : MemoryCall → Option TurnOwner
  | .store (.interrupt owner) => some owner
  | _ => none

def MemoryCall.lookup : MemoryCall → Bool
  | .store (.load_request _ _) => true
  | .store (.acquire _ _ _ _ _) => true
  | _ => false

/-- One call of a submission, and the answers it allows. -/
inductive MemoryCall.Decides (id : String) (request : HostRequest)
    (result : Except SessionError HostTurnAcquisition) :
    Prog.Event MemoryCall MemoryCall.Reply SessionError → Prop where
  | absent : Decides id request result
      ⟨.store (.load_request id request.id), .ok (none : Option HostTurnRecord)⟩
  | found (record : HostTurnRecord) (answer : result = classify request record) :
      Decides id request result
        ⟨.store (.load_request id request.id), .ok (some record : Option HostTurnRecord)⟩
  | failed (error : SessionError) (answer : result = .error error) :
      Decides id request result ⟨.store (.load_request id request.id), .error error⟩
  | recovered (owner : TurnOwner) (session : owner.session_id = id)
      (reply : Except SessionError Unit) :
      Decides id request result ⟨.store (.interrupt owner), reply⟩
  | begun (input : TurnInput) (options : TurnOptions) (generation : Int) :
      Decides id request result
        ⟨.store (.acquire id input options (some request) generation), result⟩

abbrev MemoryCall.Answers (log : MemoryLog) (id : String) (request : HostRequest)
    (result : Except SessionError HostTurnAcquisition) : Prop :=
  Submitted MemoryCall.Decides (fun event => event.1.lookup) log id request result

/-- A client answers what its log allows. -/
def MemoryCall.Justified (log : MemoryLog) : MemoryCall → Prop
  | .answer id request result => MemoryCall.Answers log id request result
  | _ => True

theorem store_call_ends {call : StoreCall}
    {Q : MemoryLog → Except SessionError call.Reply → Prop} {log : MemoryLog}
    (h : ∀ reply : Except SessionError call.Reply, Q (⟨.store call, reply⟩ :: log) reply) :
    Ends (fun _ _ => True) (fun log call => MemoryCall.Justified log call) Q
      (store_call call) log :=
  Prog.ends_perform (c := MemoryCall.store call) trivial h

theorem memory_certified [Sha256] :
    memory_clients.Certified (fun _ _ => True) fun _ log call => call.Justified log where
  valid _ _ _ _ _ := trivial
  meets command := by
    obtain ⟨a, operation⟩ := command
    cases operation with
    | store call => exact ⟨trivial, fun _ _ => trivial, fun _ => trivial⟩
    | submit id input options request generation identity abandoned_turns =>
      refine submission_obeys (A := fun log answer => MemoryCall.Answers log id request answer)
        (acquire_request_ends (fun log hopen => ?_) (fun log hopen => recover_abandoned_ends
          (fun owner howner log hopen => ?_) hopen) fun log hopen => ?_)
        fun log result hresult => ⟨hresult, fun _ _ => trivial, fun _ => trivial⟩
      · have hlog := all_decided hopen
        refine store_call_ends fun reply => ?_
        cases reply with
        | error error => exact submitted_cons rfl (hlog _) (.failed error rfl)
        | ok record =>
          cases record with
          | none => exact fun answer => submitted_cons rfl (hlog _) .absent
          | some record => exact submitted_cons rfl (hlog _) (.found record rfl)
      · exact @store_call_ends (.interrupt owner) _ _ fun reply answer =>
          (hopen answer).step (.recovered owner (mem_for_session howner) reply)
      · have hlog := fun answer => (hopen answer).2
        have hbegun : Ends (fun _ _ => True) (fun log call => MemoryCall.Justified log call)
            (fun log (reply : Except SessionError HostTurnAcquisition) =>
              MemoryCall.Answers log id request reply)
            (store_call (.acquire id input options (some request) generation)) log :=
          store_call_ends fun reply =>
            submitted_cons rfl (hlog reply) (.begun input options generation)
        exact Ends.bind hbegun (fun log acquisition h => allowed_ok h)
          fun log error h => allowed_error h

variable {store : MemoryStore} {sessions : Sessions} {id : String}

theorem MemoryHolds.load_request (h : MemoryHolds store sessions) {record : Record}
    (hrecord : store.sessions id = some record) (now : Int) (host_id : String) :
    store.load_request now id host_id = (store.put id (record.recover now),
      .ok ((record.recover now).session.host_record host_id)) := by
  unfold MemoryStore.load_request
  rw [hrecord, ← ((h.kept id record hrecord).recover now).request host_id]

variable {now : Int} {request : HostRequest}

theorem MemoryHolds.acquire_recorded [Sha256] (h : MemoryHolds store sessions) {record : Record}
    (hrecord : store.sessions id = some record) {found : HostTurnRecord}
    (hfound : (record.recover now).session.host_record request.id = some found)
    (input : TurnInput) (options : TurnOptions) (generation : Int) :
    store.acquire now id input options (some request) generation =
      (store.put id (record.recover now), classify request found) := by
  rw [← ((h.kept id record hrecord).recover now).request request.id] at hfound
  unfold MemoryStore.acquire classify
  simp only [hrecord, Option.bind_some, hfound, Option.map_some]
  split
  · next error hcheck =>
    rw [hcheck]
    rfl
  · next hcheck =>
    rw [hcheck]
    rfl

section

variable [Sha256] {store' : MemoryStore} {chronicle : Chronicle} {call : MemoryCall}
  {reply : Except SessionError call.Reply} (h : MemoryHolds store sessions)
  (hlived : Lived sessions chronicle) (hexec : memory_clients.exec store now call = (store', reply))

include h hlived hexec

theorem memory_from_record {result : Except SessionError HostTurnAcquisition}
    (hdecides : MemoryCall.Decides id request result ⟨call, reply⟩) (hlookup : call.lookup = true) :
    FromRecord store.view id request result := by
  rw [← h.view]
  cases hrecord : store.sessions id with
  | none =>
    intro s turn r hs
    rw [h.sessions_none hrecord] at hs
    cases hs
  | some record =>
    obtain ⟨⟨sessions', chronicle'⟩, hrecovered, -, hs'⟩ := h.recovered hrecord now chronicle
    have hload := h.load_request hrecord now request.id
    refine from_record hlived hrecovered.leads fun s found hs hfound => ?_
    rw [hs'] at hs
    cases hs
    have hloaded : ∀ {reply : Except SessionError (Option HostTurnRecord)},
        memory_clients.exec store now (.store (.load_request id request.id)) = (store', reply) →
          .ok (some found) = reply := by
      intro reply hexec
      rw [← hfound]
      exact (congrArg Prod.snd hload).symm.trans (congrArg Prod.snd hexec)
    cases hdecides with
    | absent | failed => cases hloaded hexec
    | found found' answer =>
      cases hloaded hexec
      exact .inr answer
    | recovered => cases hlookup
    | begun input options generation =>
      have hreply : (store.acquire now id input options (some request) generation).2 = result :=
        congrArg Prod.snd hexec
      rw [h.acquire_recorded hrecord hfound] at hreply
      exact .inr hreply.symm

theorem memory_changes (hsubmits : call.Submits id request)
    (hconflicts : Conflicts store.view id request) : Lapses store.view store'.view id now := by
  obtain ⟨s, turn, r, hs, hturn, hr, hid, hne⟩ := hconflicts
  obtain ⟨record, hrecord, rfl⟩ := Option.map_eq_some_iff.mp hs
  obtain ⟨sessions', hlapses, hholds, hs'⟩ := h.lapses hrecord now
  obtain ⟨chronicle', hrecovered⟩ := hlapses.recovered chronicle
  rw [h.view, hholds.view] at hlapses
  cases call with
  | answer =>
    cases hexec
    exact .inl rfl
  | store call =>
    cases call with
    | load_request session_id =>
      obtain ⟨rfl, rfl⟩ := hsubmits
      obtain rfl : (store.load_request now session_id request.id).1 = store' :=
        congrArg Prod.fst hexec
      rw [h.load_request hrecord now request.id]
      exact hlapses
    | acquire session_id input options submitted generation =>
      obtain ⟨rfl, rfl⟩ := hsubmits
      obtain rfl : (store.acquire now session_id input options (some request) generation).1 =
        store' := congrArg Prod.fst hexec
      obtain ⟨s₁, found, hs₁, hfound, -, -⟩ := Leads.host_record hrecovered.leads hlived
        (h.sessions_eq hrecord) hturn hr
      cases hs'.symm.trans hs₁
      rw [hid] at hfound
      rw [h.acquire_recorded hrecord hfound]
      exact hlapses
    | _ => cases hsubmits

end

end Memory

/-! ## SQLite -/

section Sqlite

variable {db db' : Database} {sessions : Sessions} {chronicle : Chronicle} {id : String}
  {request : HostRequest}

def DatabaseCall.answered :
    DatabaseCall → Option (String × HostRequest × Except SessionError HostTurnAcquisition)
  | .answer id request result => some (id, request, result)
  | _ => none

def DatabaseCall.Submits (id : String) (request : HostRequest) : DatabaseCall → Prop
  | .load_request session_id host_id => session_id = id ∧ host_id = request.id
  | .load_turn_acquisition session_id => session_id = id
  | .reserve_turn session_id _ _ _ submitted => session_id = id ∧ submitted = some request
  | .answer session_id submitted _ => session_id = id ∧ submitted = request
  | _ => False

def DatabaseCall.abandons : DatabaseCall → Option TurnOwner
  | .interrupt owner => some owner
  | _ => none

def DatabaseCall.lookup : DatabaseCall → Bool
  | .load_request _ _ => true
  | .reserve_turn _ _ _ _ _ => true
  | _ => false

/-- One call of a submission, and the answers it allows. -/
inductive DatabaseCall.Decides (id : String) (request : HostRequest)
    (result : Except SessionError HostTurnAcquisition) :
    Prog.Event DatabaseCall DatabaseCall.Reply SessionError → Prop where
  | absent : Decides id request result
      ⟨.load_request id request.id, .ok (none : Option HostTurnRecord)⟩
  | found (record : HostTurnRecord) (answer : result = classify request record) :
      Decides id request result
        ⟨.load_request id request.id, .ok (some record : Option HostTurnRecord)⟩
  | failed (error : SessionError) (answer : result = .error error) :
      Decides id request result ⟨.load_request id request.id, .error error⟩
  | recovered (owner : TurnOwner) (session : owner.session_id = id)
      (reply : Except SessionError Unit) : Decides id request result ⟨.interrupt owner, reply⟩
  | prepared (reply : Except SessionError Database.TurnAcquisition) :
      Decides id request result ⟨.load_turn_acquisition id, reply⟩
  | outdated (message : EncodedMessage) (acquisition : Database.TurnAcquisition)
      (options : TurnOptions) : Decides id request result
        ⟨.reserve_turn id message acquisition options (some request),
          .ok (.Retry : Database.Reservation)⟩
  | acquired (message : EncodedMessage) (acquisition : Database.TurnAcquisition)
      (options : TurnOptions) (owner : TurnOwner) : Decides id request result
        ⟨.reserve_turn id message acquisition options (some request),
          .ok (.Acquired owner : Database.Reservation)⟩
  | recorded (message : EncodedMessage) (acquisition : Database.TurnAcquisition)
      (options : TurnOptions) (record : HostTurnRecord) (answer : result = .ok (.Recorded record)) :
      Decides id request result
        ⟨.reserve_turn id message acquisition options (some request),
          .ok (.Recorded record : Database.Reservation)⟩
  | refused (message : EncodedMessage) (acquisition : Database.TurnAcquisition)
      (options : TurnOptions) (error : SessionError) (answer : result = .error error) :
      Decides id request result
        ⟨.reserve_turn id message acquisition options (some request), .error error⟩

abbrev DatabaseCall.Answers (log : DatabaseLog) (id : String) (request : HostRequest)
    (result : Except SessionError HostTurnAcquisition) : Prop :=
  Submitted DatabaseCall.Decides (fun event => event.1.lookup) log id request result

/-- A client answers what its log allows. -/
def DatabaseCall.Justified (log : DatabaseLog) : DatabaseCall → Prop
  | .answer id request result => DatabaseCall.Answers log id request result
  | _ => True

variable {call : DatabaseCall}

theorem transaction_ends {Q : DatabaseLog → Except SessionError call.Reply → Prop}
    {log : DatabaseLog} (hcall : call.Justified log)
    (h : ∀ reply : Except SessionError call.Reply, Q (⟨call, reply⟩ :: log) reply) :
    Ends (fun _ _ => True) (fun log call => DatabaseCall.Justified log call) Q
      (Database.transaction call) log :=
  Prog.ends_perform hcall h

/-- What a reservation leads to. -/
def Reserved (log : DatabaseLog) (id : String) (request : HostRequest) :
    Except SessionError Database.Reservation → Prop
  | .ok (.Recorded record) => DatabaseCall.Answers log id request (.ok (.Recorded record))
  | .ok _ => ∀ answer, DatabaseCall.Answers log id request answer
  | .error error => DatabaseCall.Answers log id request (.error error)

theorem acquire_loop_ends [Sha256] (message : EncodedMessage) (options : TurnOptions)
    (generation : Int) (fuel : Nat) (log : DatabaseLog)
    (hopen : ∀ answer, DatabaseCall.Answers log id request answer) :
    Ends (fun _ _ => True) (fun log call => DatabaseCall.Justified log call)
      (Allowed fun log answer => DatabaseCall.Answers log id request answer)
      (Database.acquire_loop id message options (some request) generation fuel) log := by
  induction fuel generalizing log with
  | zero =>
    intro answer hanswer
    cases answer <;> cases hanswer
  | succ fuel ih =>
    have hprepared : Ends (fun _ _ => True) (fun log call => DatabaseCall.Justified log call)
        (fun log (_ : Except SessionError Database.TurnAcquisition) =>
          ∀ answer, DatabaseCall.Answers log id request answer)
        (Database.transaction (.load_turn_acquisition id)) log :=
      transaction_ends trivial fun reply answer => (hopen answer).step (.prepared reply)
    refine Ends.bind hprepared (fun log loaded hopen => ?_) fun log error hopen =>
      allowed_error (hopen _)
    dsimp only
    split
    · next error _ => exact allowed_error (hopen _)
    have hreserved : Ends (fun _ _ => True) (fun log call => DatabaseCall.Justified log call)
        (fun log reply => Reserved log id request reply)
        (Database.transaction (.reserve_turn id message
          { loaded with expected_generation := generation } options (some request))) log := by
      refine transaction_ends trivial fun reply => ?_
      cases reply with
      | error error => exact submitted_cons rfl (hopen _).2 (.refused _ _ _ error rfl)
      | ok reservation =>
        cases reservation with
        | Acquired owner =>
          exact fun answer => submitted_cons rfl (hopen answer).2 (.acquired _ _ _ owner)
        | Recorded record => exact submitted_cons rfl (hopen _).2 (.recorded _ _ _ record rfl)
        | Retry => exact fun answer => submitted_cons rfl (hopen answer).2 (.outdated _ _ _)
    refine Ends.bind hreserved (fun log reservation h => ?_) fun log error h => allowed_error h
    cases reservation with
    | Acquired owner => exact allowed_ok (h _)
    | Recorded record => exact allowed_ok h
    | Retry => exact ih log h

theorem database_answers [Sha256] :
    database_clients.Certified (fun _ _ => True) fun _ log call => call.Justified log where
  valid _ _ _ _ _ := trivial
  meets command := by
    obtain ⟨a, fuel, operation⟩ := command
    cases operation with
    | store call =>
      refine Meets.mono (prepares_store_program
        (A := fun log id request result => DatabaseCall.Answers log id request result)
        fuel call []) (fun log call h => ?_) (fun _ _ h => h) fun _ h => h
      cases call with
      | answer => exact h
      | _ => trivial
    | submit id input options request generation identity abandoned_turns =>
      refine submission_obeys (A := fun log answer => DatabaseCall.Answers log id request answer)
        (acquire_request_ends (fun log hopen => ?_) (fun log hopen => recover_abandoned_ends
          (fun owner howner log hopen => ?_) hopen) fun log hopen => ?_)
        fun log result hresult => ⟨hresult, fun _ _ => trivial, fun _ => trivial⟩
      · have hlog := all_decided hopen
        refine transaction_ends trivial fun reply => ?_
        cases reply with
        | error error => exact submitted_cons rfl (hlog _) (.failed error rfl)
        | ok record =>
          cases record with
          | none => exact fun answer => submitted_cons rfl (hlog _) .absent
          | some record => exact submitted_cons rfl (hlog _) (.found record rfl)
      · exact @transaction_ends (.interrupt owner) _ _ trivial fun reply answer =>
          (hopen answer).step (.recovered owner (mem_for_session howner) reply)
      · unfold Database.acquire
        split
        · next error _ => exact allowed_error (hopen _)
        · exact acquire_loop_ends _ options generation fuel log hopen

theorem serve_snd [Sha256] (db : Database) (input : Database.ReservationInput)
    (call : DatabaseCall) :
    (db.serve input call).2 = (db.transact input call).map Prod.fst := by
  unfold Database.serve
  cases db.transact input call <;> rfl

variable [Sha256] (h : Stores db sessions) (hlived : Lived sessions chronicle)

include h hlived

theorem Stores.load_request {s : Session} (hs : sessions id = some s) (now : Int)
    (host_id : String) :
    ∃ sessions' s', Lapses sessions sessions' id now ∧
      Stores (db.recover_stale_turns id now) sessions' ∧ sessions' id = some s' ∧
      db.load_request now id host_id
        = .ok (s'.host_record host_id, db.recover_stale_turns id now) := by
  obtain ⟨sessions', hlapses, hstored⟩ := h.lapses hlived id now
  obtain ⟨chronicle', hrecovered⟩ := hlapses.recovered chronicle
  cases hs' : sessions' id with
  | none =>
    have hnone : sessions id = none := hrecovered.present.mp hs'
    rw [hnone] at hs
    cases hs
  | some s' =>
    have hsound := (hlived.leads hrecovered.leads).sound hs'
    refine ⟨sessions', s', hlapses, hstored, hs', ?_⟩
    unfold Database.load_request
    rw [(h.represents_some hs).load_turn_configuration]
    have hfound := (hstored.represents_some hs').load_request_from hsound hstored.write_ids host_id
    simp only [bind, Except.bind, hfound]
    rfl

theorem Stores.reserve_recorded (input : Database.ReservationInput) (id : String)
    (request : HostRequest) :
    ∃ y, Recovered id (sessions, chronicle) y ∧ ∀ message acquisition options s record,
      y.1 id = some s → s.host_record request.id = some record → ∃ committed,
        db.reserve_turn input id message acquisition options (some request) =
          (record.check_request request).map fun _ => (.Recorded record, committed) := by
  obtain ⟨y, hrecovered, hstored⟩ := h.given_up hlived input id
  generalize hgiven : foldl Database.interrupt_owned_turn
    (db.recover_stale_turns id input.recovery_now) _ = given at hstored
  refine ⟨y, hrecovered, fun message acquisition options s record hs hrecord => ⟨given, ?_⟩⟩
  have hlived' : Lived y.1 y.2 := hlived.leads hrecovered.leads
  have hfound := (hstored.represents_some hs).load_request_from (hlived'.sound hs) hstored.write_ids
  unfold Database.reserve_turn
  dsimp only
  rw [hgiven, hfound, hrecord]
  simp only [bind, Except.bind]
  cases record.check_request request <;> rfl

variable {result : Except SessionError HostTurnAcquisition} {input : Database.ReservationInput}

theorem load_request_from_record {reply : Except SessionError (Option HostTurnRecord)}
    (hserve : db.serve input (.load_request id request.id) = (db', reply))
    (hdecides : DatabaseCall.Decides id request result ⟨.load_request id request.id, reply⟩) :
    FromRecord sessions id request result := by
  cases hs : sessions id with
  | none =>
    intro s turn r hs'
    rw [hs] at hs'
    cases hs'
  | some s =>
    obtain ⟨sessions', s', hlapses, -, hs', hload⟩ :=
      h.load_request hlived hs input.recovery_now request.id
    obtain ⟨chronicle', hrecovered⟩ := hlapses.recovered chronicle
    have hreply : reply = .ok (s'.host_record request.id) := by
      have hsnd := serve_snd db input (.load_request id request.id)
      rw [hserve] at hsnd
      exact hsnd.trans (congrArg (Except.map Prod.fst) hload)
    refine from_record (x := (sessions, chronicle)) hlived hrecovered.leads
      fun s₁ record hs₁ hrecord => ?_
    cases hs'.symm.trans hs₁
    rw [hrecord] at hreply
    subst hreply
    cases hdecides with
    | found found answer => exact .inr answer

theorem reserve_turn_from_record {message : EncodedMessage} {acquisition : Database.TurnAcquisition}
    {options : TurnOptions} {reply : Except SessionError Database.Reservation}
    (hserve : db.serve input (.reserve_turn id message acquisition options (some request))
      = (db', reply))
    (hdecides : DatabaseCall.Decides id request result
      ⟨.reserve_turn id message acquisition options (some request), reply⟩) :
    FromRecord sessions id request result := by
  obtain ⟨y, hrecovered, hreserve⟩ := h.reserve_recorded hlived input id request
  refine from_record (x := (sessions, chronicle)) hlived hrecovered.leads
    fun s record hs hrecord => .inr ?_
  obtain ⟨committed, heq⟩ := hreserve message acquisition options s record hs hrecord
  have hreply : reply = ((record.check_request request).map
      fun _ => (Database.Reservation.Recorded record, committed)).map Prod.fst := by
    have hsnd := serve_snd db input
      (.reserve_turn id message acquisition options (some request))
    rw [hserve] at hsnd
    exact hsnd.trans (congrArg (Except.map Prod.fst) heq)
  unfold classify
  cases hcheck : record.check_request request with
  | error error =>
    rw [hcheck] at hreply
    subst hreply
    cases hdecides with
    | refused _ _ _ _ answer => exact answer
  | ok u =>
    rw [hcheck] at hreply
    subst hreply
    cases hdecides with
    | recorded _ _ _ _ answer => exact answer

variable {choice : Except (String × String) Database.ReservationInput}

variable {reply : Except SessionError call.Reply}

theorem database_from_record (hexec : database_clients.exec db choice call = (db', reply))
    (hdecides : DatabaseCall.Decides id request result ⟨call, reply⟩) (hlookup : call.lookup = true)
    : FromRecord sessions id request result := by
  cases choice with
  | error failure =>
    -- the storage has failed, and the submission with it
    obtain rfl : Except.error (.QueryContext failure.1 failure.2) = reply :=
      congrArg Prod.snd hexec
    intro s turn r hs' hturn hr hid
    left
    cases hdecides with
    | failed _ answer | refused _ _ _ _ answer => exact ⟨failure.1, failure.2, answer⟩
    | recovered | prepared => cases hlookup
  | ok input =>
    have hserve : db.serve input call = (db', reply) := hexec
    have hagain := hdecides
    cases hdecides with
    | recovered | prepared => cases hlookup
    | absent | found | failed => exact load_request_from_record h hlived hserve hagain
    | outdated | acquired | recorded | refused =>
      exact reserve_turn_from_record h hlived hserve hagain

theorem database_changes (hexec : database_clients.exec db choice call = (db', reply))
    (hsubmits : call.Submits id request) (hconflicts : Conflicts sessions id request) :
    db' = db ∨ ∃ input sessions', choice = .ok input ∧
      Lapses sessions sessions' id input.recovery_now ∧ Stores db' sessions' := by
  obtain ⟨s, turn, r, hs, hturn, hr, hid, hne⟩ := hconflicts
  cases choice with
  | error => exact .inl (congrArg Prod.fst hexec).symm
  | ok input =>
    have hserve : (db.serve input call).1 = db' := congrArg Prod.fst hexec
    unfold Database.serve at hserve
    cases call with
    | answer => exact .inl hserve.symm
    | load_turn_acquisition =>
      left
      split at hserve
      · exact hserve.symm
      · next reply committed hcommit =>
        rw [← (reading_eq hcommit).2]
        exact hserve.symm
    | load_request =>
      obtain ⟨rfl, rfl⟩ := hsubmits
      obtain ⟨sessions', s', hlapses, hstored, -, hload⟩ :=
        h.load_request hlived hs input.recovery_now request.id
      refine .inr ⟨input, sessions', rfl, hlapses, ?_⟩
      simp only [Database.transact, hload] at hserve
      exact hserve ▸ hstored
    | reserve_turn session_id message acquisition options =>
      obtain ⟨rfl, rfl⟩ := hsubmits
      obtain ⟨y, hrecovered, hreserve⟩ := h.reserve_recorded hlived input session_id request
      obtain ⟨s', record, hs', hrecord, hrequest, -⟩ :=
        Leads.host_record (x := (sessions, chronicle)) hrecovered.leads hlived hs hturn hr
      rw [hid] at hrecord
      obtain ⟨committed, heq⟩ := hreserve message acquisition options s' record hs' hrecord
      have hcheck : record.check_request request = .error .HostTurnConflict := by
        rw [HostTurnRecord.check_request, if_pos (by rw [hrequest]; exact hne)]
      rw [hcheck] at heq
      left
      simp only [Database.transact, heq] at hserve
      exact hserve.symm
    | _ => cases hsubmits

end Sqlite

/-! ## Both stores -/

/-- When a transaction reads the clock. -/
def transaction_time : Except (String × String) Database.ReservationInput → Int
  | .ok input => input.recovery_now
  | .error _ => 0

variable {result : Except SessionError HostTurnAcquisition} {request : HostRequest}

theorem MemoryCall.Decides.submits {id : String}
    {event : Prog.Event MemoryCall MemoryCall.Reply SessionError}
    (h : MemoryCall.Decides id request result event) : event.1.Submits id request ∨
      ∃ owner, event.1.abandons = some owner ∧ owner.session_id = id := by
  cases h with
  | recovered owner session => exact .inr ⟨owner, rfl, session⟩
  | _ => exact .inl ⟨rfl, rfl⟩

theorem DatabaseCall.Decides.submits {id : String}
    {event : Prog.Event DatabaseCall DatabaseCall.Reply SessionError}
    (h : DatabaseCall.Decides id request result event) : event.1.Submits id request ∨
      ∃ owner, event.1.abandons = some owner ∧ owner.session_id = id := by
  cases h with
  | recovered owner session => exact .inr ⟨owner, rfl, session⟩
  | prepared reply => exact .inl rfl
  | _ => exact .inl ⟨rfl, rfl⟩

theorem MemoryCall.abandons_deed (call : MemoryCall) (reply : Except SessionError call.Reply)
    (owner : TurnOwner) (h : call.abandons = some owner) :
    call.deed reply = .nothing ∨ call.deed reply = .interrupted owner := by
  cases call with
  | answer => cases h
  | store call =>
    cases call <;> cases h
    cases reply with
    | error => exact .inl rfl
    | ok => exact .inr rfl

theorem DatabaseCall.abandons_deed [Sha256] (call : DatabaseCall)
    (reply : Except SessionError call.Reply) (owner : TurnOwner) (h : call.abandons = some owner) :
    call.deed reply = .nothing ∨ call.deed reply = .interrupted owner := by
  cases call <;> cases h
  cases reply with
  | error => exact .inl rfl
  | ok => exact .inr rfl

variable {identity : StoreIdentity}

theorem memory_submitted_once [Sha256]
    {cfg : Config MemoryCall MemoryCall.Reply SessionError MemoryStore Nat}
    (hreach : memory_clients.Reaches System.anyStep (Config.idle (MemoryStore.new identity)) cfg) :
    SubmittedOnce memory_clients MemoryCall.answered MemoryCall.Submits MemoryCall.abandons
      MemoryCall.lookup id MemoryStore.view cfg := by
  refine (memory_keeps identity).submitted_once (H := MemoryHolds) (fun _ _ h => h)
    memory_certified (d := MemoryCall.Decides) ?_ (fun h => h.submits) MemoryCall.abandons_deed ?_
    ?_ hreach
  · intro a log c id request result hJ hanswer
    cases c with
    | answer =>
      cases hanswer
      exact hJ
    | store call => cases hanswer
  · intro w sessions chronicle now w' c r id request result hholds hlived hexec hdecides hlookup
    exact memory_from_record hholds hlived hexec hdecides hlookup
  · intro w sessions chronicle now w' c r id request hholds hlived hexec hsubmits hconflicts
    exact memory_changes hholds hlived hexec hsubmits hconflicts

theorem database_submitted_once [Sha256]
    {cfg : Config DatabaseCall DatabaseCall.Reply SessionError Database Nat}
    (hreach : database_clients.Reaches System.anyStep (Config.idle (Database.new identity)) cfg) :
    SubmittedOnce database_clients DatabaseCall.answered DatabaseCall.Submits
      DatabaseCall.abandons DatabaseCall.lookup transaction_time Database.view cfg := by
  refine (database_keeps identity).submitted_once (H := Stores) (fun _ _ h => ⟨h.1, h.2.1⟩)
    database_answers (d := DatabaseCall.Decides) ?_ (fun h => h.submits) DatabaseCall.abandons_deed
    ?_ ?_ hreach
  · intro a log c id request result hJ hanswer
    cases c with
    | answer =>
      cases hanswer
      exact hJ
    | _ => cases hanswer
  · intro w sessions chronicle choice w' c r id request result hstores hlived hexec hdecides hlookup
    exact (database_from_record hstores hlived hexec hdecides hlookup).seen (hstores.shows hlived)
  · intro w sessions chronicle choice w' c r id request hstores hlived hexec hsubmits hconflicts
    have hshows := hstores.shows hlived
    rcases database_changes hstores hlived hexec hsubmits (hconflicts.of_seen hshows) with
      rfl | ⟨input, sessions₁, rfl, hlapses, hstores₁⟩
    · exact .inl rfl
    · obtain ⟨chronicle₁, hrecovered⟩ := hlapses.recovered chronicle
      exact hlapses.seen hshows (hstores₁.shows (hlived.leads hrecovered.leads))

/-- **Host submissions are idempotent in both stores.** -/
theorem submissions_idempotent [Sha256] (identity : StoreIdentity) :
    (∀ cfg, memory_clients.Reaches System.anyStep (Config.idle (MemoryStore.new identity)) cfg →
      SubmittedOnce memory_clients MemoryCall.answered MemoryCall.Submits MemoryCall.abandons
        MemoryCall.lookup id MemoryStore.view cfg) ∧
    (∀ cfg, database_clients.Reaches System.anyStep (Config.idle (Database.new identity)) cfg →
      SubmittedOnce database_clients DatabaseCall.answered DatabaseCall.Submits
        DatabaseCall.abandons DatabaseCall.lookup transaction_time Database.view cfg) :=
  ⟨fun _ hreach => memory_submitted_once hreach, fun _ hreach => database_submitted_once hreach⟩

/-! ### Runs -/

attribute [local instance] plain_digest

/-- A request under the identifier `r`. -/
def host_request (fingerprint : String) : HostRequest := ⟨fingerprint, "r"⟩

def host_outcome : TurnOutcome := ⟨"true", ⟨[], []⟩⟩

/-- A client submits a request; the number is that of the calls of its program. -/
def memory_submission (a : Nat) (now : Int) (fingerprint : String) (calls : Nat) :
    List (Label Int Empty Nat (Nat × Operation)) :=
  .start (a, .submit "s" (.text "a") plain_options (host_request fingerprint) 0
      (.Temporary 0) []) ::
    replicate calls (.call a now)

def database_submission (a : Nat) (now : Int) (fingerprint : String) (calls : Nat) :
    List (Label (Except (String × String) Database.ReservationInput) Empty Nat
      (Nat × Nat × Operation)) :=
  .start (a, 2, .submit "s" (.text "a") plain_options (host_request fingerprint) 0
      (.Temporary 0) []) ::
    replicate calls (.call a (.ok ⟨now, now, [UInt8.ofNat a], []⟩))

/-- The answers to submissions in a trace, newest first. -/
def answers {C : Type} {R : C → Type} {W : Type}
    (answer : C → Option (String × HostRequest × Except SessionError HostTurnAcquisition))
    (trace : List (Entry C R SessionError W Nat)) :
    List (Nat × Except SessionError HostTurnAcquisition) :=
  trace.filterMap fun e => (answer e.call).map fun answered => (e.actor, answered.2.2)

def is_outcome : Except SessionError HostTurnAcquisition → Bool
  | .ok (.Recorded record) => decide (record.status = .Completed host_outcome)
  | _ => false

/-- Client 1 completes the request; client 2 repeats it, and client 3 submits another one
under the same identifier. -/
def memory_resubmission : List (Label Int Empty Nat (Nat × Operation)) :=
  memory_op 0 0 (.create_session plain_session none 100) ++ memory_submission 1 0 "f" 4 ++
    memory_op 1 1 (.complete (plain_owner 0 (MemoryStore.to_le_bytes 0)) [.Assistant "true"] none
      (some host_outcome)) ++
    memory_submission 2 2 "f" 2 ++ memory_submission 3 2 "g" 2

def database_resubmission : List (Label (Except (String × String) Database.ReservationInput) Empty
    Nat (Nat × Nat × Operation)) :=
  database_op 0 1 0 (.create_session plain_session none 100) ++ database_submission 1 0 "f" 5 ++
    database_op 1 1 1
      (.complete (plain_owner 0 [1]) [.Assistant "true"] none (some host_outcome)) ++
    database_submission 2 2 "f" 2 ++ database_submission 3 2 "g" 2

/-- The two later submissions get the outcome and the conflict. -/
def resubmitted (answers : List (Nat × Except SessionError HostTurnAcquisition)) : Bool :=
  match answers with
  | (3, .error .HostTurnConflict) :: (2, answer) :: _ => is_outcome answer
  | _ => false

theorem submissions_idempotent_resubmission :
    (∃ cfg, memory_clients.Reaches System.anyStep
      (Config.idle (MemoryStore.new (.Temporary 0))) cfg ∧
      resubmitted (answers MemoryCall.answered cfg.trace) = true ∧
      SubmittedOnce memory_clients MemoryCall.answered MemoryCall.Submits MemoryCall.abandons
        MemoryCall.lookup id MemoryStore.view cfg) ∧
    (∃ cfg, database_clients.Reaches System.anyStep
      (Config.idle (Database.new (.Temporary 0))) cfg ∧
      resubmitted (answers DatabaseCall.answered cfg.trace) = true ∧
      SubmittedOnce database_clients DatabaseCall.answered DatabaseCall.Submits
        DatabaseCall.abandons DatabaseCall.lookup transaction_time Database.view cfg) := by
  have hmemory : (memory_clients.run (Config.idle (MemoryStore.new (.Temporary 0)))
      memory_resubmission).any (fun cfg =>
        resubmitted (answers MemoryCall.answered cfg.trace) = true) = true := by
    decide +kernel
  have hdatabase : (database_clients.run (Config.idle (Database.new (.Temporary 0)))
      database_resubmission).any (fun cfg =>
        resubmitted (answers DatabaseCall.answered cfg.trace) = true) = true := by
    decide +kernel
  obtain ⟨cfg, hreach, htest⟩ := System.exists_reaches_of_run _ hmemory
  obtain ⟨cfg', hreach', htest'⟩ := System.exists_reaches_of_run _ hdatabase
  exact ⟨⟨cfg, hreach, htest, (submissions_idempotent (.Temporary 0)).1 cfg hreach⟩,
    ⟨cfg', hreach', htest', (submissions_idempotent (.Temporary 0)).2 cfg' hreach'⟩⟩

/-- The answer to client 2 is a conflict. -/
def conflicted (answers : List (Nat × Except SessionError HostTurnAcquisition)) : Bool :=
  match answers with
  | (2, .error .HostTurnConflict) :: _ => true
  | _ => false

/-- A conflicting submission is not without an effect: it comes after the lease of the
recorded turn has run out, and its lookup interrupts that turn. -/
theorem conflicting_submission_interrupts :
    (∃ cfg cfg', memory_clients.Reaches System.anyStep
        (Config.idle (MemoryStore.new (.Temporary 0))) cfg ∧
      memory_clients.run cfg (memory_submission 2 300 "g" 2) = some cfg' ∧
      conflicted (answers MemoryCall.answered cfg'.trace) = true ∧
      turn_ends cfg.world.view = [(.Running, 1)] ∧
      turn_ends cfg'.world.view = [(.Interrupted, 1)]) ∧
    (∃ cfg cfg', database_clients.Reaches System.anyStep
        (Config.idle (Database.new (.Temporary 0))) cfg ∧
      database_clients.run cfg (database_submission 2 300 "g" 2) = some cfg' ∧
      conflicted (answers DatabaseCall.answered cfg'.trace) = true ∧
      turn_ends cfg.world.view = [(.Running, 1)] ∧
      turn_ends cfg'.world.view = [(.Interrupted, 1)]) := by
  have hmemory : (memory_clients.run (Config.idle (MemoryStore.new (.Temporary 0)))
      (memory_op 0 0 (.create_session plain_session none 100) ++ memory_submission 1 0 "f" 4)).any
      (fun cfg => turn_ends cfg.world.view = [(.Running, 1)] ∧
        ∃ cfg' ∈ memory_clients.run cfg (memory_submission 2 300 "g" 2),
          conflicted (answers MemoryCall.answered cfg'.trace) = true ∧
            turn_ends cfg'.world.view = [(.Interrupted, 1)]) = true := by
    decide +kernel
  have hdatabase : (database_clients.run (Config.idle (Database.new (.Temporary 0)))
      (database_op 0 1 0 (.create_session plain_session none 100) ++
        database_submission 1 0 "f" 5)).any
      (fun cfg => turn_ends cfg.world.view = [(.Running, 1)] ∧
        ∃ cfg' ∈ database_clients.run cfg (database_submission 2 300 "g" 2),
          conflicted (answers DatabaseCall.answered cfg'.trace) = true ∧
            turn_ends cfg'.world.view = [(.Interrupted, 1)]) = true := by
    decide +kernel
  obtain ⟨cfg, hreach, hbefore, cfg', hrun, hconflict, hafter⟩ :=
    System.exists_reaches_of_run _ hmemory
  obtain ⟨cfg₁, hreach₁, hbefore₁, cfg₁', hrun₁, hconflict₁, hafter₁⟩ :=
    System.exists_reaches_of_run _ hdatabase
  exact ⟨⟨cfg, cfg', hreach, hrun, hconflict, hbefore, hafter⟩,
    ⟨cfg₁, cfg₁', hreach₁, hrun₁, hconflict₁, hbefore₁, hafter₁⟩⟩

end Agentty.Harness
