/-
What every run of the clients of a session store guarantees: turns are exclusive, a
continuation is only handed on from the turn that produced it, and model switches cut
off older handles.

Each property is a predicate on a configuration of the run, in terms of what the store
shows and of the deeds in its trace, and is proved once for every store that `Keeps`.
The theorems at the end are about the two stores.
-/
import Agentty.Harness.StoreRuns

set_option autoImplicit false

namespace Agentty.Harness

open List Function

/-! ## Owners of deeds -/

def Deed.owner : Deed → Option TurnOwner
  | .completed owner _ _ _ => some owner
  | .failed owner _ => some owner
  | .renewed owner => some owner
  | .interrupted owner => some owner
  | .intended owner => some owner
  | .settled owner => some owner
  | _ => none

/-- A deed that only the owner of the running turn can do. -/
def Deed.NeedsTurn (deed : Deed) (owner : TurnOwner) : Prop :=
  (∃ messages continuation outcome, deed = .completed owner messages continuation outcome) ∨
    (∃ error_type, deed = .failed owner error_type) ∨ deed = .renewed owner ∨
    deed = .intended owner

def StoreCall.owner : StoreCall → Option TurnOwner
  | .complete owner _ _ _ => some owner
  | .renew owner => some owner
  | .fail_turn owner _ => some owner
  | .interrupt owner => some owner
  | .write_intent owner _ _ _ _ _ => some owner
  | .finish_write owner _ _ => some owner
  | _ => none

def MemoryCall.owner : MemoryCall → Option TurnOwner
  | .store call => call.owner
  | .answer _ _ _ => none

def DatabaseCall.owner : DatabaseCall → Option TurnOwner
  | .complete owner _ _ _ => some owner
  | .renew owner => some owner
  | .fail_turn owner _ => some owner
  | .interrupt owner => some owner
  | .write_intent owner _ _ _ _ _ => some owner
  | .finish_write owner _ _ => some owner
  | _ => none

variable {owner : TurnOwner}

theorem StoreCall.owner_deed {call : StoreCall} (h : call.owner = some owner)
    (reply : Except SessionError call.Reply) :
    call.deed reply = .nothing ∨ (call.deed reply).owner = some owner := by
  cases call <;> cases h <;> cases reply <;> first | exact .inl rfl | exact .inr rfl

theorem MemoryCall.owner_deed {call : MemoryCall} (h : call.owner = some owner)
    (reply : Except SessionError call.Reply) :
    call.deed reply = .nothing ∨ (call.deed reply).owner = some owner := by
  cases call with
  | store call => exact StoreCall.owner_deed h reply
  | answer => cases h

variable {call : DatabaseCall}

theorem DatabaseCall.owner_deed [Sha256] (h : call.owner = some owner)
    (reply : Except SessionError call.Reply) :
    call.deed reply = .nothing ∨ (call.deed reply).owner = some owner := by
  cases call <;> cases h <;> cases reply <;> first | exact .inl rfl | exact .inr rfl

/-! ## Deeds and sessions -/

section Effects

variable [Sha256] {x y : Sessions × Chronicle} {deed : Deed} {id : String} {s : Session} {e : Event}

theorem Happens.allowed (h : Happens id e x y) : ∃ s, x.1 id = some s ∧ s.Allows e := by
  cases h with
  | intro present allowed => exact ⟨_, present, allowed⟩

theorem Effects.owned (h : Effects x deed y) (hneeds : deed.NeedsTurn owner) :
    ∃ s, x.1 owner.session_id = some s ∧ s.OwnedBy owner := by
  rcases hneeds with ⟨messages, continuation, outcome, rfl⟩ | ⟨error_type, rfl⟩ | rfl | rfl
  · cases h with
    | completed happens => exact happens.allowed.imp fun s h => ⟨h.1, h.2.1⟩
  · cases h with
    | failed happens => exact happens.allowed
  · cases h with
    | renewed _ happens => exact happens.allowed
  · cases h with
    | intended _ happens => exact happens.allowed.imp fun s h => ⟨h.1, h.2.1⟩

/-- **A stale owner changes no turn and no continuation.** -/
theorem Effects.stale (h : Effects x deed y) (howner : deed = .nothing ∨ deed.owner = some owner)
    (hstale : ∀ s, x.1 owner.session_id = some s → ¬ s.OwnedBy owner) (hs : x.1 id = some s) :
    ∃ s', y.1 id = some s' ∧ s'.turns = s.turns ∧ s'.configuration = s.configuration := by
  by_cases hneeds : deed.NeedsTurn owner
  · obtain ⟨s₀, hs₀, howned⟩ := h.owned hneeds
    exact absurd howned (hstale s₀ hs₀)
  cases h with
  | nothing | spared => exact ⟨s, hs, rfl, rfl⟩
  | completed | failed | renewed | intended =>
    obtain rfl : _ = owner := by simpa [Deed.owner] using howner
    simp [Deed.NeedsTurn] at hneeds
  | interrupted present owned =>
    obtain rfl : _ = owner := by simpa [Deed.owner] using howner
    exact absurd owned (hstale _ present)
  | @settled _ _ o write status happens =>
    cases happens with
    | @intro sessions chronicle s₀ present allowed =>
      have hs : sessions id = some s := hs
      by_cases hid : id = o.session_id
      · subst hid
        rw [present] at hs
        cases hs
        exact ⟨_, update_self _ _ _, rfl, rfl⟩
      · exact ⟨s, by simpa only [update_of_ne hid] using hs, rfl, rfl⟩
  | looked | created | answered | reserved | switched => simp [Deed.owner] at howner

variable {s' : Session}

theorem Recovered.keeps {P : Session → Session → Prop} (h : Recovered id x y)
    (hs : y.1 id = some s') (refl : ∀ s, P s s)
    (step : ∀ s₁ s₂ error_type, P s₁ s₂ → P s₁ (s₂.after (.interrupted error_type))) :
    ∃ s, x.1 id = some s ∧ P s s' := by
  induction h generalizing s' with
  | refl => exact ⟨s', hs, refl s'⟩
  | step error_type earlier present busy ih =>
    simp only [update_self, Option.some.injEq] at hs
    subst hs
    obtain ⟨s, hs, hP⟩ := ih present
    exact ⟨s, hs, step s _ error_type hP⟩

theorem Recovered.generation (h : Recovered id x y) (hs : y.1 id = some s') :
    ∃ s, x.1 id = some s ∧ s.configuration.model_generation = s'.configuration.model_generation :=
  h.keeps (P := fun s s' => s.configuration.model_generation = s'.configuration.model_generation) hs
    (fun _ => rfl) fun _ _ _ hsame => hsame

variable {c : String}

/-- A session that still has a continuation has not been recovered. -/
theorem Recovered.eq_of_continuation (h : Recovered id x y) (hs : y.1 id = some s)
    (hc : s.configuration.provider_session_id = some c) : x = y := by
  cases h with
  | refl => rfl
  | step =>
    simp only [update_self, Option.some.injEq] at hs
    subst hs
    cases hc

/-- A deed that gives a session another model. -/
def Deed.Switches (deed : Deed) (id : String) : Prop :=
  ∃ identity metadata capabilities generation,
    deed = .switched id generation identity metadata capabilities

/-- The generation that a creation or a switch tells the handle. -/
def Deed.handle : Deed → Option (String × Int)
  | .created id => some (id, 0)
  | .switched id generation _ _ _ => some (id, generation + 1)
  | _ => none

variable {generation : Int}

theorem Effects.switch {identity : ExecutionIdentity} {metadata : Option ModelMetadata}
    {capabilities : ModelCapabilities}
    (h : Effects x (.switched id generation identity metadata capabilities) y) :
    ∃ s s', x.1 id = some s ∧ s.configuration.model_generation = generation ∧
      y.1 id = some s' ∧ s'.configuration.model_generation = generation + 1 ∧
      check_history capabilities s'.completed_messages = .ok () := by
  cases h with
  | switched recovered happens =>
    cases happens with
    | intro present allowed =>
      obtain ⟨-, rfl, -, hchecked⟩ := allowed
      obtain ⟨s, hs, hsame⟩ := recovered.generation present
      exact ⟨s, _, hs, hsame, update_self _ _ _, rfl, hchecked⟩

theorem Effects.handle (h : Effects x deed y) (hhandle : deed.handle = some (id, generation)) :
    ∃ s, y.1 id = some s ∧ s.configuration.model_generation = generation := by
  cases h with
  | created config =>
    obtain ⟨rfl, rfl⟩ : config.id = id ∧ 0 = generation := by simpa [Deed.handle] using hhandle
    exact ⟨_, update_self _ _ _, rfl⟩
  | switched recovered happens =>
    cases hhandle
    obtain ⟨-, s', -, -, hs', hgeneration, -⟩ := (Effects.switched recovered happens).switch
    exact ⟨s', hs', hgeneration⟩
  | _ => cases hhandle

theorem Effects.reserved_generation {options : TurnOptions} {request : Option HostRequest}
    {c : Option String} (h : Effects x (.reserved id options request generation c owner) y)
    (hs : x.1 id = some s) : s.configuration.model_generation = generation := by
  cases h with
  | reserved message lease recovered present position happens =>
    obtain ⟨_, present', allowed⟩ := happens.allowed
    obtain ⟨s₀, hs₀, hsame⟩ := recovered.generation present'
    rw [hs] at hs₀
    cases hs₀
    exact hsame.trans allowed.2.1.symm

theorem Recovered.other {id₀ : String} (h : Recovered id₀ x y) (hne : id ≠ id₀) :
    y.1 id = x.1 id := by
  induction h with
  | refl => rfl
  | step error_type earlier present busy ih =>
    simp only [update_of_ne hne]
    exact ih

theorem Happens.session {id₀ : String} (h : Happens id₀ e x y) (hs : y.1 id = some s') :
    (id = id₀ ∧ ∃ s, x.1 id = some s ∧ s.Allows e ∧ s' = s.after e) ∨
      (id ≠ id₀ ∧ x.1 id = some s') := by
  cases h with
  | @intro sessions chronicle s present allowed =>
    by_cases hid : id = id₀
    · subst hid
      simp only [update_self, Option.some.injEq] at hs
      exact .inl ⟨rfl, s, present, allowed, hs.symm⟩
    · simp only [update_of_ne hid] at hs
      exact .inr ⟨hid, hs⟩

theorem Session.continuation_after (allowed : s.Allows e)
    (hc : (s.after e).configuration.provider_session_id = some c)
    (hidle : (s.after e).busy = false) :
    s.configuration.model_generation = (s.after e).configuration.model_generation ∧
      ((∃ owner messages outcome, e = .completed owner messages (some c) outcome ∧
          owner.turn_position + 1 = (s.after e).turns.length) ∨
        (s.configuration.provider_session_id = some c ∧ s.busy = false ∧
          s.turns = (s.after e).turns)) := by
  cases e with
  | interrupted | failed | switched => cases hc
  | reserved =>
    simp [Session.busy, Session.after] at hidle
  | completed owner messages continuation outcome =>
    obtain ⟨turn, -, -, -, hposition⟩ := allowed.1
    obtain rfl : continuation = some c := hc
    exact ⟨rfl, .inl ⟨owner, messages, outcome, rfl, by simpa [Session.after] using hposition⟩⟩
  | renewed =>
    obtain ⟨init, turn, hturns, hrunning⟩ := Session.busy_iff.mp (Session.OwnedBy.busy allowed)
    simp [Session.busy, Session.after, hturns, hrunning] at hidle
  | intended | settled => exact ⟨rfl, .inr ⟨hc, hidle, rfl⟩⟩

/-- A continuation of an idle session has just been produced, or was there before, with
the same turns and the same model. -/
def Deed.Carries (deed : Deed) (id c : String) (s s' : Session) : Prop :=
  s.configuration.model_generation = s'.configuration.model_generation ∧
    ((∃ owner messages outcome, deed = .completed owner messages (some c) outcome ∧
        owner.session_id = id ∧ owner.turn_position + 1 = s'.turns.length) ∨
      (¬ deed.Switches id ∧ s.configuration.provider_session_id = some c ∧ s.busy = false ∧
        s.turns = s'.turns))

theorem Effects.continuation (h : Effects x deed y) (hs : y.1 id = some s')
    (hc : s'.configuration.provider_session_id = some c) (hidle : s'.busy = false) :
    ∃ s, x.1 id = some s ∧ deed.Carries id c s s' := by
  -- a session that the deed is not about, or has not changed
  have hsame : x.1 id = some s' → ¬ deed.Switches id →
      ∃ s, x.1 id = some s ∧ deed.Carries id c s s' :=
    fun hx hstays => ⟨s', hx, rfl, .inr ⟨hstays, hc, hidle, rfl⟩⟩
  have hrecovered : ∀ id₀, Recovered id₀ x y → x.1 id = some s' := by
    intro id₀ recovered
    by_cases hid : id = id₀
    · subst hid
      rw [recovered.eq_of_continuation hs hc]
      exact hs
    · rw [← recovered.other hid]
      exact hs
  have hevent : ∀ id₀ e, Happens id₀ e x y → ¬ deed.Switches id →
      (∀ owner messages outcome, e = .completed owner messages (some c) outcome →
        deed = .completed owner messages (some c) outcome ∧ owner.session_id = id₀) →
      ∃ s, x.1 id = some s ∧ deed.Carries id c s s' := by
    intro id₀ e happens hstays hcompleted
    rcases happens.session hs with ⟨rfl, s, hx, allowed, rfl⟩ | ⟨-, hx⟩
    · obtain ⟨hmodel, hcases⟩ := Session.continuation_after allowed hc hidle
      refine ⟨s, hx, hmodel, hcases.imp ?_ fun h => ⟨hstays, h⟩⟩
      rintro ⟨owner, messages, outcome, he, hposition⟩
      obtain ⟨hdeed, hid⟩ := hcompleted owner messages outcome he
      exact ⟨owner, messages, outcome, hdeed, hid, hposition⟩
    · exact hsame hx hstays
  cases h with
  | nothing | spared => exact hsame hs (by simp [Deed.Switches])
  | looked recovered | answered recovered =>
    exact hsame (hrecovered _ recovered) (by simp [Deed.Switches])
  | created config =>
    by_cases hid : id = config.id
    · subst hid
      simp only [update_self, Option.some.injEq] at hs
      subst hs
      cases hc
    · exact hsame (by simpa only [update_of_ne hid] using hs) (by simp [Deed.Switches])
  | reserved message lease recovered present position happens =>
    rcases happens.session hs with ⟨rfl, s, hx, allowed, rfl⟩ | ⟨hid, hx⟩
    · simp [Session.busy, Session.after] at hidle
    · rw [recovered.other hid] at hx
      exact hsame hx (by simp [Deed.Switches])
  | switched recovered happens =>
    rcases happens.session hs with ⟨rfl, s, hx, allowed, rfl⟩ | ⟨hid, hx⟩
    · cases hc
    · rw [recovered.other hid] at hx
      exact hsame hx (by simp [Deed.Switches, Ne.symm hid])
  | completed happens =>
    refine hevent _ _ happens (by simp [Deed.Switches]) fun owner messages outcome he => ?_
    cases he
    exact ⟨rfl, rfl⟩
  | failed happens | renewed _ happens | intended _ happens | settled _ _ happens
  | interrupted _ _ happens =>
    exact hevent _ _ happens (by simp [Deed.Switches]) (by simp)

end Effects

/-! ## Exclusive turns -/

section Runs

variable {C : Type} {R : C → Type} {W X D : Type}

/-- Turns are exclusive: at most one of a session is running; what needs the running
turn is only done by its owner; a turn that has ended stays as it is, whatever happens
later; and a call for an owner whose turn is not the running one changes no turn, no
continuation and nothing else of a configuration. -/
structure Exclusive (S : System C R SessionError W X Empty Nat D)
    (deed : (c : C) → Except SessionError (R c) → Deed) (owner : C → Option TurnOwner)
    (view : W → Sessions) (cfg : Config C R SessionError W Nat) : Prop where
  one_running : ∀ (id : String) (s : Session) (p q : Nat) (turn turn' : Turn),
    view cfg.world id = some s → s.turns[p]? = some turn → s.turns[q]? = some turn' →
    turn.status = .Running → turn'.status = .Running → p = q
  owned : ∀ e ∈ cfg.trace, ∀ o, (deed e.call e.reply).NeedsTurn o →
    ∃ s, view e.before o.session_id = some s ∧ s.OwnedBy o
  final : ∀ cfg', S.Reaches System.anyStep cfg cfg' → ∀ (id : String) (s : Session) (p : Nat)
    (turn : Turn), view cfg.world id = some s → s.turns[p]? = some turn → turn.status ≠ .Running →
    ∃ s', view cfg'.world id = some s' ∧ s'.turns[p]? = some turn
  stale : ∀ a choice c cfg', S.step cfg (.call a choice) = some cfg' → cfg.next a = some c →
    ∀ o, owner c = some o → (∀ s, view cfg.world o.session_id = some s → ¬ s.OwnedBy o) →
    ∀ id s, view cfg.world id = some s →
    ∃ s', view cfg'.world id = some s' ∧ s'.turns = s.turns ∧ s'.configuration = s.configuration

variable {S : System C R SessionError W X Empty Nat D} {start : W}
  {deed : (c : C) → Except SessionError (R c) → Deed} {view : W → Sessions}
  {f : ModelMessage → ModelMessage}
  {Inv : Config C R SessionError W Nat → Sessions × Chronicle → Prop}
  {cfg : Config C R SessionError W Nat}

theorem Keeps.exclusive [Sha256] (h : Keeps S start deed view f Inv) {owner : C → Option TurnOwner}
    (howner : ∀ c r o, owner c = some o → deed c r = .nothing ∨ (deed c r).owner = some o)
    (hreach : S.Reaches System.anyStep (Config.idle start) cfg) :
    Exclusive S deed owner view cfg where
  one_running id s p q turn turn' hs hp hq hrunning hrunning' := by
    obtain ⟨x, hx⟩ := h.reaches hreach
    obtain ⟨s₀, hs₀, rfl⟩ := (h.shows _ _ hx).session hs
    have hsound := (h.chronicled _ _ hx).lived.sound hs₀
    rw [Session.seen_turns, getElem?_map] at hp hq
    obtain ⟨turn₀, hp₀, rfl⟩ := Option.map_eq_some_iff.mp hp
    obtain ⟨turn₁, hq₀, rfl⟩ := Option.map_eq_some_iff.mp hq
    obtain ⟨init, hinit, rfl⟩ := hsound.running_last hp₀ hrunning
    obtain ⟨init', hinit', rfl⟩ := hsound.running_last hq₀ hrunning'
    simpa using congrArg length (hinit.symm.trans hinit')
  owned e he o hneeds := by
    obtain ⟨newer, older, htrace⟩ := append_of_mem he
    obtain ⟨x, y, -, hshows, heffects⟩ := h.entry hreach htrace
    obtain ⟨s, hs, howned⟩ := heffects.owned hneeds
    exact ⟨s.seen f, hshows.view_eq hs, Session.seen_owned.mpr howned⟩
  final cfg' hlater id s p turn hs hturn hended := by
    obtain ⟨x, hx⟩ := h.reaches hreach
    obtain ⟨s₀, hs₀, rfl⟩ := (h.shows _ _ hx).session hs
    rw [Session.seen_turns, getElem?_map] at hturn
    obtain ⟨turn₀, hturn₀, rfl⟩ := Option.map_eq_some_iff.mp hturn
    obtain ⟨x', hx', hleads⟩ := h.leads hreach hx hlater
    obtain ⟨s', hs', hkept⟩ := Leads.ended_turn hleads hs₀ hturn₀ hended
    refine ⟨s'.seen f, (h.shows _ _ hx').view_eq hs', ?_⟩
    rw [Session.seen_turns, getElem?_map, hkept, Option.map_some]
  stale a choice c cfg' hstep hnext o ho hstale id s hs := by
    obtain ⟨c', r, x, y, hnext', -, -, -, hshows, heffects, hshows'⟩ := h.call hreach hstep
    rw [hnext] at hnext'
    cases hnext'
    obtain ⟨s₀, hs₀, rfl⟩ := hshows.session hs
    have hstale₀ : ∀ s, x.1 o.session_id = some s → ¬ s.OwnedBy o := fun s hs howned =>
      hstale _ (hshows.view_eq hs) (Session.seen_owned.mpr howned)
    obtain ⟨s', hs', hturns, hconfiguration⟩ :=
      heffects.stale (howner c r o ho) hstale₀ hs₀
    refine ⟨s'.seen f, hshows'.view_eq hs', ?_, ?_⟩
    · rw [Session.seen_turns, Session.seen_turns, hturns]
    · exact hconfiguration

/-! ## Continuations -/

/-- A continuation that is handed to a new turn was produced by the completion of the
session's last turn, whose options are compatible with the new ones, and the session
has not been given another model since. -/
structure HandedOn (deed : (c : C) → Except SessionError (R c) → Deed) (view : W → Sessions)
    (id : String) (options : TurnOptions) (continuation : String)
    (e : Entry C R SessionError W Nat) (older : List (Entry C R SessionError W Nat)) : Prop where
  last : ∃ s turn, view e.before id = some s ∧ s.turns.getLast? = some turn ∧
    turn.status = .Completed ∧ turn.options.continuation_compatible options = true ∧
    turn.model.generation = s.configuration.model_generation ∧
    ∃ since completion earlier s₀ owner messages outcome,
      older = since ++ completion :: earlier ∧
      deed completion.call completion.reply =
        .completed owner messages (some continuation) outcome ∧
      owner.session_id = id ∧ owner.turn_position + 1 = s.turns.length ∧
      view completion.before id = some s₀ ∧
      s₀.configuration.model_generation = s.configuration.model_generation ∧
      ∀ e' ∈ since, ¬ (deed e'.call e'.reply).Switches id

theorem Chronicled.continuation [Sha256] {E : Type} {before : E → W} {deed : E → Deed}
    {trace : List E} {x : Sessions × Chronicle}
    (h : Chronicled before deed (Shows view f) trace x) {id : String}
    {s : Session} {c : String} (hs : x.1 id = some s)
    (hc : s.configuration.provider_session_id = some c) (hidle : s.busy = false) :
    ∃ since completion earlier s₀ owner messages outcome,
      trace = since ++ completion :: earlier ∧
      deed completion = .completed owner messages (some c) outcome ∧
      owner.session_id = id ∧ owner.turn_position + 1 = s.turns.length ∧
      view (before completion) id = some s₀ ∧
      s₀.configuration.model_generation = s.configuration.model_generation ∧
      ∀ e' ∈ since, ¬ (deed e').Switches id := by
  induction h generalizing s with
  | nil => cases hs
  | @cons older x y e _ held effects ih =>
    obtain ⟨s₀, hs₀, hmodel, hcases⟩ := effects.continuation hs hc hidle
    rcases hcases with ⟨owner, messages, outcome, hdeed, hid, hposition⟩ |
      ⟨hstays, hc₀, hidle₀, hturns⟩
    · exact ⟨[], e, older, _, owner, messages, outcome, rfl, hdeed, hid, hposition,
        held.view_eq hs₀, hmodel, fun e' he' => nomatch he'⟩
    · obtain ⟨since, completion, earlier, s₁, owner, messages, outcome, rfl, hdeed, hid, hposition,
        hview, hsame, hsince⟩ := ih hs₀ hc₀ hidle₀
      refine ⟨e :: since, completion, earlier, s₁, owner, messages, outcome, rfl, hdeed, hid, ?_,
        hview, hsame.trans hmodel, fun e' he' => ?_⟩
      · rw [hposition, hturns]
      · rcases mem_cons.mp he' with rfl | he'
        · exact hstays
        · exact hsince e' he'

theorem Keeps.handed_on [Sha256] (h : Keeps S start deed view f Inv)
    (hreach : S.Reaches System.anyStep (Config.idle start) cfg)
    {newer older : List (Entry C R SessionError W Nat)} {e : Entry C R SessionError W Nat}
    (htrace : cfg.trace = newer ++ e :: older) {id : String} {options : TurnOptions}
    {request : Option HostRequest} {generation : Int} {c : String}
    (hdeed : deed e.call e.reply = .reserved id options request generation (some c) owner) :
    HandedOn deed view id options c e older := by
  obtain ⟨x, y, hx, hshows, heffects⟩ := h.entry hreach htrace
  rw [hdeed] at heffects
  generalize hhanded : some c = handed at heffects
  cases heffects with
  | @reserved _ _ sessions chronicle s _ _ _ _ message lease recovered present position happens =>
    -- a recovered session has no continuation, so nothing was recovered
    have hstored := (Option.filter_eq_some_iff.mp hhanded.symm).1
    obtain rfl := recovered.eq_of_continuation present hstored
    have hidle : s.busy = false := by
      obtain ⟨_, present', allowed⟩ := happens.allowed
      cases present.symm.trans present'
      exact allowed.1
    obtain ⟨-, turn, hlast, hcompleted, hcompatible, hmodel⟩ :=
      hx.lived.handed present hidle hhanded.symm
    obtain ⟨since, completion, earlier, s₀, o, messages, outcome, hsplit, hproduced, hid, hposition,
      hview, hsame, hsince⟩ := hx.continuation present hstored hidle
    refine ⟨⟨_, turn.seen f, hshows.view_eq present, ?_, hcompleted, hcompatible, hmodel, since,
      completion, earlier, s₀, o, messages, outcome, hsplit, hproduced, hid, ?_, hview, hsame,
      hsince⟩⟩
    · rw [Session.seen_turns, getLast?_map, hlast, Option.map_some]
    · rw [hposition, Session.seen_turns, length_map]

/-! ## Model switches -/

/-- What a handle of a session knows of its model: the generation it was created with,
loaded with, or switched to. -/
def Handle (deed : (c : C) → Except SessionError (R c) → Deed)
    (loaded : (c : C) → Except SessionError (R c) → Option (String × Int))
    (e : Entry C R SessionError W Nat) (id : String) (generation : Int) : Prop :=
  loaded e.call e.reply = some (id, generation) ∨
    (deed e.call e.reply).handle = some (id, generation)

/-- Model switches are safe: each raises the generation by one, after which every
message of every completed turn passes the check of the new model; nothing lowers the
generation; and a turn is never reserved with the generation of a handle that is older
than a switch. -/
structure SwitchSafe (S : System C R SessionError W X Empty Nat D)
    (deed : (c : C) → Except SessionError (R c) → Deed)
    (loaded : (c : C) → Except SessionError (R c) → Option (String × Int))
    (view : W → Sessions) (cfg : Config C R SessionError W Nat) : Prop where
  raises : ∀ a choice cfg' e, S.step cfg (.call a choice) = some cfg' →
    cfg'.trace = e :: cfg.trace → ∀ id generation identity metadata capabilities,
    deed e.call e.reply = .switched id generation identity metadata capabilities →
    ∃ s s', view cfg.world id = some s ∧ s.configuration.model_generation = generation ∧
      view cfg'.world id = some s' ∧ s'.configuration.model_generation = generation + 1 ∧
      ∀ turn ∈ s'.turns, turn.status = .Completed → ∀ message ∈ turn.messages,
        check_message capabilities message = .ok ()
  never_falls : ∀ cfg', S.Reaches System.anyStep cfg cfg' → ∀ id s, view cfg.world id = some s →
    ∃ s', view cfg'.world id = some s' ∧
      s.configuration.model_generation ≤ s'.configuration.model_generation
  cut_off : ∀ newer reservation middle switch older, cfg.trace =
      newer ++ reservation :: (middle ++ switch :: older) → ∀ id,
    (deed switch.call switch.reply).Switches id → ∀ options request generation c owner,
    deed reservation.call reservation.reply = .reserved id options request generation c owner →
    ∀ e ∈ older, ∀ g, Handle deed loaded e id g → g < generation

theorem Keeps.switch_safe [Sha256] (h : Keeps S start deed view f Inv)
    {loaded : (c : C) → Except SessionError (R c) → Option (String × Int)}
    (hloaded : ∀ w choice c w' r id g, S.exec w choice c = (w', r) → loaded c r = some (id, g) →
      ∃ s, view w id = some s ∧ s.configuration.model_generation = g)
    (hf : ∀ capabilities message, check_message capabilities message = .ok () →
      check_message capabilities (f message) = .ok ())
    (hreach : S.Reaches System.anyStep (Config.idle start) cfg) :
    SwitchSafe S deed loaded view cfg where
  raises a choice cfg' e hstep htrace id generation identity metadata capabilities hdeed := by
    obtain ⟨c, r, x, y, hnext, htrace', hexec, hlived, hshows, heffects, hshows'⟩ :=
      h.call hreach hstep
    rw [htrace] at htrace'
    obtain rfl := (cons.inj htrace').1
    rw [hdeed] at heffects
    obtain ⟨s, s', hs, hgeneration, hs', hgeneration', hchecked⟩ := heffects.switch
    refine ⟨_, _, hshows.view_eq hs, hgeneration, hshows'.view_eq hs', hgeneration',
      fun turn hturn hcompleted message hmessage => ?_⟩
    obtain ⟨turn₀, hturn₀, rfl⟩ := mem_map.mp hturn
    obtain ⟨message₀, hmessage₀, rfl⟩ := mem_map.mp hmessage
    exact hf capabilities message₀ (check_history_ok_iff.mp hchecked message₀
      (mem_flatMap.mpr ⟨turn₀, mem_filter.mpr ⟨hturn₀, decide_eq_true hcompleted⟩,
        hmessage₀⟩))
  never_falls cfg' hlater id s hs := by
    obtain ⟨x, hx⟩ := h.reaches hreach
    obtain ⟨s₀, hs₀, rfl⟩ := (h.shows _ _ hx).session hs
    obtain ⟨x', hx', hleads⟩ := h.leads hreach hx hlater
    obtain ⟨s', hs', hle⟩ := Leads.generation_le hleads hs₀
    exact ⟨s'.seen f, (h.shows _ _ hx').view_eq hs', hle⟩
  cut_off newer reservation middle switch older htrace id hswitch options request generation c owner
      hdeed e he g hhandle := by
    obtain ⟨x, _, hx, -, hreserved⟩ := h.entry hreach htrace
    rw [hdeed] at hreserved
    obtain ⟨y, z, hy, -, hswitched, hafter⟩ := hx.at
    obtain ⟨between, oldest, rfl⟩ := append_of_mem he
    obtain ⟨v, w, -, hshows, heffects, hbefore⟩ := hy.at
    -- the handle's generation is at most the one before the switch
    obtain ⟨s₁, hs₁, hle₁⟩ : ∃ s₁, y.1 id = some s₁ ∧ g ≤ s₁.configuration.model_generation := by
      rcases hhandle with hload | hknown
      · have hmem : e ∈ cfg.trace := by simp [htrace]
        obtain ⟨choice, w', hexec⟩ := hreach.executed rfl e hmem
        obtain ⟨s, hs, rfl⟩ := hloaded _ _ _ _ _ _ _ hexec hload
        obtain ⟨s₀, hs₀, rfl⟩ := hshows.session hs
        obtain ⟨s₁, hs₁, hle⟩ := Leads.generation_le (heffects.leads.trans hbefore) hs₀
        exact ⟨s₁, hs₁, hle⟩
      · obtain ⟨s₀, hs₀, rfl⟩ := heffects.handle hknown
        exact Leads.generation_le hbefore hs₀
    obtain ⟨identity, metadata, capabilities, generation₀, hdeed'⟩ := hswitch
    rw [hdeed'] at hswitched
    obtain ⟨s₂, s₃, hs₂, hgeneration, hs₃, hgeneration', -⟩ := hswitched.switch
    obtain ⟨s₄, hs₄, hle₄⟩ := Leads.generation_le hafter hs₃
    have hlast := hreserved.reserved_generation hs₄
    rw [hs₁] at hs₂
    cases hs₂
    omega

end Runs

/-! ## The stores -/

/-- The generation a load of a session tells its handle. -/
def MemoryCall.loaded : (call : MemoryCall) → Except SessionError call.Reply → Option (String × Int)
  | .store (.load_session id), .ok session => some (id, LoadedSession.model_generation session)
  | _, _ => none

def DatabaseCall.loaded :
    (call : DatabaseCall) → Except SessionError call.Reply → Option (String × Int)
  | .load_session_row id, .ok session => some (id, LoadedSession.model_generation session)
  | _, _ => none

variable {generation : Int}

theorem memory_loaded [Sha256] {store store' : MemoryStore} {now : Int} {call : MemoryCall}
    {reply : Except SessionError call.Reply} {id : String}
    (hexec : memory_clients.exec store now call = (store', reply))
    (h : call.loaded reply = some (id, generation)) :
    ∃ s, store.view id = some s ∧ s.configuration.model_generation = generation := by
  cases call with
  | answer => cases h
  | store call =>
    cases call with
    | load_session session_id =>
      have hreply : (store.load_session now session_id).2 = reply := congrArg Prod.snd hexec
      subst hreply
      unfold MemoryStore.load_session at h
      cases hrecord : store.sessions session_id with
      | none =>
        rw [hrecord] at h
        cases h
      | some record =>
        rw [hrecord] at h
        cases h
        refine ⟨record.session, by rw [MemoryStore.view, hrecord, Option.map_some], ?_⟩
        rcases record.recover_cases now with hsame | ⟨-, hsame⟩ <;> rw [hsame] <;> rfl
    | _ => cases h

theorem database_loaded [Sha256] {db db' : Database}
    {choice : Except (String × String) Database.ReservationInput}
    {reply : Except SessionError call.Reply} {id : String}
    (hexec : database_clients.exec db choice call = (db', reply))
    (h : call.loaded reply = some (id, generation)) :
    ∃ s, db.view id = some s ∧ s.configuration.model_generation = generation := by
  cases call with
  | load_session_row session_id =>
    obtain ⟨error, rfl, -⟩ | ⟨input, session, rfl, hcommit⟩ := exec_cases hexec
    · cases h
    · cases h
      have hrow := (reading_eq hcommit).1
      exact ⟨_, by rw [Database.view, hrow]; rfl, rfl⟩
  | _ => cases h

/-- **Turns are exclusive in both stores**, whatever their clients do. -/
theorem turns_exclusive [Sha256] (identity : StoreIdentity) :
    (∀ cfg, memory_clients.Reaches System.anyStep (Config.idle (MemoryStore.new identity)) cfg →
      Exclusive memory_clients MemoryCall.deed MemoryCall.owner MemoryStore.view cfg) ∧
    (∀ cfg, database_clients.Reaches System.anyStep (Config.idle (Database.new identity)) cfg →
      Exclusive database_clients DatabaseCall.deed DatabaseCall.owner Database.view cfg) :=
  ⟨fun _ hreach => (memory_keeps identity).exclusive
      (fun _ r _ ho => MemoryCall.owner_deed ho r) hreach,
    fun _ hreach => (database_keeps identity).exclusive
      (fun _ r _ ho => DatabaseCall.owner_deed ho r) hreach⟩

/-! ### A run on both stores -/

/-- What the digests are does not matter to the runs. -/
local instance plain_digest : Sha256 := ⟨fun _ => "", fun _ => ""⟩

def plain_options : TurnOptions where
  comparison_base := none
  limits := { max_tool_calls := 3, positive := by decide }
  schema := ⟨"true"⟩
  tool_policy := { read := true, write := false }

def plain_session : NewSession where
  id := "s"
  registration_identity := none
  schema := ⟨"true"⟩
  system_prompt := none

/-- A client issues an operation, at some time. -/
def memory_op (a : Nat) (now : Int) (call : StoreCall) :
    List (Label Int Empty Nat (Nat × Operation)) :=
  [.start (a, .store call), .call a now]

/-- The same, with as many transactions as the operation has. -/
def database_op (a transactions : Nat) (now : Int) (call : StoreCall) :
    List (Label (Except (String × String) Database.ReservationInput) Empty Nat
      (Nat × Nat × Operation)) :=
  .start (a, 2, .store call) ::
    replicate transactions (.call a (.ok ⟨now, now, [UInt8.ofNat a], []⟩))

/-- The owner of a reservation, as its client keeps it. -/
def plain_owner (turn_position : Nat) (token : List UInt8) : TurnOwner :=
  (TurnOwner.new (.Temporary 0) "s" turn_position token).activate

/-- The turn of client 1 lapses and client 2 takes over; client 1 then tries to complete
its turn, and client 2 completes its own. -/
def takeover (owner₁ owner₂ : TurnOwner) : List (Nat × Nat × Int × StoreCall) :=
  [(0, 1, 0, .create_session plain_session none 100),
    (1, 2, 0, .acquire "s" (.text "a") plain_options none 0),
    (2, 3, 300, .load_session "s"),
    (2, 2, 300, .acquire "s" (.text "b") plain_options none 0),
    (1, 1, 301, .complete owner₁ [.Assistant "late"] (some "q") none),
    (2, 1, 301, .complete owner₂ [.Assistant "done"] (some "p") none)]

def memory_takeover : List (Label Int Empty Nat (Nat × Operation)) :=
  (takeover (plain_owner 0 (MemoryStore.to_le_bytes 0))
    (plain_owner 1 (MemoryStore.to_le_bytes 1))).flatMap fun op => memory_op op.1 op.2.2.1 op.2.2.2

def database_takeover : List (Label (Except (String × String) Database.ReservationInput) Empty Nat
    (Nat × Nat × Operation)) :=
  (takeover (plain_owner 0 [1]) (plain_owner 1 [2])).flatMap fun op =>
    database_op op.1 op.2.1 op.2.2.1 op.2.2.2

/-- What is left of the turns: how each ended, and how many messages it has. -/
def turn_ends (view : Sessions) : List (Status × Nat) :=
  ((view "s").map fun s => s.turns.map fun turn => (turn.status, turn.messages.length)).getD []

/-- Both stores interrupt the first turn and refuse its late completion. -/
theorem turns_exclusive_takeover :
    (∃ cfg, memory_clients.Reaches System.anyStep
      (Config.idle (MemoryStore.new (.Temporary 0))) cfg ∧
      turn_ends cfg.world.view = [(.Interrupted, 1), (.Completed, 2)] ∧
      Exclusive memory_clients MemoryCall.deed MemoryCall.owner MemoryStore.view cfg) ∧
    (∃ cfg, database_clients.Reaches System.anyStep
      (Config.idle (Database.new (.Temporary 0))) cfg ∧
      turn_ends cfg.world.view = [(.Interrupted, 1), (.Completed, 2)] ∧
      Exclusive database_clients DatabaseCall.deed DatabaseCall.owner Database.view cfg) := by
  have hmemory : (memory_clients.run (Config.idle (MemoryStore.new (.Temporary 0)))
      memory_takeover).any (fun cfg => turn_ends cfg.world.view =
        [(.Interrupted, 1), (.Completed, 2)]) = true := by
    decide +kernel
  have hdatabase : (database_clients.run (Config.idle (Database.new (.Temporary 0)))
      database_takeover).any (fun cfg => turn_ends cfg.world.view =
        [(.Interrupted, 1), (.Completed, 2)]) = true := by
    decide +kernel
  obtain ⟨cfg, hreach, hends⟩ := System.exists_reaches_of_run _ hmemory
  obtain ⟨cfg', hreach', hends'⟩ := System.exists_reaches_of_run _ hdatabase
  exact ⟨⟨cfg, hreach, hends, (turns_exclusive (.Temporary 0)).1 cfg hreach⟩,
    ⟨cfg', hreach', hends', (turns_exclusive (.Temporary 0)).2 cfg' hreach'⟩⟩

/-- **A continuation is handed on only from the completed turn that produced it**, in
both stores. -/
theorem continuations_handed_on [Sha256] (identity : StoreIdentity) :
    (∀ cfg, memory_clients.Reaches System.anyStep (Config.idle (MemoryStore.new identity)) cfg →
      ∀ newer e older, cfg.trace = newer ++ e :: older →
      ∀ id options request generation c owner,
      MemoryCall.deed e.call e.reply = .reserved id options request generation (some c) owner →
      HandedOn MemoryCall.deed MemoryStore.view id options c e older) ∧
    (∀ cfg, database_clients.Reaches System.anyStep (Config.idle (Database.new identity)) cfg →
      ∀ newer e older, cfg.trace = newer ++ e :: older →
      ∀ id options request generation c owner,
      DatabaseCall.deed e.call e.reply = .reserved id options request generation (some c) owner →
      HandedOn DatabaseCall.deed Database.view id options c e older) :=
  ⟨fun _ hreach _ _ _ htrace _ _ _ _ _ _ hdeed =>
      (memory_keeps identity).handed_on hreach htrace hdeed,
    fun _ hreach _ _ _ htrace _ _ _ _ _ _ hdeed =>
      (database_keeps identity).handed_on hreach htrace hdeed⟩

/-- The continuation that a deed hands to a new turn. -/
def Deed.handed : Deed → Option String
  | .reserved _ _ _ _ continuation _ => continuation
  | _ => none

theorem Deed.reserved_of_handed {deed : Deed} {c : String} (h : deed.handed = some c) :
    ∃ id options request generation owner,
      deed = .reserved id options request generation (some c) owner := by
  cases deed with
  | reserved id options request generation continuation owner =>
    obtain rfl : continuation = some c := h
    exact ⟨id, options, request, generation, owner, rfl⟩
  | _ => cases h

/-- After the takeover the continuation of the completed turn is handed to the next
one. -/
theorem continuations_handed_on_takeover :
    (∃ cfg e older, memory_clients.Reaches System.anyStep
        (Config.idle (MemoryStore.new (.Temporary 0))) cfg ∧ cfg.trace = e :: older ∧
      ∃ id options, HandedOn MemoryCall.deed MemoryStore.view id options "p" e older) ∧
    (∃ cfg e older, database_clients.Reaches System.anyStep
        (Config.idle (Database.new (.Temporary 0))) cfg ∧ cfg.trace = e :: older ∧
      ∃ id options, HandedOn DatabaseCall.deed Database.view id options "p" e older) := by
  have hmemory : (memory_clients.run (Config.idle (MemoryStore.new (.Temporary 0)))
      (memory_takeover ++ memory_op 3 302 (.acquire "s" (.text "c") plain_options none 0))).any
      (fun cfg => ∃ e older, cfg.trace = e :: older ∧
        (MemoryCall.deed e.call e.reply).handed = some "p") = true := by
    decide +kernel
  have hdatabase : (database_clients.run (Config.idle (Database.new (.Temporary 0)))
      (database_takeover ++ database_op 3 2 302
        (.acquire "s" (.text "c") plain_options none 0))).any
      (fun cfg => ∃ e older, cfg.trace = e :: older ∧
        (DatabaseCall.deed e.call e.reply).handed = some "p") = true := by
    decide +kernel
  obtain ⟨cfg, hreach, e, older, htrace, hhanded⟩ := System.exists_reaches_of_run _ hmemory
  obtain ⟨cfg', hreach', e', older', htrace', hhanded'⟩ :=
    System.exists_reaches_of_run _ hdatabase
  obtain ⟨id, options, request, generation, owner, hdeed⟩ := Deed.reserved_of_handed hhanded
  obtain ⟨id', options', request', generation', owner', hdeed'⟩ :=
    Deed.reserved_of_handed hhanded'
  exact ⟨⟨cfg, e, older, hreach, htrace, id, options, (continuations_handed_on (.Temporary 0)).1 cfg
      hreach [] e older htrace id options request generation "p" owner hdeed⟩,
    ⟨cfg', e', older', hreach', htrace', id', options', (continuations_handed_on (.Temporary 0)).2
      cfg' hreach' [] e' older' htrace' id' options' request' generation' "p" owner' hdeed'⟩⟩

/-- **Model switches are safe in both stores.** -/
theorem switches_safe [Sha256] (identity : StoreIdentity) :
    (∀ cfg, memory_clients.Reaches System.anyStep (Config.idle (MemoryStore.new identity)) cfg →
      SwitchSafe memory_clients MemoryCall.deed MemoryCall.loaded MemoryStore.view cfg) ∧
    (∀ cfg, database_clients.Reaches System.anyStep (Config.idle (Database.new identity)) cfg →
      SwitchSafe database_clients DatabaseCall.deed DatabaseCall.loaded Database.view cfg) :=
  ⟨fun _ hreach => (memory_keeps identity).switch_safe
      (fun _ _ _ _ _ _ _ hexec h => memory_loaded hexec h) (fun _ _ h => h) hreach,
    fun _ hreach => (database_keeps identity).switch_safe
      (fun _ _ _ _ _ _ _ hexec h => database_loaded hexec h)
      (fun _ message h => (check_message_read message).trans h) hreach⟩

/-- Two identities of models. -/
def model_identity (key : String) (h : validate_identifier key = true) : ExecutionIdentity :=
  ⟨key, "1", h, by decide⟩

def all_capabilities : ModelCapabilities where
  image_input := true
  native_continuation := true
  tool_calls := true

/-- After the takeover the model is switched away and back. Client 3, with a handle from
before, and client 4, with the new one, then try to reserve a turn. -/
def there_and_back : List (Nat × Nat × Int × StoreCall) :=
  let a := model_identity "a" (by decide +kernel)
  let b := model_identity "b" (by decide +kernel)
  [(3, 3, 302, .load_session "s"),
    (2, 2, 303, .switch_model "s" 0 a none all_capabilities),
    (2, 2, 303, .switch_model "s" 1 b none all_capabilities),
    (2, 2, 303, .switch_model "s" 2 a none all_capabilities),
    (3, 2, 304, .acquire "s" (.text "c") plain_options none 0),
    (4, 2, 304, .acquire "s" (.text "d") plain_options none 3)]

/-- Only the client with the new handle gets its turn, in both stores. -/
theorem switches_safe_there_and_back :
    (∃ cfg, memory_clients.Reaches System.anyStep
      (Config.idle (MemoryStore.new (.Temporary 0))) cfg ∧
      turn_ends cfg.world.view = [(.Interrupted, 1), (.Completed, 2), (.Running, 1)] ∧
      SwitchSafe memory_clients MemoryCall.deed MemoryCall.loaded MemoryStore.view cfg) ∧
    (∃ cfg, database_clients.Reaches System.anyStep
      (Config.idle (Database.new (.Temporary 0))) cfg ∧
      turn_ends cfg.world.view = [(.Interrupted, 1), (.Completed, 2), (.Running, 1)] ∧
      SwitchSafe database_clients DatabaseCall.deed DatabaseCall.loaded Database.view cfg) := by
  have hmemory : (memory_clients.run (Config.idle (MemoryStore.new (.Temporary 0)))
      (memory_takeover ++ there_and_back.flatMap fun op => memory_op op.1 op.2.2.1 op.2.2.2)).any
      (fun cfg => turn_ends cfg.world.view =
        [(.Interrupted, 1), (.Completed, 2), (.Running, 1)]) = true := by
    decide +kernel
  have hdatabase : (database_clients.run (Config.idle (Database.new (.Temporary 0)))
      (database_takeover ++ there_and_back.flatMap fun op =>
        database_op op.1 op.2.1 op.2.2.1 op.2.2.2)).any
      (fun cfg => turn_ends cfg.world.view =
        [(.Interrupted, 1), (.Completed, 2), (.Running, 1)]) = true := by
    decide +kernel
  obtain ⟨cfg, hreach, hends⟩ := System.exists_reaches_of_run _ hmemory
  obtain ⟨cfg', hreach', hends'⟩ := System.exists_reaches_of_run _ hdatabase
  exact ⟨⟨cfg, hreach, hends, (switches_safe (.Temporary 0)).1 cfg hreach⟩,
    ⟨cfg', hreach', hends', (switches_safe (.Temporary 0)).2 cfg' hreach'⟩⟩

/-! ## Refinement -/

/-- **Both stores refine the lifecycle of sessions**, in every run of their clients. -/
theorem stores_refine_lifecycle [Sha256] (identity : StoreIdentity) :
    (∀ cfg cfg', memory_clients.Reaches System.anyStep
      (Config.idle (MemoryStore.new identity)) cfg →
      memory_clients.Reaches System.anyStep cfg cfg' →
      Refines MemoryStore.view id cfg.world cfg'.world) ∧
    (∀ cfg cfg', database_clients.Reaches System.anyStep (Config.idle (Database.new identity)) cfg →
      database_clients.Reaches System.anyStep cfg cfg' →
      Refines Database.view ModelMessage.read cfg.world cfg'.world) :=
  ⟨fun _ _ => (memory_keeps identity).refines, fun _ _ => (database_keeps identity).refines⟩

/-- A write is journaled and settled. -/
def settled_write (owner : TurnOwner) : List (Nat × Nat × Int × StoreCall) :=
  [(0, 1, 0, .create_session plain_session none 100),
    (1, 2, 0, .acquire "s" (.text "a") plain_options none 0),
    (1, 1, 0, .write_intent owner "c" "/" "f" none []),
    (1, 1, 0, .finish_write owner 1 true)]

def write_ends (view : Sessions) : List WriteStatus :=
  ((view "s").map fun s => s.writes.map (·.status)).getD []

theorem stores_refine_lifecycle_write :
    (∃ cfg, memory_clients.Reaches System.anyStep
      (Config.idle (MemoryStore.new (.Temporary 0))) cfg ∧
      write_ends cfg.world.view = [.Applied] ∧
      Refines MemoryStore.view id (MemoryStore.new (.Temporary 0)) cfg.world) ∧
    (∃ cfg, database_clients.Reaches System.anyStep
      (Config.idle (Database.new (.Temporary 0))) cfg ∧
      write_ends cfg.world.view = [.Applied] ∧
      Refines Database.view ModelMessage.read (Database.new (.Temporary 0)) cfg.world) := by
  have hmemory : (memory_clients.run (Config.idle (MemoryStore.new (.Temporary 0)))
      ((settled_write (plain_owner 0 (MemoryStore.to_le_bytes 0))).flatMap fun op =>
        memory_op op.1 op.2.2.1 op.2.2.2)).any
      (fun cfg => write_ends cfg.world.view = [.Applied]) = true := by
    decide +kernel
  have hdatabase : (database_clients.run (Config.idle (Database.new (.Temporary 0)))
      ((settled_write (plain_owner 0 [1])).flatMap fun op =>
        database_op op.1 op.2.1 op.2.2.1 op.2.2.2)).any
      (fun cfg => write_ends cfg.world.view = [.Applied]) = true := by
    decide +kernel
  obtain ⟨cfg, hreach, hends⟩ := System.exists_reaches_of_run _ hmemory
  obtain ⟨cfg', hreach', hends'⟩ := System.exists_reaches_of_run _ hdatabase
  exact ⟨⟨cfg, hreach, hends, (stores_refine_lifecycle _).1 _ _ .refl hreach⟩,
    ⟨cfg', hreach', hends', (stores_refine_lifecycle _).2 _ _ .refl hreach'⟩⟩

end Agentty.Harness
