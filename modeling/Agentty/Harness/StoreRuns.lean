/-
Runs of the clients of a store, as far as its sessions are concerned.

`Keeps` is what the two stores have in common: whatever the clients do, the store shows
some sessions, every step of a client is what its deed says, and nothing else happens
to the sessions. Everything that is proved about sessions in runs is proved from it,
for both stores at once.
-/
import Agentty.Harness.MemoryLifecycle
import Agentty.Harness.DatabaseLifecycle

set_option autoImplicit false

namespace Agentty.Harness

/-! ## Seeing sessions -/

section Seen

variable {f : ModelMessage → ModelMessage} {s : Session} {turn : Turn}

@[simp] theorem Session.seen_turns : (s.seen f).turns = s.turns.map (Turn.seen f) := rfl

theorem Session.seen_id : s.seen id = s := by
  have hturn : Turn.seen id = id := by
    funext turn
    simp [Turn.seen]
  simp [Session.seen, hturn]

theorem Session.seen_owned {owner : TurnOwner} : (s.seen f).OwnedBy owner ↔ s.OwnedBy owner := by
  unfold Session.OwnedBy
  rw [Session.seen_turns, List.getLast?_map, List.length_map]
  constructor
  · rintro ⟨turn, hlast, hrunning, htoken, hposition⟩
    obtain ⟨turn₀, hlast₀, rfl⟩ := Option.map_eq_some_iff.mp hlast
    exact ⟨turn₀, hlast₀, hrunning, htoken, hposition⟩
  · rintro ⟨turn, hlast, hrunning, htoken, hposition⟩
    exact ⟨turn.seen f, by rw [hlast, Option.map_some], hrunning, htoken, hposition⟩

end Seen

/-- What a store shows of its sessions. -/
def Shows {W : Type} (view : W → Sessions) (f : ModelMessage → ModelMessage) (w : W)
    (sessions : Sessions) : Prop :=
  ∀ id, view w id = (sessions id).map (Session.seen f)

/-! ## Stores -/

/-- A store whose clients do to its sessions what their deeds say. -/
structure Keeps [Sha256] {C : Type} {R : C → Type} {W X D : Type}
    (S : System C R SessionError W X Empty Nat D) (start : W)
    (deed : (c : C) → Except SessionError (R c) → Deed) (view : W → Sessions)
    (f : ModelMessage → ModelMessage)
    (Inv : Config C R SessionError W Nat → Sessions × Chronicle → Prop) : Prop where
  init : Inv (Config.idle start) (fun _ => none, [])
  chronicled : ∀ cfg x, Inv cfg x →
    Chronicled Entry.before (fun e => deed e.call e.reply) (Shows view f) cfg.trace x
  shows : ∀ cfg x, Inv cfg x → Shows view f cfg.world x.1
  step : ∀ cfg x l cfg', S.Reaches System.anyStep (Config.idle start) cfg → Inv cfg x →
    S.step cfg l = some cfg' → ∃ x', Inv cfg' x' ∧ Leads x x'

theorem memory_keeps [Sha256] (identity : StoreIdentity) :
    Keeps memory_clients (MemoryStore.new identity) MemoryCall.deed MemoryStore.view id
      MemoryInv where
  init := ⟨.nil, rfl, fun _ _ h => nomatch h⟩
  chronicled _ _ h := h.1.mono fun w sessions _ _ hholds id => by
    rw [hholds.view, Option.map_congr fun s _ => Session.seen_id, Option.map_id']
  shows _ _ h id := by
    rw [h.2.view, Option.map_congr fun s _ => Session.seen_id, Option.map_id']
  step _ _ _ _ _ h hstep := memory_step h hstep

variable {sessions : Sessions}

theorem Stores.shows [Sha256] {db : Database} {chronicle : Chronicle} (h : Stores db sessions)
    (hlived : Lived sessions chronicle) : Shows Database.view ModelMessage.read db sessions := by
  intro id
  cases hs : sessions id with
  | none =>
    have hsession := (h.represents_none hs).session
    unfold Database.view Database.load_session_row
    rw [hsession]
    rfl
  | some s => exact (h.represents_some hs).view (hlived.sound hs)

theorem database_keeps [Sha256] (identity : StoreIdentity) :
    Keeps database_clients (Database.new identity) DatabaseCall.deed Database.view
      ModelMessage.read DatabaseInv where
  init := ⟨.nil, ⟨fun _ => ⟨rfl, rfl, rfl, rfl⟩, Table.ascending_empty, Table.ascending_empty⟩,
    fun _ _ hlog => nomatch hlog⟩
  chronicled _ _ h := h.1.mono fun _ _ _ hlived hstores => hstores.shows hlived
  shows _ _ h := h.2.1.shows h.1.lived
  step _ _ _ _ hreach h hstep := database_step hreach h hstep

/-! ## Runs -/

section Runs

variable {C : Type} {R : C → Type} {W X D : Type} {S : System C R SessionError W X Empty Nat D}
  {start : W} {deed : (c : C) → Except SessionError (R c) → Deed} {view : W → Sessions}
  {f : ModelMessage → ModelMessage}
  {Inv : Config C R SessionError W Nat → Sessions × Chronicle → Prop}
  {cfg cfg' : Config C R SessionError W Nat} {x : Sessions × Chronicle} {id : String} {s : Session}

theorem Shows.session {w : W} (h : Shows view f w sessions) (hs : view w id = some s) :
    ∃ s₀, sessions id = some s₀ ∧ s = s₀.seen f := by
  rw [h id] at hs
  obtain ⟨s₀, hs₀, rfl⟩ := Option.map_eq_some_iff.mp hs
  exact ⟨s₀, hs₀, rfl⟩

theorem Shows.view_eq {w : W} (h : Shows view f w sessions) (hs : sessions id = some s) :
    view w id = some (s.seen f) := by
  rw [h id, hs, Option.map_some]

section

variable [Sha256] (h : Keeps S start deed view f Inv)
  (hreach : S.Reaches System.anyStep (Config.idle start) cfg)

include h hreach

theorem Keeps.reaches : ∃ x, Inv cfg x :=
  hreach.invariant (fun cfg => ∃ x, Inv cfg x) ⟨_, h.init⟩
    fun cfg l cfg' hreach ⟨x, hx⟩ _ hstep =>
      let ⟨x', hx', _⟩ := h.step cfg x l cfg' hreach hx hstep
      ⟨x', hx'⟩

/-- What the sessions go through between two configurations of a run. -/
theorem Keeps.leads (hx : Inv cfg x) (hlater : S.Reaches System.anyStep cfg cfg') :
    ∃ x', Inv cfg' x' ∧ Leads x x' := by
  induction hlater with
  | refl => exact ⟨x, hx, Relation.ReflTransGen.refl⟩
  | tail hmid hstep ih =>
    obtain ⟨x₁, hx₁, hleads⟩ := ih
    obtain ⟨l, -, hstep⟩ := hstep
    obtain ⟨x₂, hx₂, hstep⟩ := h.step _ x₁ l _ (Relation.ReflTransGen.trans hreach hmid) hx₁ hstep
    exact ⟨x₂, hx₂, hleads.trans hstep⟩

/-- One call of a client: the deed has its effect on what the store shows. -/
theorem Keeps.call {a : Nat} {choice : X} (hstep : S.step cfg (.call a choice) = some cfg') :
    ∃ c r x y, cfg.next a = some c ∧ cfg'.trace = ⟨a, c, r, cfg.world⟩ :: cfg.trace ∧
      S.exec cfg.world choice c = (cfg'.world, r) ∧
      Lived x.1 x.2 ∧ Shows view f cfg.world x.1 ∧ Effects x (deed c r) y ∧
      Shows view f cfg'.world y.1 := by
  obtain ⟨d, hl, -⟩ | ⟨b, choice', t, hl, ht, -, rfl⟩ | ⟨m, -⟩ | ⟨hl, -⟩ := System.step_cases hstep
  · cases hl
  · cases hl
    have hreach' : S.Reaches System.anyStep (Config.idle start) (S.afterCall cfg a choice t) :=
      Relation.ReflTransGen.tail hreach ⟨_, trivial, hstep⟩
    obtain ⟨y, hy⟩ := h.reaches hreach'
    have hchronicled := h.chronicled _ _ hy
    cases hchronicled with
    | @cons _ x _ e earlier held effects =>
      exact ⟨t.call, _, x, y, by rw [Config.next, ht, Option.map_some], rfl, rfl, earlier.lived,
        held, effects, h.shows _ _ hy⟩
  · cases m
  · cases hl

theorem Keeps.entry {newer older : List (Entry C R SessionError W Nat)}
    {e : Entry C R SessionError W Nat} (htrace : cfg.trace = newer ++ e :: older) :
    ∃ x y, Chronicled Entry.before (fun e => deed e.call e.reply) (Shows view f) older x ∧
      Shows view f e.before x.1 ∧ Effects x (deed e.call e.reply) y := by
  obtain ⟨z, hz⟩ := h.reaches hreach
  have hchronicled := h.chronicled _ _ hz
  rw [htrace] at hchronicled
  obtain ⟨x, y, hx, hheld, heffects, -⟩ := hchronicled.at
  exact ⟨x, y, hx, hheld, heffects⟩

end

/-! ## Refinement and the write journal -/

/-- What stays of a write: everything but its status, and that too once it is settled. -/
def Session.KeepsWrites (s s' : Session) : Prop :=
  ∀ (i : Nat) (write : WriteRecord), s.writes[i]? = some write →
    ∃ status, s'.writes[i]? = some { write with status } ∧
      (write.status ≠ .Pending → status = write.status)

theorem Session.KeepsWrites.after [Sha256] {s' : Session} (h : s.KeepsWrites s') (e : Event) :
    s.KeepsWrites (s'.after e) := by
  intro i write hwrite
  obtain ⟨status, hkept, hstatus⟩ := h i write hwrite
  cases e with
  | intended owner write' =>
    have hi := (List.getElem?_eq_some_iff.mp hkept).1
    exact ⟨status, by rw [Session.after, List.getElem?_append_left hi, hkept], hstatus⟩
  | settled owner id outcome =>
    refine ⟨(settle id owner.turn_position outcome { write with status }).status, ?_, fun hne => ?_⟩
    · simp only [Session.after, List.getElem?_map, hkept, Option.map_some, settle]
      split <;> rfl
    · -- a status other than `Pending` is only written again
      rw [hstatus hne]
      unfold settle
      split
      · next hsame => exact (hsame.2.2.resolve_left hne).symm
      · rfl
  | _ => exact ⟨status, hkept, hstatus⟩

/-- Between two states a store has done what its sessions have gone through; its journal
of writes was only appended to and settled, in the order of the turns. -/
structure Refines [Sha256] (view : W → Sessions) (f : ModelMessage → ModelMessage) (w w' : W) :
    Prop where
  lifecycle : ∃ x x', Lived x.1 x.2 ∧ Leads x x' ∧ Shows view f w x.1 ∧ Shows view f w' x'.1
  journal : ∀ id s, view w id = some s → ∃ s', view w' id = some s' ∧ s.KeepsWrites s' ∧
    s'.writes.Pairwise (fun a b => a.turn_position ≤ b.turn_position) ∧
    ∀ write ∈ s'.writes, write.turn_position < s'.turns.length

theorem Keeps.refines [Sha256] (h : Keeps S start deed view f Inv)
    (hreach : S.Reaches System.anyStep (Config.idle start) cfg)
    (hlater : S.Reaches System.anyStep cfg cfg') : Refines view f cfg.world cfg'.world := by
  obtain ⟨x, hx⟩ := h.reaches hreach
  obtain ⟨x', hx', hleads⟩ := h.leads hreach hx hlater
  have hlived := (h.chronicled _ _ hx).lived
  refine ⟨⟨x, x', hlived, hleads, h.shows _ _ hx, h.shows _ _ hx'⟩, fun id s hs => ?_⟩
  obtain ⟨s₀, hs₀, rfl⟩ := (h.shows _ _ hx).session hs
  obtain ⟨s', hs', hkept⟩ := hleads.keeps (P := Session.KeepsWrites) hs₀
    (fun s i write hwrite => ⟨write.status, hwrite, fun _ => rfl⟩) fun _ _ e hP _ => hP.after e
  have hsound := (hlived.leads hleads).sound hs'
  refine ⟨s'.seen f, (h.shows _ _ hx').view_eq hs', hkept, hsound.writes, ?_⟩
  rw [Session.seen_turns, List.length_map]
  exact hsound.written

end Runs

end Agentty.Harness
