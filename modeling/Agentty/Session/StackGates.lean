/-
What the stack queries return, and what the gates keep.

Every query ends, whatever the parents of the loaded sessions are (`queries_end`): the walk of
`session_stack_depth` visits no session twice, and the other walks stay among sessions of which
that walk has found the root. The depth is the length of the parent chain, which exists exactly
if it is loaded and has no cycle.

The operations keep the stacks free of cycles and as deep as they may be, and with one branch
worker. The latter has two exceptions, which `Alone` excludes: the start of a root draft, whose
gate does not look at the rest of the stack, and the sync of all children after a turn of their
parent.
-/
import Mathlib.Data.List.Perm.Subperm
import Agentty.Session.Stack

set_option autoImplicit false

namespace Agentty.Stack

open List

open Orchestration (SessionStatus SessionRole)

variable {Id : Type} [DecidableEq Id] {sessions : List (Session Id)}

/-- What the loaded sessions say of the parent of an id. -/
def link (sessions : List (Session Id)) (session_id : Id) : Option (Option Id) :=
  (find_session sessions session_id).map Session.parent_session_id

def UniqueIds (sessions : List (Session Id)) : Prop := (sessions.map Session.id).Nodup

/-! ## The sessions of a list -/

variable {session_id : Id} {session : Session Id}

theorem find_session_mem (h : find_session sessions session_id = some session) :
    session ∈ sessions ∧ session.id = session_id := by
  refine ⟨mem_of_find?_eq_some h, ?_⟩
  simpa using find?_some h

theorem find_session_of_mem (hunique : UniqueIds sessions) (h : session ∈ sessions) :
    find_session sessions session.id = some session := by
  cases hfind : find_session sessions session.id with
  | none =>
    have hnone := find?_eq_none.mp hfind session h
    simp at hnone
  | some found =>
    obtain ⟨hmem, hid⟩ := find_session_mem hfind
    rw [inj_on_of_nodup_map hunique hmem h hid]

theorem link_of_mem (hunique : UniqueIds sessions) (h : session ∈ sessions) :
    link sessions session.id = some session.parent_session_id := by
  rw [link, find_session_of_mem hunique h]
  rfl

variable {parent : Option Id}

theorem exists_of_link (h : link sessions session_id = some parent) :
    ∃ session, find_session sessions session_id = some session ∧
      session.parent_session_id = parent :=
  Option.map_eq_some_iff.mp h

theorem parent_of_link (h : link sessions session_id = some parent)
    (hs : find_session sessions session_id = some session) :
    session.parent_session_id = parent := by
  rw [link, hs] at h
  exact Option.some.inj h

theorem mem_ids_of_link (h : (link sessions session_id).isSome) :
    session_id ∈ sessions.map Session.id := by
  obtain ⟨parent, hlink⟩ := Option.isSome_iff_exists.mp h
  obtain ⟨session, hfind, -⟩ := exists_of_link hlink
  obtain ⟨hmem, hid⟩ := find_session_mem hfind
  rw [← hid]
  exact mem_map_of_mem hmem

variable {c : List Id}

theorem find_session_of_chain (h : Chain (link sessions) session_id c) :
    ∃ session, find_session sessions session_id = some session := by
  cases h with
  | root hlink | up hlink => exact (exists_of_link hlink).imp fun _ h => h.1

theorem chain_length_le (h : Chain (link sessions) session_id c) : c.length ≤ sessions.length := by
  have hsubset : c ⊆ sessions.map Session.id := fun u hu => mem_ids_of_link (h.isSome u hu)
  have hlength := (subperm_of_subset h.nodup hsubset).length_le
  rwa [length_map] at hlength

/-! ## The depth -/

variable {s : DepthLoop Id} {s' : DepthLoop Id}

theorem depth_body_inl (h : depth_body sessions s = .inl s') :
    ∃ parent_session_id parent, s.current_session.parent_session_id = some parent_session_id ∧
      s.current_session.id ∉ s.visited_session_ids ∧
      find_session sessions parent_session_id = some parent ∧
      s' = ⟨parent, s.visited_session_ids ++ [s.current_session.id], s.depth + 1⟩ := by
  unfold depth_body at h
  split at h
  · cases h
  next parent_session_id hparent =>
  split at h
  · cases h
  next hnew =>
  split at h
  · cases h
  next parent hfind =>
  exact ⟨parent_session_id, parent, hparent, hnew, hfind, (Sum.inl.inj h).symm⟩

/-- The sessions that were not visited get fewer. -/
theorem depth_body_decreases (hs : s.current_session ∈ sessions)
    (h : depth_body sessions s = .inl s') :
    s'.current_session ∈ sessions ∧
      (sessions.filter fun session => session.id ∉ s'.visited_session_ids).length <
        (sessions.filter fun session => session.id ∉ s.visited_session_ids).length := by
  obtain ⟨_, parent, -, hnew, hfind, rfl⟩ := depth_body_inl h
  refine ⟨(find_session_mem hfind).1, ?_⟩
  -- the current session is among those not visited before, and no longer
  have hsub : (sessions.filter fun session =>
    session.id ∉ s.visited_session_ids ++ [s.current_session.id]).Sublist
    (sessions.filter fun session => session.id ∉ s.visited_session_ids) := by
    apply monotone_filter_right
    intro session hsession
    simp only [mem_append, not_or, decide_eq_true_eq] at hsession ⊢
    exact hsession.1
  apply lt_of_le_of_ne hsub.length_le
  intro hlength
  have heq := hsub.eq_of_length hlength
  have hmem : s.current_session ∈
      sessions.filter fun session => session.id ∉ s.visited_session_ids :=
    mem_filter.mpr ⟨hs, by simpa using hnew⟩
  rw [← heq] at hmem
  simp at hmem

variable {fuel : Nat} {stack : SessionStack Id}

/-- A walk that ends with a depth has gone up a chain. -/
theorem depth_loop_some {d : Nat}
    (hs : find_session sessions s.current_session.id = some s.current_session)
    (h : loop (depth_body sessions) fuel s = some (some d)) :
    ∃ c, Chain (link sessions) s.current_session.id c ∧ d + 1 = s.depth + c.length := by
  induction fuel generalizing s with
  | zero => cases h
  | succ fuel ih =>
    have hlink : link sessions s.current_session.id =
        some s.current_session.parent_session_id := by
      rw [link, hs]
      rfl
    cases hbody : depth_body sessions s with
    | inr r =>
      rw [loop_inr fuel hbody] at h
      cases h
      unfold depth_body at hbody
      split at hbody
      · next hparent =>
        rw [hparent] at hlink
        refine ⟨_, .root hlink, ?_⟩
        split at hbody
        · cases hbody
        · cases hbody
          rfl
      split at hbody
      · cases hbody
      split at hbody <;> cases hbody
    | inl s' =>
      rw [loop_inl fuel hbody] at h
      obtain ⟨_, parent, hparent, -, hfind, rfl⟩ := depth_body_inl hbody
      have hid := (find_session_mem hfind).2
      obtain ⟨c, hc, hd⟩ := ih (by rw [hid]; exact hfind) h
      dsimp only at hc hd
      rw [hid] at hc
      rw [hparent] at hlink
      refine ⟨_, .up hlink hc, ?_⟩
      rw [length_cons]
      omega

/-- A walk up a chain of which nothing was visited ends with its depth. -/
theorem depth_loop_of_chain (h : Chain (link sessions) session_id c)
    (hs : find_session sessions session_id = some s.current_session)
    (hnew : ∀ u ∈ c, u ∉ s.visited_session_ids) (hfuel : c.length ≤ fuel) :
    loop (depth_body sessions) fuel s = some (some (s.depth + c.length - 1)) := by
  induction h generalizing fuel s with
  | @root v hlink =>
    obtain ⟨fuel, rfl⟩ : ∃ n, fuel = n + 1 := ⟨fuel - 1, by simp at hfuel; omega⟩
    have hid := (find_session_mem hs).2
    have hparent := parent_of_link hlink hs
    apply loop_inr
    have hcurrent := hnew v mem_cons_self
    rw [← hid] at hcurrent
    simp [depth_body, hparent, hcurrent]
  | @up v p c hlink hc ih =>
    obtain ⟨fuel, rfl⟩ : ∃ n, fuel = n + 1 := ⟨fuel - 1, by simp at hfuel; omega⟩
    have hid := (find_session_mem hs).2
    have hparent := parent_of_link hlink hs
    have hcurrent := hnew v mem_cons_self
    rw [← hid] at hcurrent
    obtain ⟨parent, hfind⟩ := find_session_of_chain hc
    have hbody : depth_body sessions s =
        .inl ⟨parent, s.visited_session_ids ++ [s.current_session.id], s.depth + 1⟩ := by
      simp [depth_body, hparent, hcurrent, hfind]
    have hlater : ∀ u ∈ c, u ∉ s.visited_session_ids ++ [s.current_session.id] := by
      intro u hu
      simp only [mem_append, mem_singleton, not_or]
      refine ⟨hnew u (mem_cons_of_mem _ hu), ?_⟩
      -- the chain does not come back to the current session
      rintro rfl
      have hnodup := (Chain.up hlink hc).nodup
      rw [hid] at hu
      exact (nodup_cons.mp hnodup).1 hu
    rw [loop_inl fuel hbody, ih hfind hlater (by simpa using hfuel)]
    simp only [length_cons]
    congr 2
    omega

theorem walk_of_chain (h : Chain (link sessions) session_id c)
    (hs : find_session sessions session_id = some session) :
    ∃ root, walk sessions (c.length - 1) session = some root ∧ c.getLast? = some root.id := by
  induction h generalizing session with
  | root _ =>
    obtain ⟨-, rfl⟩ := find_session_mem hs
    exact ⟨session, rfl, rfl⟩
  | @up v p c hlink hc ih =>
    obtain ⟨parent, hfind⟩ := find_session_of_chain hc
    obtain ⟨root, hwalk, hlast⟩ := ih hfind
    have hparent := parent_of_link hlink hs
    obtain ⟨n, hn⟩ : ∃ n, c.length = n + 1 := ⟨c.length - 1, by
      have := length_pos_iff.mpr hc.ne_nil
      omega⟩
    refine ⟨root, ?_, ?_⟩
    · rw [hn, Nat.add_sub_cancel] at hwalk
      simp [hn, walk, hparent, hfind, hwalk]
    · rw [getLast?_cons_of_ne_nil hc.ne_nil]
      exact hlast

theorem session_is_descendant_of_ends (hunique : UniqueIds sessions) {members : List (Session Id)}
    (hmembers : ∀ session ∈ members, session ∈ sessions) (h : Chain (link sessions) session_id c)
    (hs : session ∈ sessions) (hid : session.id = session_id) (hfuel : c.length ≤ fuel)
    (ancestor : Id) : (session_is_descendant_of fuel members session ancestor).isSome := by
  have hlinked := link_of_mem hunique hs
  rw [hid] at hlinked
  unfold session_is_descendant_of
  induction h generalizing fuel session with
  | root hlink =>
    obtain ⟨fuel, rfl⟩ : ∃ n, fuel = n + 1 := ⟨fuel - 1, by simp at hfuel; omega⟩
    have hparent := Option.some.inj (hlinked.symm.trans hlink)
    rw [loop_inr (r := false)]
    · rfl
    · simp [descendant_body, hparent]
  | @up v p c hlink hc ih =>
    obtain ⟨fuel, rfl⟩ : ∃ n, fuel = n + 1 := ⟨fuel - 1, by simp at hfuel; omega⟩
    have hparent := Option.some.inj (hlinked.symm.trans hlink)
    by_cases hancestor : p = ancestor
    · rw [loop_inr (r := true)]
      · rfl
      · simp [descendant_body, hparent, hancestor]
    · cases hfind : find_session members p with
      | none =>
        rw [loop_inr (r := false)]
        · rfl
        · simp [descendant_body, hparent, hancestor, hfind]
      | some parent =>
        obtain ⟨hmem, hpid⟩ := find_session_mem hfind
        have hbody : descendant_body members ancestor session = .inl parent := by
          simp [descendant_body, hparent, hancestor, hfind]
        have hplink := link_of_mem hunique (hmembers parent hmem)
        rw [hpid] at hplink
        rw [loop_inl fuel hbody]
        exact ih (hmembers parent hmem) hpid (by simpa using hfuel) hplink

section

variable (hfuel : sessions.length < fuel)

include hfuel

theorem session_stack_depth_ends (session_id : Id) :
    (session_stack_depth fuel sessions session_id).isSome := by
  unfold session_stack_depth
  split
  · rfl
  rename_i session hfind
  apply loop_ends (fun s => s.current_session ∈ sessions)
  · intro s s' hs hbody
    exact depth_body_decreases hs hbody
  · exact (find_session_mem hfind).1
  · exact lt_of_le_of_lt (length_filter_le _ _) hfuel

theorem session_stack_depth_eq_some_iff {d : Nat} :
    session_stack_depth fuel sessions session_id = some (some d) ↔
      ∃ c, Chain (link sessions) session_id c ∧ c.length = d + 1 := by
  constructor
  · intro h
    unfold session_stack_depth at h
    split at h
    · cases h
    rename_i session hfind
    have hid := (find_session_mem hfind).2
    obtain ⟨c, hc, hd⟩ := depth_loop_some (by rw [hid]; exact hfind) h
    dsimp only at hc hd
    rw [hid] at hc
    refine ⟨c, hc, ?_⟩
    omega
  · rintro ⟨c, hc, hd⟩
    obtain ⟨session, hfind⟩ := find_session_of_chain hc
    have hlength := chain_length_le hc
    have hloop := depth_loop_of_chain hc (s := ⟨session, [], 0⟩) hfind
      (fun _ _ => not_mem_nil) (by omega : c.length ≤ fuel)
    simp only [session_stack_depth, hfind, hloop]
    congr 2
    omega

/-! ## Roots and stacks -/

theorem stack_root_session_ends (session : Session Id) :
    (stack_root_session fuel sessions session).isSome := by
  unfold stack_root_session
  rw [Option.isSome_map]
  exact session_stack_depth_ends hfuel session.id

theorem stack_root_session_eq_some_iff (hs : find_session sessions session.id = some session)
    {r : Id} :
    session_stack_root_id fuel sessions session = some (some r) ↔
      Root (link sessions) session.id r := by
  constructor
  · intro h
    obtain ⟨root?, hroot, hid⟩ := Option.map_eq_some_iff.mp h
    obtain ⟨root, rfl, rfl⟩ := Option.map_eq_some_iff.mp hid
    obtain ⟨depth?, hdepth, hbind⟩ := Option.map_eq_some_iff.mp hroot
    obtain ⟨depth, rfl, hwalk⟩ := Option.bind_eq_some_iff.mp hbind
    obtain ⟨c, hc, hlength⟩ := (session_stack_depth_eq_some_iff hfuel).mp hdepth
    obtain ⟨root', hwalk', hlast⟩ := walk_of_chain hc hs
    rw [hlength, Nat.add_sub_cancel, hwalk] at hwalk'
    cases hwalk'
    exact ⟨c, hc, hlast⟩
  · rintro ⟨c, hc, hlast⟩
    have hpos := length_pos_iff.mpr hc.ne_nil
    have hdepth := (session_stack_depth_eq_some_iff hfuel).mpr ⟨c, hc, (by omega :
      c.length = (c.length - 1) + 1)⟩
    obtain ⟨root, hwalk, hlast'⟩ := walk_of_chain hc hs
    rw [hlast] at hlast'
    simp [session_stack_root_id, stack_root_session, hdepth, hwalk, Option.some.inj hlast']

/-- The tests by which `for_session` selects the members of a stack. -/
theorem root_tests_end (root : Session Id) :
    ∀ session ∈ sessions, ((session_stack_root_id fuel sessions session).map fun root_id =>
      decide (root_id = some root.id)).isSome := by
  intro session _
  rw [Option.isSome_map, session_stack_root_id, Option.isSome_map]
  exact stack_root_session_ends hfuel session

theorem for_session_eq_some (hunique : UniqueIds sessions)
    (h : SessionStack.for_session fuel sessions session_id = some (some stack)) :
    find_session sessions session_id = some stack.requested_session ∧
      ∃ r, Root (link sessions) session_id r ∧
        ∀ session, session ∈ stack.members ↔
          session ∈ sessions ∧ Root (link sessions) session.id r := by
  unfold SessionStack.for_session at h
  split at h
  · cases h
  rename_i requested hfind
  obtain ⟨root?, hroot, h⟩ := Option.bind_eq_some_iff.mp h
  cases root? with
  | none => cases h
  | some root =>
    dsimp only at h
    rw [filterM_of_isSome (root_tests_end hfuel root)] at h
    obtain rfl := Option.some.inj (Option.some.inj h)
    have hid := (find_session_mem hfind).2
    refine ⟨hfind, root.id, ?_, ?_⟩
    · have hrootid : session_stack_root_id fuel sessions requested = some (some root.id) := by
        rw [session_stack_root_id, hroot]
        rfl
      rw [← hid]
      exact (stack_root_session_eq_some_iff hfuel (by rw [hid]; exact hfind)).mp hrootid
    · intro session
      rw [mem_filter]
      apply and_congr_right
      intro hmem
      rw [← stack_root_session_eq_some_iff hfuel (find_session_of_mem hunique hmem)]
      cases hr : session_stack_root_id fuel sessions session with
      | none | some => simp

theorem for_session_ends (session_id : Id) :
    (SessionStack.for_session fuel sessions session_id).isSome := by
  unfold SessionStack.for_session
  split
  · rfl
  rename_i requested _
  obtain ⟨root?, hroot⟩ := Option.isSome_iff_exists.mp (stack_root_session_ends hfuel requested)
  rw [hroot]
  cases root? with
  | none => rfl
  | some root =>
    simp only [Option.bind_some, Option.isSome_map]
    rw [filterM_of_isSome (root_tests_end hfuel root)]
    rfl

theorem member_descendant_ends (hunique : UniqueIds sessions)
    (h : SessionStack.for_session fuel sessions session_id = some (some stack))
    (hs : session ∈ stack.members) (ancestor : Id) :
    (session_is_descendant_of fuel stack.members session ancestor).isSome := by
  obtain ⟨-, r, -, hmembers⟩ := for_session_eq_some hfuel hunique h
  obtain ⟨hmem, c, hc, -⟩ := (hmembers session).mp hs
  have hlength := chain_length_le hc
  exact session_is_descendant_of_ends hunique (fun t ht => ((hmembers t).mp ht).1) hc hmem rfl
    (by omega) ancestor

/-! ## The gates end -/

theorem can_create_stacked_child_ends (parent_session_id : Id) :
    (can_create_stacked_child fuel sessions parent_session_id).isSome := by
  unfold can_create_stacked_child
  split
  · rfl
  split
  · rw [Option.isSome_map]
    exact session_stack_depth_ends hfuel parent_session_id
  · rfl

theorem gate_ends {further : SessionStack Id → Option Bool}
    (h : ∀ stack, SessionStack.for_session fuel sessions session_id = some (some stack) →
      (further stack).isSome) :
    (gate fuel sessions session_id further).isSome := by
  unfold gate
  obtain ⟨stack?, hstack⟩ := Option.isSome_iff_exists.mp (for_session_ends hfuel session_id)
  rw [hstack]
  cases stack? with
  | none => rfl
  | some stack =>
    simp only [Option.bind_some]
    split
    · rfl
    · exact h stack hstack

theorem can_mutate_ends (hunique : UniqueIds sessions) (session_id : Id) :
    (can_mutate_session_branch_in_stack fuel sessions session_id).isSome := by
  apply gate_ends hfuel
  intro stack hstack
  rw [Option.isSome_map]
  apply anyM_isSome
  intro session hs
  split
  · rw [Option.isSome_map]
    exact member_descendant_ends hfuel hunique hstack hs _
  · rfl

theorem can_rebase_ends (session_id : Id) :
    (can_rebase_session_branch_in_stack fuel sessions session_id).isSome :=
  gate_ends hfuel fun _ _ => rfl

theorem can_append_ends (session_id parent_session_id : Id) :
    (can_append_session_to_stack fuel sessions session_id parent_session_id).isSome := by
  unfold can_append_session_to_stack
  split
  · rfl
  split
  · split
    · obtain ⟨created, hcreated⟩ :=
        Option.isSome_iff_exists.mp (can_create_stacked_child_ends hfuel parent_session_id)
      rw [hcreated]
      cases created with
      | true => exact can_rebase_ends hfuel parent_session_id
      | false => rfl
    · rfl
  · rfl

end

/-! ## The operations on the parents -/

/-- A change of sessions that keeps their ids. -/
abbrev KeepsIds (g : Session Id → Session Id) : Prop := ∀ session, (g session).id = session.id

/-- A change of sessions that keeps their ids and parents. -/
structure KeepsTree (g : Session Id → Session Id) : Prop where
  id : KeepsIds g
  parent : ∀ session, (g session).parent_session_id = session.parent_session_id

variable {g : Session Id → Session Id}

theorem find_session_map (hid : KeepsIds g) (session_id : Id) :
    find_session (sessions.map g) session_id = (find_session sessions session_id).map g := by
  unfold find_session
  rw [find?_map]
  congr 2
  funext session
  simp [hid session]

omit [DecidableEq Id] in
theorem uniqueIds_map (hid : KeepsIds g) (h : UniqueIds sessions) : UniqueIds (sessions.map g) := by
  unfold UniqueIds
  rw [map_map]
  have hsame : Session.id ∘ g = Session.id := funext hid
  rw [hsame]
  exact h

theorem link_map (hg : KeepsTree g) (session_id : Id) :
    link (sessions.map g) session_id = link sessions session_id := by
  unfold link
  rw [find_session_map hg.id, Option.map_map]
  congr 1
  exact funext hg.parent

/-- How the parents differ after a step. -/
inductive Relinked (old new : Id → Option (Option Id)) : Prop
  | same : (∀ u, new u = old u) → Relinked old new
  /-- A session without children gets a parent whose stack is not of the greatest depth. -/
  | leaf (s p : Id) (c : List Id) : (∀ u, u ≠ s → new u = old u) →
      (∀ u, old u ≠ some (some s)) → new s = some (some p) → p ≠ s →
      Chain old p c → c.length ≤ MAX_STACK_DEPTH → Relinked old new
  /-- Sessions of a stack become roots. -/
  | cut : (∀ u, new u ≠ old u → new u = some none ∧ ∃ c, Chain old u c) → Relinked old new

/-- No stack is deeper than it may be. -/
def Bounded (sessions : List (Session Id)) : Prop :=
  ∀ session_id c, Chain (link sessions) session_id c → c.length ≤ MAX_STACK_DEPTH + 1

theorem Relinked.acyclic {old new : Id → Option (Option Id)} (h : Relinked old new)
    (hold : Acyclic old) : Acyclic new := by
  cases h with
  | same h =>
    rw [funext h]
    exact hold
  | leaf s p c hoff hleaf hs hne hc _ =>
    apply hold.of_leaf hoff hleaf
    rw [hs]
    intro heq
    exact hne (Option.some.inj (Option.some.inj heq))
  | cut h =>
    intro v hcycle
    apply hold v
    refine Relation.TransGen.mono ?_ _ _ hcycle
    intro u p hlink
    by_contra hne
    have hchanged : new u ≠ old u := by
      intro heq
      rw [heq] at hlink
      exact hne hlink
    rw [(h u hchanged).1] at hlink
    cases hlink

variable {sessions' : List (Session Id)}

theorem Relinked.bounded (h : Relinked (link sessions) (link sessions')) (hold : Bounded sessions) :
    Bounded sessions' := by
  intro v c' hc'
  cases h with
  | same h =>
    rw [funext h] at hc'
    exact hold v c' hc'
  | leaf s p c hoff hleaf hs hne hc hlength =>
    by_cases hv : v = s
    · subst hv
      cases hc' with
      | root hlink =>
        rw [hs] at hlink
        cases hlink
      | up hlink hp =>
        rw [hs] at hlink
        cases hlink
        rw [chain_iff_of_leaf hoff hleaf hne] at hp
        rw [hp.unique hc, length_cons]
        exact Nat.succ_le_succ hlength
    · rw [chain_iff_of_leaf hoff hleaf hv] at hc'
      exact hold v c' hc'
  | cut h =>
    obtain ⟨c, hc, hlength⟩ := hc'.of_cut h
    exact hlength.trans (hold v c hc)

theorem keepsIds_update {f : Session Id → Session Id} (hid : KeepsIds f) :
    KeepsIds fun session => if session.id = session_id then f session else session := by
  intro session
  dsimp only
  split
  · exact hid session
  · rfl

theorem keepsTree_apply_status (session_id : Id) (status : SessionStatus) :
    KeepsTree fun session => if session.id = session_id then
      if session.status.can_transition_to status then { session with status } else session
      else session := by
  constructor <;> (intro session; beta_reduce; split_ifs <;> rfl)

theorem link_apply_status (session_id : Id) (status : SessionStatus) (u : Id) :
    link (apply_status sessions session_id status) u = link sessions u :=
  link_map (keepsTree_apply_status session_id status) u

theorem uniqueIds_apply_status (h : UniqueIds sessions) (session_id : Id)
    (status : SessionStatus) : UniqueIds (apply_status sessions session_id status) :=
  uniqueIds_map (keepsTree_apply_status session_id status).id h

variable {parent_session_id : Id}

theorem chain_of_can_create
    (h : can_create_stacked_child (enough sessions) sessions parent_session_id = some true) :
    ∃ c, Chain (link sessions) parent_session_id c ∧ c.length ≤ MAX_STACK_DEPTH := by
  unfold can_create_stacked_child at h
  split at h
  · cases h
  split at h
  case isFalse => cases h
  obtain ⟨depth?, hdepth, hless⟩ := Option.map_eq_some_iff.mp h
  obtain ⟨depth, rfl, hless⟩ := (Option.any_eq_true _ _).mp hless
  obtain ⟨c, hc, hlength⟩ :=
    (session_stack_depth_eq_some_iff (Nat.lt_succ_self sessions.length)).mp hdepth
  have hless := of_decide_eq_true hless
  exact ⟨c, hc, by omega⟩

theorem chain_of_depth
    (h : (session_stack_depth (enough sessions) sessions session_id).any Option.isSome = true) :
    ∃ c, Chain (link sessions) session_id c := by
  obtain ⟨depth?, hdepth, hsome⟩ := (Option.any_eq_true _ _).mp h
  obtain ⟨depth, rfl⟩ := Option.isSome_iff_exists.mp hsome
  obtain ⟨c, hc, -⟩ :=
    (session_stack_depth_eq_some_iff (Nat.lt_succ_self sessions.length)).mp hdepth
  exact ⟨c, hc⟩

theorem of_can_append
    (h : can_append_session_to_stack (enough sessions) sessions session_id parent_session_id
      = some true) :
    parent_session_id ≠ session_id ∧
      (∃ session, find_session sessions session_id = some session ∧
        session.status.allows_review_actions = true) ∧
      (∀ session ∈ sessions, session.parent_session_id ≠ some session_id) ∧
      can_create_stacked_child (enough sessions) sessions parent_session_id = some true := by
  unfold can_append_session_to_stack at h
  split at h
  · cases h
  next hne =>
  split at h
  case h_2 => cases h
  next session parent hsession hparent =>
  split at h
  case isFalse => cases h
  next hgates =>
  simp only [Bool.and_eq_true, Bool.not_eq_true', any_eq_false,
    decide_eq_true_eq, Session.allows_stack_append] at hgates
  refine ⟨fun heq => hne heq.symm, ⟨session, hsession, hgates.1.1.1.1.2⟩, hgates.1.1.1.2, ?_⟩
  obtain ⟨created, hcreated, -⟩ := Option.bind_eq_some_iff.mp h
  cases created with
  | true => exact hcreated
  | false =>
    rw [hcreated] at h
    cases h

theorem link_ne_of_no_child
    (h : ∀ session ∈ sessions, session.parent_session_id ≠ some session_id) (u : Id) :
    link sessions u ≠ some (some session_id) := by
  intro hlink
  obtain ⟨session, hfind, hparent⟩ := exists_of_link hlink
  exact h session (find_session_mem hfind).1 hparent

def moved (sessions : List (Session Id)) (session_id parent_session_id : Id) :
    List (Session Id) :=
  update sessions session_id fun session =>
    { session with parent_session_id := some parent_session_id }

theorem find_session_moved (session_id parent_session_id u : Id) :
    find_session (moved sessions session_id parent_session_id) u =
      (find_session sessions u).map fun session =>
        if session.id = session_id then
          { session with parent_session_id := some parent_session_id }
        else session := by
  apply find_session_map
  exact keepsIds_update fun _ => rfl

theorem uniqueIds_moved (h : UniqueIds sessions) :
    UniqueIds (moved sessions session_id parent_session_id) :=
  uniqueIds_map (keepsIds_update fun _ => rfl) h

theorem link_moved_of_ne {u : Id} (hu : u ≠ session_id) :
    link (moved sessions session_id parent_session_id) u = link sessions u := by
  unfold link
  rw [find_session_moved, Option.map_map]
  cases hfind : find_session sessions u with
  | none => rfl
  | some other =>
    have hid := (find_session_mem hfind).2
    simp [hid, hu]

theorem relinked_moved
    (h : can_append_session_to_stack (enough sessions) sessions session_id parent_session_id
      = some true) :
    Relinked (link sessions) (link (moved sessions session_id parent_session_id)) := by
  obtain ⟨hne, ⟨session, hfind, -⟩, hleaf, hcreate⟩ := of_can_append h
  obtain ⟨c, hc, hlength⟩ := chain_of_can_create hcreate
  refine .leaf session_id parent_session_id c (fun u => link_moved_of_ne)
    (link_ne_of_no_child hleaf) ?_ hne hc hlength
  have hid := (find_session_mem hfind).2
  simp [link, find_session_moved, hfind, hid]

def created (sessions : List (Session Id)) (parent_session_id session_id : Id)
    (role : SessionRole) : List (Session Id) :=
  sessions ++ [⟨session_id, some parent_session_id, .Draft, role, true, "", false⟩]

variable {role : SessionRole}

theorem link_created_of_ne {u : Id} (hu : u ≠ session_id) :
    link (created sessions parent_session_id session_id role) u = link sessions u := by
  unfold link find_session created
  simp [Ne.symm hu]

theorem relinked_created
    (h : can_create_stacked_child (enough sessions) sessions parent_session_id = some true)
    (hnew : ∀ session ∈ sessions, session.id ≠ session_id ∧
      session.parent_session_id ≠ some session_id) :
    Relinked (link sessions) (link (created sessions parent_session_id session_id role)) := by
  obtain ⟨c, hc, hlength⟩ := chain_of_can_create h
  obtain ⟨parent, hparent⟩ := find_session_of_chain hc
  have hne : parent_session_id ≠ session_id := by
    obtain ⟨hmem, hid⟩ := find_session_mem hparent
    rw [← hid]
    exact (hnew parent hmem).1
  have hnone : sessions.find? (fun session => decide (session.id = session_id)) = none := by
    apply find?_eq_none.mpr
    intro session hs
    simpa using (hnew session hs).1
  refine .leaf session_id parent_session_id c (fun u => link_created_of_ne)
    (link_ne_of_no_child fun session hs => (hnew session hs).2) ?_ hne hc hlength
  simp [link, created, find_session, find?_append, hnone]

/-- The list after the children of a session became roots. -/
def released (sessions : List (Session Id)) (session_id : Id) : List (Session Id) :=
  sessions.map fun session =>
    if session.parent_session_id = some session_id then
      { session with parent_session_id := none }
    else session

theorem released_id (session_id : Id) : KeepsIds fun session =>
    if session.parent_session_id = some session_id then
      { session with parent_session_id := none }
    else session := by
  intro session
  dsimp only
  split <;> rfl

theorem cut_released (h : Chain (link sessions) session_id c) (u : Id)
    (hu : link (released sessions session_id) u ≠ link sessions u) :
    link (released sessions session_id) u = some none ∧ ∃ c, Chain (link sessions) u c := by
  have hfound := @find_session_map Id _ sessions _ (released_id session_id) u
  cases hfind : find_session sessions u with
  | none =>
    refine absurd ?_ hu
    simp only [link, released, hfound, hfind, Option.map_none]
  | some session =>
    rw [hfind] at hfound
    by_cases hparent : session.parent_session_id = some session_id
    · refine ⟨?_, u :: c, .up ?_ h⟩
      · simp [link, released, hfound, hparent]
      · simp [link, hfind, hparent]
    · refine absurd ?_ hu
      simp [link, released, hfound, hfind, hparent]

theorem keepsTree_sync (parent_session_id : Id) :
    KeepsTree fun session => if rebaseable_child parent_session_id session then
      { session with status := .Rebasing } else session := by
  constructor <;> (intro session; beta_reduce; split_ifs <;> rfl)

variable {label : Label Id}

theorem step_relinked (hunique : UniqueIds sessions) (h : step sessions label = some sessions') :
    UniqueIds sessions' ∧ Relinked (link sessions) (link sessions') := by
  cases label with
  | create =>
    obtain ⟨⟨hcreate, hnew⟩, ⟨⟩⟩ := Option.ite_none_right_eq_some.mp h
    refine ⟨?_, relinked_created hcreate hnew⟩
    unfold UniqueIds
    rw [map_append, nodup_append]
    refine ⟨hunique, nodup_singleton _, ?_⟩
    intro a ha b hb
    obtain ⟨session, hs, rfl⟩ := mem_map.mp ha
    rw [mem_singleton.mp hb]
    exact (hnew session hs).1
  | append session_id parent_session_id =>
    obtain ⟨hgate, h⟩ := Option.ite_none_right_eq_some.mp h
    split at h
    · cases h
      refine ⟨uniqueIds_apply_status (uniqueIds_moved hunique) _ _, ?_⟩
      rw [funext (link_apply_status session_id SessionStatus.Rebasing)]
      exact relinked_moved hgate
    · cases h
      exact ⟨hunique, .same fun _ => rfl⟩
  | work | complete =>
    obtain ⟨-, ⟨⟩⟩ := Option.ite_none_right_eq_some.mp h
    exact ⟨uniqueIds_apply_status hunique _ _, .same (link_apply_status _ _)⟩
  | finish_merge session_id =>
    obtain ⟨⟨-, hdepth⟩, ⟨⟩⟩ := Option.ite_none_right_eq_some.mp h
    refine ⟨uniqueIds_map (released_id session_id) (uniqueIds_apply_status hunique _ _), ?_⟩
    obtain ⟨c, hc⟩ := chain_of_depth hdepth
    rw [← funext (link_apply_status session_id SessionStatus.Done)] at hc ⊢
    exact .cut (cut_released hc)
  | sync_children parent_session_id =>
    obtain ⟨-, ⟨⟩⟩ := Option.ite_none_right_eq_some.mp h
    have hsync := keepsTree_sync parent_session_id
    exact ⟨uniqueIds_map hsync.id hunique, .same (link_map hsync)⟩

/-! ## Depth and cycles -/

/-- Every query has a result. -/
structure QueriesEnd (fuel : Nat) (sessions : List (Session Id)) : Prop where
  depth : ∀ session_id, (session_stack_depth fuel sessions session_id).isSome
  root : ∀ session, (stack_root_session fuel sessions session).isSome
  stack : ∀ session_id, (SessionStack.for_session fuel sessions session_id).isSome
  descendant : ∀ session_id stack,
    SessionStack.for_session fuel sessions session_id = some (some stack) →
      ∀ session ∈ stack.members, ∀ ancestor,
        (session_is_descendant_of fuel stack.members session ancestor).isSome
  create : ∀ session_id, (can_create_stacked_child fuel sessions session_id).isSome
  append : ∀ session_id parent_session_id,
    (can_append_session_to_stack fuel sessions session_id parent_session_id).isSome
  start : ∀ session_id, (can_start_staged_session_in_stack fuel sessions session_id).isSome
  mutate : ∀ session_id, (can_mutate_session_branch_in_stack fuel sessions session_id).isSome
  merge : ∀ session_id, (can_merge_session_branch_in_stack fuel sessions session_id).isSome
  rebase : ∀ session_id, (can_rebase_session_branch_in_stack fuel sessions session_id).isSome
  reply : ∀ session_id, (can_reply_to_session_in_stack fuel sessions session_id).isSome
  reserved : ∀ session_id is_reserved,
    (has_reserved_branch_work_in_stack fuel sessions session_id is_reserved).isSome

theorem queries_end (hunique : UniqueIds sessions) (hfuel : sessions.length < fuel) :
    QueriesEnd fuel sessions where
  depth := session_stack_depth_ends hfuel
  root := stack_root_session_ends hfuel
  stack := for_session_ends hfuel
  descendant _ _ hstack _ hs ancestor := member_descendant_ends hfuel hunique hstack hs ancestor
  create := can_create_stacked_child_ends hfuel
  append := can_append_ends hfuel
  start session_id := by
    unfold can_start_staged_session_in_stack
    rw [Option.isSome_map]
    exact for_session_ends hfuel session_id
  mutate := can_mutate_ends hfuel hunique
  merge _ := gate_ends hfuel fun _ _ => rfl
  rebase := can_rebase_ends hfuel
  reply _ := gate_ends hfuel fun _ _ => rfl
  reserved session_id _ := by
    unfold has_reserved_branch_work_in_stack
    rw [Option.isSome_map]
    exact for_session_ends hfuel session_id

/-- The operations of a run keep the ids unique, the parents free of cycles, and the stacks
within the greatest depth. -/
theorem run_keeps_stacks (hunique : UniqueIds sessions)
    (h : Machine.Reaches step Machine.anyStep sessions sessions') :
    UniqueIds sessions' ∧ (Acyclic (link sessions) → Acyclic (link sessions')) ∧
      (Bounded sessions → Bounded sessions') := by
  apply h.invariant (fun sessions' => UniqueIds sessions' ∧
    (Acyclic (link sessions) → Acyclic (link sessions')) ∧ (Bounded sessions → Bounded sessions'))
  · exact ⟨hunique, id, id⟩
  · rintro s label s' ⟨hids, hacyclic, hbounded⟩ - hstep
    obtain ⟨hids', hrelinked⟩ := step_relinked hids hstep
    refine ⟨hids', ?_, ?_⟩
    · intro hold
      exact hrelinked.acyclic (hacyclic hold)
    · intro hold
      exact hrelinked.bounded (hbounded hold)

/-- For loaded sessions with unique ids and arbitrary parents: every query ends; the depth is
`d` exactly if the parent chain is loaded, has no cycle and has length `d`; and the operations
that the gates admit keep the parents free of cycles and the stacks within the greatest
depth. -/
theorem stack_queries_are_sound (sessions : List (Session Id)) (hunique : UniqueIds sessions) :
    (∀ fuel, sessions.length < fuel →
      QueriesEnd fuel sessions ∧
      ∀ session_id d, session_stack_depth fuel sessions session_id = some (some d) ↔
        ∃ c, Chain (link sessions) session_id c ∧ c.Nodup ∧ c.length = d + 1) ∧
    ∀ sessions', Machine.Reaches step Machine.anyStep sessions sessions' →
      (Acyclic (link sessions) → Acyclic (link sessions')) ∧
        (Bounded sessions → Bounded sessions') := by
  refine ⟨?_, ?_⟩
  · intro fuel hfuel
    refine ⟨queries_end hunique hfuel, ?_⟩
    intro session_id d
    rw [session_stack_depth_eq_some_iff hfuel]
    constructor
    · rintro ⟨c, hc, hlength⟩
      exact ⟨c, hc, hc.nodup, hlength⟩
    · rintro ⟨c, hc, -, hlength⟩
      exact ⟨c, hc, hlength⟩
  · intro sessions' h
    exact (run_keeps_stacks hunique h).2

/-- A session in review. -/
def Session.reviewed (session_id : Nat) (parent_session_id : Option Nat) : Session Nat :=
  ⟨session_id, parent_session_id, .Review, .Worker, false, "", false⟩

/-- A stack of two sessions, a cycle, and a session whose parent is missing. -/
theorem stack_queries_are_sound_cycle :
    let sessions := [Session.reviewed 0 none, .reviewed 1 (some 0), .reviewed 2 (some 3),
      .reviewed 3 (some 2), .reviewed 4 (some 9)]
    QueriesEnd (enough sessions) sessions ∧
      session_stack_depth (enough sessions) sessions 1 = some (some 1) ∧
      session_stack_depth (enough sessions) sessions 2 = some none ∧
      session_stack_depth (enough sessions) sessions 4 = some none := by
  intro sessions
  have hunique : UniqueIds sessions := by
    unfold UniqueIds
    decide
  have hsound := (stack_queries_are_sound sessions hunique).1 (enough sessions) (by decide)
  exact ⟨hsound.1, by decide, by decide, by decide⟩

/-! ## One branch worker in a stack -/

/-- No two members of a stack work on a branch. -/
def OneWorker (sessions : List (Session Id)) : Prop :=
  ∀ s ∈ sessions, ∀ t ∈ sessions, ∀ r, Root (link sessions) s.id r → Root (link sessions) t.id r →
    s.status.is_stack_branch_mutating = true → t.status.is_stack_branch_mutating = true →
      s.id = t.id

/-- No other member of the stack of a session works on a branch. -/
def Quiet (sessions : List (Session Id)) (session_id : Id) : Prop :=
  ∀ r, Root (link sessions) session_id r → ∀ t ∈ sessions, t.id ≠ session_id →
    Root (link sessions) t.id r → t.status.is_stack_branch_mutating = false

/-- A session starts to work in a stack that is quiet, and no other starts. -/
theorem oneWorker_map {x : Id} (hg : KeepsTree g) (hold : OneWorker sessions)
    (hnew : ∀ s ∈ sessions, (g s).status.is_stack_branch_mutating = true →
      s.status.is_stack_branch_mutating = true ∨ (s.id = x ∧ Quiet sessions x)) :
    OneWorker (sessions.map g) := by
  intro s' hs' t' ht' r hs hr hmutates htmutates
  obtain ⟨s, hsmem, rfl⟩ := mem_map.mp hs'
  obtain ⟨t, htmem, rfl⟩ := mem_map.mp ht'
  rw [funext (link_map hg), hg.id] at hs hr
  rw [hg.id, hg.id]
  by_contra hne
  rcases hnew s hsmem hmutates with hsold | ⟨rfl, hquiet⟩
  · rcases hnew t htmem htmutates with htold | ⟨rfl, hquiet⟩
    · exact hne (hold s hsmem t htmem r hs hr hsold htold)
    · simp [hquiet r hr s hsmem hne hs] at hsold
  · rcases hnew t htmem htmutates with htold | ⟨htid, -⟩
    · simp [hquiet r hs t htmem (Ne.symm hne) hr] at htold
    · exact hne htid.symm

variable {status : SessionStatus}

theorem oneWorker_apply_status (hold : OneWorker sessions)
    (h : status.is_stack_branch_mutating = false ∨ Quiet sessions session_id) :
    OneWorker (apply_status sessions session_id status) := by
  apply oneWorker_map (x := session_id) (keepsTree_apply_status session_id status) hold
  intro s _ hmutates
  split_ifs at hmutates with hid
  · rcases h with hidle | hquiet
    · rw [hidle] at hmutates
      cases hmutates
    · exact .inr ⟨hid, hquiet⟩
  · exact .inl hmutates
  · exact .inl hmutates

section

variable (hunique : UniqueIds sessions)

include hunique

/-- A stack without another worker is quiet. -/
theorem quiet_of_for_session
    (h : SessionStack.for_session (enough sessions) sessions session_id = some (some stack))
    (hidle : stack.has_branch_mutating_member_except session_id = false) :
    Quiet sessions session_id := by
  obtain ⟨-, r', hr', hmembers⟩ :=
    for_session_eq_some (Nat.lt_succ_self sessions.length) hunique h
  intro r hr t ht hne htr
  rw [hr.unique hr'] at htr
  have hmember := (hmembers t).mpr ⟨ht, htr⟩
  simp only [SessionStack.has_branch_mutating_member_except, any_eq_false, Bool.and_eq_true,
    decide_eq_true_eq, not_and, Bool.not_eq_true] at hidle
  exact hidle t hmember hne

theorem quiet_of_gate {further : SessionStack Id → Option Bool}
    (h : gate (enough sessions) sessions session_id further = some true) :
    Quiet sessions session_id := by
  obtain ⟨stack?, hstack, h⟩ := Option.bind_eq_some_iff.mp h
  cases stack? with
  | none => cases h
  | some stack =>
    dsimp only at h
    split at h
    · cases h
    · next hidle => exact quiet_of_for_session hunique hstack (by simpa using hidle)

/-- A draft with a parent is started in a quiet stack. -/
theorem quiet_of_can_start
    (hroot : ∀ session, find_session sessions session_id = some session →
      session.parent_session_id = none → Quiet sessions session_id)
    (h : can_start_staged_session_in_stack (enough sessions) sessions session_id = some true) :
    Quiet sessions session_id := by
  obtain ⟨stack?, hstack, h⟩ := Option.map_eq_some_iff.mp h
  cases stack? with
  | none => cases h
  | some stack =>
    dsimp only at h
    split at h
    · cases h
    split at h
    · next hparent =>
      have hfind :=
        (for_session_eq_some (Nat.lt_succ_self sessions.length) hunique hstack).1
      exact hroot _ hfind (Option.isNone_iff_eq_none.mp hparent)
    split at h
    · cases h
    · exact quiet_of_for_session hunique hstack (by simpa using h)

/-- The two operations that do not look at the stack are made where it is quiet: a root draft
is started while no other member works, and a turn of a parent syncs one child at most, while
no other member works. -/
def Alone (sessions : List (Session Id)) : Label Id → Prop
  | .work session_id .start_staged_session =>
    ∀ session, find_session sessions session_id = some session →
      session.parent_session_id = none → Quiet sessions session_id
  | .sync_children parent_session_id =>
    ∀ s ∈ sessions, rebaseable_child parent_session_id s = true →
      Quiet sessions s.id ∧
        ∀ t ∈ sessions, rebaseable_child parent_session_id t = true → t.id = s.id
  | _ => True

end

/-- A session that works on no branch is linked anew. -/
theorem oneWorker_of_leaf {x : Id} (hold : OneWorker sessions)
    (hoff : ∀ u, u ≠ x → link sessions' u = link sessions u)
    (hleaf : ∀ u, link sessions u ≠ some (some x))
    (hmem : ∀ s ∈ sessions', s.status.is_stack_branch_mutating = true → s.id ≠ x ∧ s ∈ sessions) :
    OneWorker sessions' := by
  intro s hs t ht r hsr htr hsmutates htmutates
  obtain ⟨hsx, hs⟩ := hmem s hs hsmutates
  obtain ⟨htx, ht⟩ := hmem t ht htmutates
  rw [root_iff_of_leaf hoff hleaf hsx] at hsr
  rw [root_iff_of_leaf hoff hleaf htx] at htr
  exact hold s hs t ht r hsr htr hsmutates htmutates

theorem oneWorker_moved (hunique : UniqueIds sessions) (hold : OneWorker sessions)
    (h : can_append_session_to_stack (enough sessions) sessions session_id parent_session_id
      = some true) :
    OneWorker (moved sessions session_id parent_session_id) := by
  obtain ⟨-, ⟨session, hfind, hreview⟩, hleaf, -⟩ := of_can_append h
  apply oneWorker_of_leaf hold (fun u => link_moved_of_ne) (link_ne_of_no_child hleaf)
  intro s' hs' hmutates
  obtain ⟨s, hs, rfl⟩ := mem_map.mp hs'
  by_cases hid : s.id = session_id
  · -- the session that is moved is in review
    have hsame := find_session_of_mem hunique hs
    rw [hid, hfind] at hsame
    cases hsame
    rw [if_pos hid] at hmutates
    cases hstatus : session.status <;>
      simp [hstatus, SessionStatus.allows_review_actions,
        SessionStatus.is_stack_branch_mutating] at hreview hmutates
  · rw [if_neg hid]
    exact ⟨hid, hs⟩

theorem oneWorker_created (hold : OneWorker sessions)
    (hnew : ∀ session ∈ sessions, session.id ≠ session_id ∧
      session.parent_session_id ≠ some session_id) :
    OneWorker (created sessions parent_session_id session_id role) := by
  apply oneWorker_of_leaf hold (fun u => link_created_of_ne)
    (link_ne_of_no_child fun session hs => (hnew session hs).2)
  intro s hs hmutates
  rcases mem_append.mp hs with hs | hs
  · exact ⟨(hnew s hs).1, hs⟩
  · rw [mem_singleton.mp hs] at hmutates
    cases hmutates

theorem oneWorker_released (hc : Chain (link sessions) session_id c) (hold : OneWorker sessions) :
    OneWorker (released sessions session_id) := by
  intro s' hs' t' ht' r' hs hr hmutates htmutates
  obtain ⟨s, hsmem, rfl⟩ := mem_map.mp hs'
  obtain ⟨t, htmem, rfl⟩ := mem_map.mp ht'
  rw [released_id] at hs hr
  rw [released_id, released_id]
  have hstatus : ∀ session : Session Id, (if session.parent_session_id = some session_id then
      { session with parent_session_id := none } else session).status = session.status := by
    intro session
    split <;> rfl
  rw [hstatus] at hmutates htmutates
  -- what has one root now had one root before
  obtain ⟨r, hsr, hroot⟩ := hs.of_cut (cut_released hc)
  obtain ⟨q, htq, hroot'⟩ := hr.of_cut (cut_released hc)
  rw [← hroot.unique hroot'] at htq
  exact hold s hsmem t htmem r hsr htq hmutates htmutates

theorem oneWorker_sync_children (hold : OneWorker sessions)
    (hk : Alone sessions (.sync_children parent_session_id)) :
    OneWorker (sessions.map fun session =>
      if rebaseable_child parent_session_id session then
        { session with status := .Rebasing }
      else session) := by
  have hsync := keepsTree_sync parent_session_id
  by_cases hchild : ∃ s ∈ sessions, rebaseable_child parent_session_id s = true
  · obtain ⟨child, hmem, hchild⟩ := hchild
    obtain ⟨hquiet, honly⟩ := hk child hmem hchild
    apply oneWorker_map (x := child.id) hsync hold
    intro s hs hmutates
    split at hmutates
    · next hs' => exact .inr ⟨honly s hs hs', hquiet⟩
    · exact .inl hmutates
  · apply oneWorker_map (x := parent_session_id) hsync hold
    intro s hs hmutates
    split at hmutates
    · next hs' => exact absurd ⟨s, hs, hs'⟩ hchild
    · exact .inl hmutates

/-- A worker that goes on with another status stays the only one. -/
theorem oneWorker_complete (hold : OneWorker sessions)
    (h : status.is_stack_branch_mutating = false ∨
      (find_session sessions session_id).any fun session =>
        session.status.is_stack_branch_mutating) :
    OneWorker (apply_status sessions session_id status) := by
  rcases h with hidle | hworks
  · exact oneWorker_apply_status hold (.inl hidle)
  · obtain ⟨session, hfind, hworks⟩ := (Option.any_eq_true _ _).mp hworks
    obtain ⟨hmem, hid⟩ := find_session_mem hfind
    apply oneWorker_apply_status hold
    right
    intro r hr t ht hne htr
    by_contra hmutates
    rw [Bool.not_eq_false] at hmutates
    rw [← hid] at hr hne
    exact hne (hold t ht session hmem r htr hr hmutates hworks)

theorem OneWorker.step (hunique : UniqueIds sessions) (hold : OneWorker sessions)
    (hk : Alone sessions label) (h : step sessions label = some sessions') :
    OneWorker sessions' := by
  cases label with
  | create =>
    obtain ⟨⟨-, hnew⟩, ⟨⟩⟩ := Option.ite_none_right_eq_some.mp h
    exact oneWorker_created hold hnew
  | append session_id parent_session_id =>
    obtain ⟨hgate, h⟩ := Option.ite_none_right_eq_some.mp h
    split at h
    · next hrebase =>
      cases h
      apply oneWorker_apply_status (oneWorker_moved hunique hold hgate)
      exact .inr (quiet_of_gate (uniqueIds_moved hunique) hrebase)
    · cases h
      exact hold
  | work _ work =>
    obtain ⟨hgate, ⟨⟩⟩ := Option.ite_none_right_eq_some.mp h
    refine oneWorker_apply_status hold (.inr ?_)
    cases work with
    | start_staged_session => exact quiet_of_can_start hunique hk hgate
    | mutate | merge | rebase | reply => exact quiet_of_gate hunique hgate
  | complete =>
    obtain ⟨hstatus, ⟨⟩⟩ := Option.ite_none_right_eq_some.mp h
    exact oneWorker_complete hold hstatus
  | finish_merge session_id =>
    obtain ⟨⟨-, hdepth⟩, ⟨⟩⟩ := Option.ite_none_right_eq_some.mp h
    obtain ⟨c, hc⟩ := chain_of_depth hdepth
    rw [← funext (link_apply_status session_id SessionStatus.Done)] at hc
    exact oneWorker_released hc (oneWorker_apply_status hold (.inl rfl))
  | sync_children =>
    obtain ⟨-, ⟨⟩⟩ := Option.ite_none_right_eq_some.mp h
    exact oneWorker_sync_children hold hk

/-- In every run in which the starts of root drafts and the syncs of children find a quiet
stack, no two members of a stack work on a branch. -/
theorem one_worker_in_each_stack (sessions : List (Session Id)) (hunique : UniqueIds sessions)
    (hold : OneWorker sessions) (sessions' : List (Session Id))
    (h : Machine.Reaches step Alone sessions sessions') : OneWorker sessions' := by
  have hs : UniqueIds sessions' ∧ OneWorker sessions' := by
    apply h.invariant (fun sessions => UniqueIds sessions ∧ OneWorker sessions) ⟨hunique, hold⟩
    rintro s label s' ⟨hids, hone⟩ hk hstep
    exact ⟨(step_relinked hids hstep).1, hone.step hids hk hstep⟩
  exact hs.2

theorem oneWorker_of_idle (h : ∀ s ∈ sessions, s.status.is_stack_branch_mutating = false) :
    OneWorker sessions := by
  intro s hs _ _ _ _ _ hmutates
  rw [h s hs] at hmutates
  cases hmutates

/-- A child is synced beside a parent in review, and then the parent gets a reply. -/
theorem one_worker_in_each_stack_reply :
    ∃ sessions', Machine.Reaches step Alone [Session.reviewed 0 none, .reviewed 1 (some 0)]
        sessions' ∧
      sessions'.map Session.status = [.InProgress, .Review] ∧ OneWorker sessions' := by
  have hids : UniqueIds [Session.reviewed 0 none, .reviewed 1 (some 0)] := by
    unfold UniqueIds
    decide
  have hidle : OneWorker [Session.reviewed 0 none, .reviewed 1 (some 0)] :=
    oneWorker_of_idle (by decide)
  have hrun : (Machine.run step (fun _ label => match label with
      | .work _ .start_staged_session | .sync_children _ => false
      | _ => true) [Session.reviewed 0 none, .reviewed 1 (some 0)]
      [.work 1 .rebase, .complete 1 .Review, .work 0 .reply]).any
      (fun sessions => sessions.map Session.status = [.InProgress, .Review]) = true := by
    decide +kernel
  obtain ⟨sessions', hreaches, hstatus⟩ := Machine.exists_reaches_of_run (K := Alone)
    (by
      intro s label hlabel
      cases label with
      | work session_id work =>
        cases work with
        | start_staged_session => cases hlabel
        | _ => trivial
      | sync_children => cases hlabel
      | _ => trivial) hrun
  exact ⟨sessions', hreaches, hstatus,
    one_worker_in_each_stack _ hids hidle sessions' hreaches⟩

/-- A draft without a parent, with a prompt. -/
def Session.root_draft (session_id : Nat) : Session Nat :=
  ⟨session_id, none, .Draft, .Worker, true, "prompt", false⟩

/-- A root draft is started beside a child that works; and a turn of a parent is followed by
the syncs of both its children. -/
theorem two_workers_in_one_stack :
    (∃ sessions sessions' : List (Session Nat), UniqueIds sessions ∧ OneWorker sessions ∧
      step sessions (.work 0 .start_staged_session) = some sessions' ∧ ¬ OneWorker sessions') ∧
    (∃ sessions sessions' : List (Session Nat), UniqueIds sessions ∧ OneWorker sessions ∧
      Machine.run step (fun _ _ => true) sessions
        [.work 0 .reply, .complete 0 .Review, .sync_children 0] = some sessions' ∧
      ¬ OneWorker sessions') := by
  refine ⟨⟨[.root_draft 0, { Session.reviewed 1 (some 0) with status := .InProgress }],
    [{ Session.root_draft 0 with status := .InProgress },
      { Session.reviewed 1 (some 0) with status := .InProgress }], ?_, ?_, by decide +kernel, ?_⟩,
    ⟨[.reviewed 0 none, .reviewed 1 (some 0), .reviewed 2 (some 0)],
    [.reviewed 0 none, { Session.reviewed 1 (some 0) with status := .Rebasing },
      { Session.reviewed 2 (some 0) with status := .Rebasing }], ?_, oneWorker_of_idle (by decide),
      by decide +kernel, ?_⟩⟩
  · unfold UniqueIds
    decide
  · -- only the child works
    intro s hs t ht r _ _ hsmutates htmutates
    simp only [mem_cons, not_mem_nil, or_false] at hs ht
    rcases hs with rfl | rfl
    · cases hsmutates
    · rcases ht with rfl | rfl
      · cases htmutates
      · rfl
  · intro h
    have heq := h _ mem_cons_self _ (mem_cons_of_mem _ mem_cons_self) 0
      ⟨[0], .root rfl, rfl⟩ ⟨[1, 0], .up rfl (.root rfl), rfl⟩ rfl rfl
    cases heq
  · unfold UniqueIds
    decide
  · intro h
    have heq := h _ (mem_cons_of_mem _ mem_cons_self)
      _ (mem_cons_of_mem _ (mem_cons_of_mem _ mem_cons_self)) 0
      ⟨[1, 0], .up rfl (.root rfl), rfl⟩ ⟨[2, 0], .up rfl (.root rfl), rfl⟩ rfl rfl
    cases heq

end Agentty.Stack
