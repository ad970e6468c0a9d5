/-
Stacked sessions, and the gates of branch work in a stack.

A session may have a parent session, on whose branch its own is based. The parents of the
loaded sessions are not validated: a parent may be missing, and the parents may form a cycle.
A stack is the set of sessions with a common root. The gates decide, from the loaded sessions,
whether a child may be created, a session appended, and branch work started.

Each query walks up the parents in a loop, which is modelled with a number of turns (`fuel`);
a query that does not end has no result. What no query reads is left out of a session. The
gates of the session manager also refuse while another member of the stack holds a
preparation reservation; they admit no more than those here.
-/
import Agentty.Loop
import Agentty.ParentChain
import Agentty.Machine
import Agentty.Orchestration.Calls

set_option autoImplicit false

namespace Agentty.Orchestration

namespace SessionStatus

def allows_review_actions : SessionStatus → Bool
  | .Review | .AgentReview => true
  | _ => false

def allows_stacked_child_start (status : SessionStatus) : Bool := status.allows_review_actions

def is_stack_branch_mutating : SessionStatus → Bool
  | .InProgress | .Question | .Queued | .Rebasing | .Merging | .Merged => true
  | _ => false

end SessionStatus

namespace SessionRole

def owns_branch_changes : SessionRole → Bool
  | .Worker | .OrchestrationWorker => true
  | _ => false

def accepts_user_turns (role : SessionRole) : Bool := !role.is_managed

end SessionRole

end Agentty.Orchestration

namespace Agentty.Stack

open Orchestration (SessionStatus SessionRole)

structure Session (Id : Type) where
  id : Id
  parent_session_id : Option Id
  status : SessionStatus
  role : SessionRole
  is_draft : Bool
  prompt : String
  /-- `review_request.is_some()` -/
  has_review_request : Bool
  deriving DecidableEq, Repr

namespace Session

variable {Id : Type}

def has_staged_drafts (session : Session Id) : Bool :=
  session.is_draft && decide (session.status = .Draft) && !session.prompt.isEmpty

def can_start_staged_session (session : Session Id) : Bool :=
  session.is_draft && decide (session.status = .Draft) && session.has_staged_drafts

def allows_stacked_child_creation (session : Session Id) : Bool :=
  if session.is_draft && decide (session.status = .Draft) && session.parent_session_id.isNone then
    false
  else
    match session.status with
    | .Merged | .Done | .Canceled => false
    | _ => true

def allows_stack_append (session : Session Id) : Bool :=
  session.role.accepts_user_turns && session.role.owns_branch_changes &&
    session.parent_session_id.isNone && !session.has_review_request &&
    session.status.allows_review_actions

end Session

def MAX_STACK_DEPTH : Nat := 5

section

variable {Id : Type} [DecidableEq Id]

def find_session (sessions : List (Session Id)) (session_id : Id) : Option (Session Id) :=
  sessions.find? fun session => decide (session.id = session_id)

/-! ## The queries -/

/-- The variables of the loop of `session_stack_depth`. -/
structure DepthLoop (Id : Type) where
  current_session : Session Id
  visited_session_ids : List Id
  depth : Nat

def depth_body (sessions : List (Session Id)) (s : DepthLoop Id) : DepthLoop Id ⊕ Option Nat :=
  match s.current_session.parent_session_id with
  | none =>
    .inr (if s.current_session.id ∈ s.visited_session_ids then none else some s.depth)
  | some parent_session_id =>
    if s.current_session.id ∈ s.visited_session_ids then .inr none
    else
      match find_session sessions parent_session_id with
      | none => .inr none
      | some parent =>
        .inl ⟨parent, s.visited_session_ids ++ [s.current_session.id], s.depth + 1⟩

def session_stack_depth (fuel : Nat) (sessions : List (Session Id)) (session_id : Id) :
    Option (Option Nat) :=
  match find_session sessions session_id with
  | none => some none
  | some session => loop (depth_body sessions) fuel ⟨session, [], 0⟩

/-- The ancestor so many levels up. -/
def walk (sessions : List (Session Id)) : Nat → Session Id → Option (Session Id)
  | 0, session => some session
  | depth + 1, session =>
    (session.parent_session_id.bind (find_session sessions)).bind (walk sessions depth)

def stack_root_session (fuel : Nat) (sessions : List (Session Id)) (session : Session Id) :
    Option (Option (Session Id)) :=
  (session_stack_depth fuel sessions session.id).map fun depth =>
    depth.bind fun depth => walk sessions depth session

def session_stack_root_id (fuel : Nat) (sessions : List (Session Id)) (session : Session Id) :
    Option (Option Id) :=
  (stack_root_session fuel sessions session).map fun root => root.map Session.id

def descendant_body (members : List (Session Id)) (ancestor_session_id : Id)
    (current_session : Session Id) : Session Id ⊕ Bool :=
  match current_session.parent_session_id with
  | none => .inr false
  | some parent_session_id =>
    if parent_session_id = ancestor_session_id then .inr true
    else
      match find_session members parent_session_id with
      | none => .inr false
      | some parent => .inl parent

def session_is_descendant_of (fuel : Nat) (members : List (Session Id)) (session : Session Id)
    (ancestor_session_id : Id) : Option Bool :=
  loop (descendant_body members ancestor_session_id) fuel session

structure SessionStack (Id : Type) where
  members : List (Session Id)
  requested_session : Session Id

namespace SessionStack

def for_session (fuel : Nat) (sessions : List (Session Id)) (session_id : Id) :
    Option (Option (SessionStack Id)) :=
  match find_session sessions session_id with
  | none => some none
  | some requested_session =>
    (stack_root_session fuel sessions requested_session).bind fun
      | none => some none
      | some root_session =>
        (sessions.filterM fun session =>
          (session_stack_root_id fuel sessions session).map fun root_id =>
            decide (root_id = some root_session.id)).map fun members =>
          some ⟨members, requested_session⟩

def has_branch_mutating_member_except (stack : SessionStack Id) (ignored_session_id : Id) : Bool :=
  stack.members.any fun session =>
    decide (session.id ≠ ignored_session_id) && session.status.is_stack_branch_mutating

/-- A status of a branch that was not started or is finished. -/
def unmaterialized : SessionStatus → Bool
  | .Draft | .Merged | .Done | .Canceled => true
  | _ => false

def has_materialized_descendant (fuel : Nat) (stack : SessionStack Id) : Option Bool :=
  stack.members.anyM fun session =>
    if session.id ≠ stack.requested_session.id then
      (session_is_descendant_of fuel stack.members session stack.requested_session.id).map
        fun descends => descends && !unmaterialized session.status
    else some false

def parent_allows_stacked_child_start (stack : SessionStack Id) : Bool :=
  stack.requested_session.parent_session_id.any fun parent_session_id =>
    stack.members.any fun session =>
      decide (session.id = parent_session_id) && session.status.allows_stacked_child_start

end SessionStack

/-! ## The gates -/

def can_create_stacked_child (fuel : Nat) (sessions : List (Session Id))
    (parent_session_id : Id) : Option Bool :=
  match find_session sessions parent_session_id with
  | none => some false
  | some parent_session =>
    if parent_session.allows_stacked_child_creation then
      (session_stack_depth fuel sessions parent_session_id).map fun depth =>
        depth.any fun depth => decide (depth < MAX_STACK_DEPTH)
    else some false

/-- The gate that a session passes while no other member of its stack works on a branch, with
a further condition on the stack. -/
def gate (fuel : Nat) (sessions : List (Session Id)) (session_id : Id)
    (further : SessionStack Id → Option Bool) : Option Bool :=
  (SessionStack.for_session fuel sessions session_id).bind fun
    | none => some false
    | some stack =>
      if stack.has_branch_mutating_member_except session_id then some false else further stack

def can_mutate_session_branch_in_stack (fuel : Nat) (sessions : List (Session Id))
    (session_id : Id) : Option Bool :=
  gate fuel sessions session_id fun stack =>
    (stack.has_materialized_descendant fuel).map fun materialized => !materialized

def can_merge_session_branch_in_stack (fuel : Nat) (sessions : List (Session Id))
    (session_id : Id) : Option Bool :=
  gate fuel sessions session_id fun stack => some (!stack.requested_session.has_review_request)

def can_rebase_session_branch_in_stack (fuel : Nat) (sessions : List (Session Id))
    (session_id : Id) : Option Bool :=
  gate fuel sessions session_id fun _ => some true

def can_reply_to_session_in_stack (fuel : Nat) (sessions : List (Session Id))
    (session_id : Id) : Option Bool :=
  gate fuel sessions session_id fun _ => some true

/-- A root draft is admitted without a look at the other members. -/
def can_start_staged_session_in_stack (fuel : Nat) (sessions : List (Session Id))
    (session_id : Id) : Option Bool :=
  (SessionStack.for_session fuel sessions session_id).map fun
    | none => false
    | some stack =>
      if stack.requested_session.can_start_staged_session = false then false
      else if stack.requested_session.parent_session_id.isNone then true
      else if stack.parent_allows_stacked_child_start = false then false
      else !stack.has_branch_mutating_member_except session_id

def can_append_session_to_stack (fuel : Nat) (sessions : List (Session Id))
    (session_id parent_session_id : Id) : Option Bool :=
  if session_id = parent_session_id then some false
  else
    match find_session sessions session_id, find_session sessions parent_session_id with
    | some session, some parent_session =>
      if session.allows_stack_append &&
          !(sessions.any fun candidate =>
            decide (candidate.parent_session_id = some session_id)) &&
          parent_session.role.accepts_user_turns && parent_session.role.owns_branch_changes &&
          parent_session.status.allows_review_actions then
        (can_create_stacked_child fuel sessions parent_session_id).bind fun
          | true => can_rebase_session_branch_in_stack fuel sessions parent_session_id
          | false => some false
      else some false
    | _, _ => some false

def has_reserved_branch_work_in_stack (fuel : Nat) (sessions : List (Session Id))
    (session_id : Id) (is_reserved : Id → Bool) : Option Bool :=
  (SessionStack.for_session fuel sessions session_id).map fun
    | none => true
    | some stack => stack.members.any fun member => is_reserved member.id

/-! ## Operations -/

def update (sessions : List (Session Id)) (session_id : Id) (f : Session Id → Session Id) :
    List (Session Id) :=
  sessions.map fun session => if session.id = session_id then f session else session

/-- `StatusTransition::apply` -/
def apply_status (sessions : List (Session Id)) (session_id : Id) (status : SessionStatus) :
    List (Session Id) :=
  update sessions session_id fun session =>
    if session.status.can_transition_to status then { session with status } else session

/-- The turns that suffice for every query. -/
def enough (sessions : List (Session Id)) : Nat := sessions.length + 1

/-- The branch work that a gate admits. -/
inductive Work where
  | start_staged_session
  | mutate
  /-- a merge starts, or waits in the queue -/
  | merge (queued : Bool)
  | rebase
  | reply
  deriving DecidableEq, Repr

def Work.admitted (sessions : List (Session Id)) (session_id : Id) (work : Work) : Option Bool :=
  match work with
  | .start_staged_session => can_start_staged_session_in_stack (enough sessions) sessions session_id
  | .mutate => can_mutate_session_branch_in_stack (enough sessions) sessions session_id
  | .merge _ => can_merge_session_branch_in_stack (enough sessions) sessions session_id
  | .rebase => can_rebase_session_branch_in_stack (enough sessions) sessions session_id
  | .reply => can_reply_to_session_in_stack (enough sessions) sessions session_id

def Work.status : Work → SessionStatus
  | .start_staged_session | .mutate | .reply => .InProgress
  | .merge true => .Queued
  | .merge false => .Merging
  | .rebase => .Rebasing

inductive Label (Id : Type) where
  /-- `create_stacked_draft_session`, with the new id and the role of the settings -/
  | create (parent_session_id session_id : Id) (role : SessionRole)
  /-- `append_session_to_stack`, with the sync that it starts -/
  | append (session_id parent_session_id : Id)
  | work (session_id : Id) (work : Work)
  /-- Branch work ends or goes on with another status, or a session changes without it. -/
  | complete (session_id : Id) (status : SessionStatus)
  /-- A merge is done, and the children of the session become roots. -/
  | finish_merge (session_id : Id)
  /-- `rebase_stacked_children_after_parent_turn` -/
  | sync_children (parent_session_id : Id)
  deriving DecidableEq, Repr

/-- A child that a completed turn of its parent syncs. -/
def rebaseable_child (parent_session_id : Id) (session : Session Id) : Bool :=
  decide (session.parent_session_id = some parent_session_id) &&
    session.status.allows_review_actions

def step (sessions : List (Session Id)) : Label Id → Option (List (Session Id))
  | .create parent_session_id session_id role =>
    -- the id is a new one: no session has it, and none names it as its parent
    if can_create_stacked_child (enough sessions) sessions parent_session_id = some true ∧
        (∀ session ∈ sessions, session.id ≠ session_id ∧
          session.parent_session_id ≠ some session_id) then
      some (sessions ++ [⟨session_id, some parent_session_id, .Draft, role, true, "", false⟩])
    else none
  | .append session_id parent_session_id =>
    if can_append_session_to_stack (enough sessions) sessions session_id parent_session_id =
        some true then
      let moved := update sessions session_id fun session =>
        { session with parent_session_id := some parent_session_id }
      -- the old parent is restored if the sync does not start
      if Work.rebase.admitted moved session_id = some true then
        some (apply_status moved session_id .Rebasing)
      else some sessions
    else none
  | .work session_id work =>
    if work.admitted sessions session_id = some true then
      some (apply_status sessions session_id work.status)
    else none
  | .complete session_id status =>
    if status.is_stack_branch_mutating = false ∨
        (find_session sessions session_id).any fun session =>
          session.status.is_stack_branch_mutating then
      some (apply_status sessions session_id status)
    else none
  | .finish_merge session_id =>
    if (find_session sessions session_id).any (fun session =>
          decide (session.status = .Merging)) ∧
        (session_stack_depth (enough sessions) sessions session_id).any Option.isSome then
      some ((apply_status sessions session_id .Done).map fun session =>
        if session.parent_session_id = some session_id then
          { session with parent_session_id := none }
        else session)
    else none
  | .sync_children parent_session_id =>
    if (find_session sessions parent_session_id).any fun parent =>
      parent.status.allows_review_actions then
      some (sessions.map fun session =>
        if rebaseable_child parent_session_id session then
          { session with status := .Rebasing }
        else session)
    else none

end

end Agentty.Stack
