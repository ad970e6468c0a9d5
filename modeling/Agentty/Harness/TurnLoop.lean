/-
What a run of the engine costs and what it leaves behind.

The model is untrusted: it may answer every request with anything. Whatever it
answers, a turn executes at most as many tools as it is permitted, never starts a
batch that does not fit into what is left, asks the model at most once more than
that and once again for each refused continuation, and a transcript it returns has
the results of every group of calls right behind the group.

Both halves come from one specification of the loop: at its head the number of
completed calls is the number of executed tools, and every iteration that goes on
has executed at least one.
-/
import Agentty.Harness.Engine

set_option autoImplicit false

namespace Agentty.Harness

open List

open Prog (Meets Extends)

/-! ## Transcripts -/

/-- Whether the results of the calls come next, in order, and from then on the
results of every group of calls come right behind it, and no result anywhere else. -/
def paired_from : List ToolCall → List ModelMessage → Bool
  | [], [] => true
  | _ :: _, [] => false
  | call :: calls, .ToolResult call_id _ name :: rest =>
    call_id = call.id && name = call.name && paired_from calls rest
  | _ :: _, _ :: _ => false
  | [], .AssistantToolCall call :: rest => paired_from [call] rest
  | [], .AssistantToolCalls calls :: rest => paired_from calls rest
  | [], .ToolResult _ _ _ :: _ => false
  | [], _ :: rest => paired_from [] rest

/-- Every group of calls is followed immediately by exactly its results. -/
abbrev paired (messages : List ModelMessage) : Bool := paired_from [] messages

variable {messages rest : List ModelMessage}

theorem paired_from_append (hrest : paired rest = true) :
    ∀ calls, paired_from calls messages = true → paired_from calls (messages ++ rest) = true := by
  induction messages with
  | nil =>
    intro calls h
    cases calls with
    | nil => exact hrest
    | cons => cases h
  | cons message messages ih =>
    intro calls h
    cases calls with
    | nil =>
      cases message with
      | ToolResult => cases h
      | _ => exact ih _ h
    | cons =>
      cases message with
      | ToolResult =>
        simp only [paired_from, cons_append, Bool.and_eq_true] at h ⊢
        exact ⟨h.1, ih _ h.2⟩
      | _ => cases h

theorem paired_append (h : paired messages = true) (hrest : paired rest = true) :
    paired (messages ++ rest) = true :=
  paired_from_append hrest [] h

theorem paired_from_results : ∀ (calls : List ToolCall) (contents : List String),
    contents.length = calls.length →
    paired_from calls ((calls.zip contents).map fun result =>
      ModelMessage.ToolResult result.1.id result.2 result.1.name) = true
  | [], [], _ => rfl
  | call :: calls, content :: contents, h => by
      simp only [zip_cons_cons, map_cons, paired_from, decide_true, Bool.true_and]
      exact paired_from_results calls contents (Nat.succ.inj h)

/-! ## What a run has asked for -/

/-- Everything a run has asked for so far, newest first. -/
abbrev EngineLog : Type := Prog.Log EngineCall EngineCall.Reply TurnError

def is_execution : Prog.Event EngineCall EngineCall.Reply TurnError → Bool
  | ⟨.execute_tool _ _, _⟩ => true
  | ⟨.complete _ _, _⟩ => false

def executed (log : EngineLog) : Nat := log.countP is_execution

def requests (log : EngineLog) : Nat := log.countP fun event => !is_execution event

/-- The newest request, when it carried a native continuation and the provider could
not resume it. -/
def refused_resume : EngineLog → Option ModelRequest
  | ⟨.complete request _, .ok (.error .ResumeUnavailable)⟩ :: _ =>
    if request.provider_session_id.isSome then some request else none
  | _ => none

/-- How many iterations of the loop have begun: every request begins one, except the
one right after a refused continuation. -/
def iterations : EngineLog → Nat
  | [] => 0
  | ⟨.complete _ _, _⟩ :: older =>
    if (refused_resume older).isSome then iterations older else iterations older + 1
  | ⟨.execute_tool _ _, _⟩ :: older => iterations older

/-- The call that is next in the newest response: so many of its calls have been
executed since, and all of them fit into the budget that was left. -/
def Due (max_tool_calls : Nat) (log : EngineLog) (call : ToolCall) : Prop :=
  ∃ done request index completion older,
    log = done ++ ⟨.complete request index, .ok (.ok completion)⟩ :: older ∧
    (∀ event ∈ done, is_execution event = true) ∧
    executed older + completion.response.calls.length ≤ max_tool_calls ∧
    completion.response.calls[done.length]? = some call

/-- What the engine may ask for. -/
def Permitted (engine : Engine) (log : EngineLog) : EngineCall → Prop
  | .execute_tool execution call_id =>
    ∃ call read_tool write_tool, Due engine.max_tool_calls log call ∧ call_id = call.id ∧
      Engine.execution read_tool write_tool call = some execution
  | .complete request _ =>
    match refused_resume log with
    | some refused => request = { refused with provider_session_id := none }
    | none => iterations log ≤ engine.max_tool_calls

/-! ### Counting along a run -/

@[simp] theorem executed_complete (request : ModelRequest) (index : Nat)
    (reply : Except TurnError (EngineCall.Reply (.complete request index))) (log : EngineLog) :
    executed (⟨.complete request index, reply⟩ :: log) = executed log := rfl

@[simp] theorem executed_execute_tool (execution : ToolExecution) (call_id : String)
    (reply : Except TurnError (EngineCall.Reply (.execute_tool execution call_id)))
    (log : EngineLog) :
    executed (⟨.execute_tool execution call_id, reply⟩ :: log) = executed log + 1 := by
  rw [executed, countP_cons_of_pos rfl, executed]

@[simp] theorem executed_append (newer older : EngineLog) :
    executed (newer ++ older) = executed newer + executed older := countP_append

variable {log : EngineLog}

theorem executed_of_all (h : ∀ event ∈ log, is_execution event = true) :
    executed log = log.length := countP_eq_length.mpr h

theorem Due.executed_lt {max_tool_calls : Nat} {call : ToolCall} (h : Due max_tool_calls log call) :
    executed log < max_tool_calls := by
  obtain ⟨done, request, index, completion, older, rfl, hdone, hfits, hcall⟩ := h
  have hlt : done.length < completion.response.calls.length :=
    (List.getElem?_eq_some_iff.mp hcall).1
  rw [executed_append, executed_complete, executed_of_all hdone]
  omega

theorem refused_resume_of_none {request : ModelRequest} {index : Nat}
    {reply : Except TurnError (EngineCall.Reply (.complete request index))}
    (h : request.provider_session_id = none) :
    refused_resume (⟨.complete request index, reply⟩ :: log) = none := by
  rcases reply with error | completion
  · rfl
  · change Except ModelError ModelCompletion at completion
    cases completion with
    | ok => rfl
    | error error => cases error <;> simp [refused_resume, h]

/-- What one permitted call does to the counts. -/
structure Counts (engine : Engine) (log : EngineLog) : Prop where
  executed : executed log ≤ engine.max_tool_calls
  iterations : iterations log ≤ engine.max_tool_calls + 1
  /-- A refused continuation leaves room for its replay. -/
  requests : requests log + (if (refused_resume log).isSome then 1 else 0)
    ≤ 2 * Harness.iterations log

variable {engine : Engine}

theorem Counts.step (ih : Counts engine log) (call : EngineCall)
    (reply : Except TurnError (EngineCall.Reply call)) (h : Permitted engine log call) :
    Counts engine (⟨call, reply⟩ :: log) := by
  cases call with
  | execute_tool =>
    obtain ⟨call, -, -, hdue, -⟩ := h
    have hlt := hdue.executed_lt
    refine ⟨by rw [executed_execute_tool]; omega, ih.iterations, ?_⟩
    have hrequests := ih.requests
    show Harness.requests log + 0 ≤ 2 * Harness.iterations log
    omega
  | complete request index =>
    have hcount : Harness.requests (⟨.complete request index, reply⟩ :: log)
        = Harness.requests log + 1 := by
      rw [Harness.requests, countP_cons_of_pos rfl, Harness.requests]
    have hrequests := ih.requests
    cases hrefused : refused_resume log with
    | none =>
      simp only [Permitted, hrefused] at h
      have hit : Harness.iterations (⟨.complete request index, reply⟩ :: log)
          = Harness.iterations log + 1 := by
        simp [Harness.iterations, hrefused]
      refine ⟨ih.executed, by rw [hit]; omega, ?_⟩
      split <;> omega
    | some refused =>
      simp only [Permitted, hrefused] at h
      have hit : Harness.iterations (⟨.complete request index, reply⟩ :: log)
          = Harness.iterations log := by
        simp [Harness.iterations, hrefused]
      -- the replay carries no continuation, so it is not refused again
      have hagain : refused_resume (⟨.complete request index, reply⟩ :: log) = none :=
        refused_resume_of_none (congrArg ModelRequest.provider_session_id h)
      rw [hrefused] at hrequests
      refine ⟨ih.executed, by rw [hit]; exact ih.iterations, ?_⟩
      rw [hcount, hit, hagain]
      simpa using hrequests

/-! ## The specification of the loop -/

/-- The newest event is this completion. -/
def Answered (log : EngineLog) (completion : ModelCompletion) : Prop :=
  ∃ request index older, log = ⟨.complete request index, .ok (.ok completion)⟩ :: older

/-- So many tools, and nothing else, have been executed since. -/
def WorkedOff (log since : EngineLog) (k : Nat) : Prop :=
  ∃ done, log = done ++ since ∧ (∀ event ∈ done, is_execution event = true) ∧ done.length = k

/-- What holds at the head of the loop. -/
structure AtHead (engine : Engine) (log : EngineLog) (completed_tool_calls : Nat) : Prop where
  completed : completed_tool_calls = executed log
  within : executed log ≤ engine.max_tool_calls
  /-- Every finished iteration has executed a tool. -/
  iterations : iterations log ≤ executed log
  settled : refused_resume log = none

section Specifications

variable {engine : Engine}

/-- The specifications below: any answer is possible, every call is permitted, and
nothing is said about failures. -/
abbrev Spec (engine : Engine) {α : Type} (Q : EngineLog → α → Prop) (p : EngineProg α)
    (log : EngineLog) : Prop :=
  Meets (fun _ _ => True) (Permitted engine) Q (fun _ => True) p log

variable {request : ModelRequest} {index : Nat}

theorem complete_model_attempt_spec (h : Permitted engine log (.complete request index)) :
    Spec engine (fun log' result =>
      (∀ response activity session reasoning,
        result = .ok (response, activity, session, reasoning) → ∃ completion : ModelCompletion,
          completion.response = response ∧
          log' = ⟨.complete request index, .ok (.ok completion)⟩ :: log) ∧
      (result = .error .ResumeUnavailable →
        log' = ⟨.complete request index, .ok (.error .ResumeUnavailable)⟩ :: log))
      (engine.complete_model_attempt request index) log := by
  have hcomplete :
      Spec engine (fun log' result => log' = ⟨.complete request index, .ok result⟩ :: log)
        (complete request index) log :=
    ⟨h, fun _ _ => rfl, fun _ => trivial⟩
  refine hcomplete.bind ?_
  rintro log' (error | completion) rfl
  · refine ⟨fun _ _ _ _ h => (nomatch h), ?_⟩
    intro herror
    cases herror
    rfl
  · dsimp only
    cases hout : engine.output_error request.schema completion.response with
    | some error =>
      refine ⟨fun _ _ _ _ h => (nomatch h), ?_⟩
      intro herror
      cases herror
      -- a violated schema is not reported as an unavailable continuation
      unfold Engine.output_error at hout
      split at hout
      · cases hout
      · split at hout
        · next error _ => cases error <;> cases hout
        · cases hout
    | none =>
      refine ⟨?_, fun h => (nomatch h)⟩
      rintro _ _ _ _ ⟨⟩
      exact ⟨completion, rfl, rfl⟩

/-- After a model request the newest event is its answer, and one more iteration has
begun. -/
theorem complete_model_request_spec (hsettled : refused_resume log = none)
    (hleft : iterations log ≤ engine.max_tool_calls) :
    Spec engine (fun log' result => ∃ completion : ModelCompletion,
        completion.response = result.1 ∧ Answered log' completion ∧
        executed log' = executed log ∧ iterations log' = iterations log + 1)
      (engine.complete_model_request request index) log := by
  have hfirst : Permitted engine log (.complete request index) := by
    simpa only [Permitted, hsettled] using hleft
  refine (complete_model_attempt_spec hfirst).bind ?_
  rintro log' (error | ⟨response, activity, session, reasoning⟩) ⟨hok, herr⟩
  · -- the continuation was refused, or the turn fails here
    dsimp only
    split
    · next hresume =>
      obtain ⟨rfl, hnative⟩ := hresume
      have hrefused : refused_resume log' = some request := by
        rw [herr rfl]
        exact if_pos hnative
      have hit : iterations log' = iterations log + 1 := by
        rw [herr rfl]
        simp [iterations, hsettled]
      have hreplay : Permitted engine log'
          (.complete { request with provider_session_id := none }
            (min (index + 1) (2 ^ 64 - 1))) := by
        simp only [Permitted, hrefused]
      refine (complete_model_attempt_spec hreplay).bind ?_
      rintro log'' (error | ⟨response, activity, session, reasoning⟩) ⟨hok', -⟩
      · trivial
      · obtain ⟨completion, hresponse, rfl⟩ := hok' _ _ _ _ rfl
        refine ⟨completion, hresponse, ⟨_, _, _, rfl⟩, ?_, ?_⟩
        · rw [executed_complete, herr rfl, executed_complete]
        · simp only [iterations, hrefused, hit, Option.isSome_some, if_true]
    · split <;> trivial
  · obtain ⟨completion, hresponse, rfl⟩ := hok _ _ _ _ rfl
    refine ⟨completion, hresponse, ⟨_, _, _, rfl⟩, rfl, ?_⟩
    simp [iterations, hsettled]

variable {since : EngineLog} {k : Nat}

theorem WorkedOff.executed (h : WorkedOff log since k) : executed log = executed since + k := by
  obtain ⟨done, rfl, hdone, rfl⟩ := h
  rw [executed_append, executed_of_all hdone, Nat.add_comm]

variable {read_tool : Option ReadTool} {write_tool : Option WriteTool}
  {completion : ModelCompletion}

/-- A tool is executed only when its whole response fits, and then one more call is
worked off. -/
theorem execute_tool_call_spec {call : ToolCall} (hsince : Answered since completion)
    (hwork : WorkedOff log since k) (hcall : completion.response.calls[k]? = some call)
    (hfits : executed since + k < engine.max_tool_calls →
      executed since + completion.response.calls.length ≤ engine.max_tool_calls) :
    Spec engine (fun log' _ => WorkedOff log' since (k + 1) ∧
        executed since + completion.response.calls.length ≤ engine.max_tool_calls)
      (engine.execute_tool_call read_tool write_tool call (executed since + k)) log := by
  unfold Engine.execute_tool_call
  cases hexec : Engine.execution read_tool write_tool call with
  | none => trivial
  | some execution =>
    dsimp only
    split
    · trivial
    have hall := hfits (by omega)
    obtain ⟨request, index, older, rfl⟩ := hsince
    obtain ⟨done, rfl, hdone, rfl⟩ := hwork
    have hdue : Due engine.max_tool_calls
        (done ++ ⟨.complete request index, .ok (.ok completion)⟩ :: older) call :=
      ⟨done, request, index, completion, older, rfl, hdone, hall, hcall⟩
    refine ⟨⟨call, read_tool, write_tool, hdue, rfl, hexec⟩, fun reply _ => ?_,
      fun _ => trivial⟩
    refine ⟨⟨_ :: done, rfl, ?_, rfl⟩, hall⟩
    intro event hevent
    rcases mem_cons.mp hevent with rfl | hevent
    · rfl
    · exact hdone event hevent

/-- A batch that fits is worked off in order, with one result for each call. -/
theorem execute_tool_calls_spec (hsince : Answered since completion)
    (hfits : executed since + completion.response.calls.length ≤ engine.max_tool_calls) :
    ∀ (calls : List ToolCall) (log : EngineLog) (k : Nat), WorkedOff log since k →
      completion.response.calls.drop k = calls →
      Spec engine (fun log' results => WorkedOff log' since (k + calls.length) ∧
          results.length = calls.length)
        (engine.execute_tool_calls read_tool write_tool calls (executed since + k)) log
  | [], log, k, hwork, _ => ⟨hwork, rfl⟩
  | call :: calls, log, k, hwork, hdrop => by
      have hcall : completion.response.calls[k]? = some call := by
        rw [← head?_drop, hdrop]
        rfl
      have hrest : completion.response.calls.drop (k + 1) = calls := by
        rw [← tail_drop, hdrop]
        rfl
      refine (execute_tool_call_spec hsince hwork hcall fun _ => hfits).bind ?_
      rintro log₁ result ⟨hwork₁, -⟩
      refine (execute_tool_calls_spec hsince hfits calls log₁ (k + 1) hwork₁ hrest).bind ?_
      rintro log₂ results ⟨hwork₂, hlen⟩
      refine ⟨?_, congrArg Nat.succ hlen⟩
      rwa [length_cons, Nat.add_comm calls.length 1, ← Nat.add_assoc]

theorem WorkedOff.iterations (h : WorkedOff log since k) : iterations log = iterations since := by
  obtain ⟨done, rfl, hdone, -⟩ := h
  induction done with
  | nil => rfl
  | cons event done ih =>
    have hrest := ih fun event hevent => hdone event (mem_cons_of_mem _ hevent)
    obtain ⟨call, reply⟩ := event
    cases call with
    | complete => cases hdone _ (mem_cons_self ..)
    | execute_tool => exact hrest

/-- The newest event is an execution, so no continuation has just been refused. -/
theorem WorkedOff.settled (h : WorkedOff log since (k + 1)) : refused_resume log = none := by
  obtain ⟨done, rfl, hdone, hlen⟩ := h
  cases done with
  | nil => cases hlen
  | cons event done =>
    obtain ⟨call, reply⟩ := event
    cases call with
    | complete => cases hdone _ (mem_cons_self ..)
    | execute_tool => rfl

/-- A response with at least one call, worked off, leads back to the head. -/
theorem AtHead.next {log' : EngineLog} {completed_tool_calls n : Nat}
    (hhead : AtHead engine log completed_tool_calls) (hsame : executed since = executed log)
    (hit : Harness.iterations since = Harness.iterations log + 1)
    (hwork : WorkedOff log' since (n + 1))
    (hfits : executed since + (n + 1) ≤ engine.max_tool_calls) :
    AtHead engine log' (completed_tool_calls + (n + 1)) := by
  have hexec := hwork.executed
  have hiter := hwork.iterations
  have hbefore := hhead.iterations
  have hcompleted := hhead.completed
  exact ⟨by omega, by omega, by omega, hwork.settled⟩

/-- A turn has produced a transcript: the conversation it was given, followed by
messages whose results are paired. -/
def Produced (messages : List ModelMessage) (result : Option Engine.Finished) : Prop :=
  ∃ finished new, result = some finished ∧ finished.messages = messages ++ new ∧ paired new = true

/-- What the rest of the loop produces continues what this iteration has recorded. -/
theorem Produced.trans {messages new : List ModelMessage} {result : Option Engine.Finished}
    (hnew : paired new = true) (h : Produced (messages ++ new) result) :
      Produced messages result := by
  obtain ⟨finished, rest, rfl, hmessages, hrest⟩ := h
  refine ⟨finished, new ++ rest, rfl, ?_, paired_append hnew hrest⟩
  rw [hmessages, append_assoc]

/-- The specification of the loop. The induction is on the fuel; an iteration that
goes on has used one unit and completed at least one call, so the fuel lasts as long
as the budget does. -/
theorem run_loop_spec :
    ∀ (fuel : Nat) (vars : Engine.Loop) (log : EngineLog),
      AtHead engine log vars.completed_tool_calls →
      engine.max_tool_calls < fuel + vars.completed_tool_calls →
      Spec engine (fun _ result => Produced vars.request.messages result)
        (engine.run_loop read_tool write_tool fuel vars) log := by
  intro fuel
  induction fuel with
  | zero =>
    intro vars log hhead hfuel
    have hcompleted := hhead.completed
    have hwithin := hhead.within
    omega
  | succ fuel ih =>
    intro vars log hhead hfuel
    have hleft : iterations log ≤ engine.max_tool_calls := hhead.iterations.trans hhead.within
    refine (complete_model_request_spec hhead.settled hleft).bind ?_
    rintro log₁ ⟨response, activities, session, rejected, reasoning⟩
      ⟨completion, rfl, hsince, hsame, hit⟩
    have hcompleted : vars.completed_tool_calls = executed log₁ + 0 := by
      rw [hsame, Nat.add_zero, hhead.completed]
    have hwork : WorkedOff log₁ log₁ 0 := ⟨[], rfl, by simp, rfl⟩
    -- the continuation is not part of the conversation
    have hmessages : (if rejected || session.isSome then
        { vars.request with provider_session_id := session } else vars.request).messages
          = vars.request.messages := by split <;> rfl
    cases hresponse : completion.response with
    | Output output =>
      cases reasoning with
      | some reasoning =>
        exact ⟨_, [.AssistantReasoning output reasoning], rfl, congrArg (· ++ _) hmessages, rfl⟩
      | none => exact ⟨_, [.Assistant output], rfl, congrArg (· ++ _) hmessages, rfl⟩
    | ToolCall call =>
      rw [hcompleted]
      refine (execute_tool_call_spec hsince hwork (by rw [hresponse]; rfl) ?_).bind ?_
      · rw [hresponse]
        exact fun h => h
      · rintro log₂ ⟨result, activity⟩ ⟨hwork₂, hfits⟩
        rw [hresponse] at hfits
        have hnext := hhead.next hsame hit hwork₂ hfits
        rw [hcompleted] at hnext hfuel
        refine (ih _ log₂ hnext (by dsimp only; omega)).post ?_ fun _ h => h
        intro _ _ h
        have hnew : paired [.AssistantToolCall call, .ToolResult call.id result call.name]
            = true := by simp [paired_from]
        refine Produced.trans hnew ?_
        rw [← hmessages]
        exact h
    | ToolCalls calls =>
      dsimp only
      split
      · trivial
      rename_i hempty
      cases hunique : ensure_unique_tool_call_ids calls with
      | error error => trivial
      | ok _ =>
        dsimp only
        split
        · trivial
        have hcalls : completion.response.calls = calls := by rw [hresponse]; rfl
        have hwithin := hhead.within
        have hfits : executed log₁ + completion.response.calls.length
            ≤ engine.max_tool_calls := by
          rw [hcalls]
          omega
        rw [hcompleted]
        refine (execute_tool_calls_spec hsince hfits calls log₁ 0 hwork hcalls).bind ?_
        rintro log₂ results ⟨hwork₂, hlen⟩
        obtain ⟨n, hn⟩ : ∃ n, calls.length = n + 1 := by
          cases calls with
          | nil => exact absurd rfl hempty
          | cons call calls => exact ⟨calls.length, rfl⟩
        rw [hn, Nat.zero_add] at hwork₂
        rw [hcalls, hn] at hfits
        have hnext := hhead.next hsame hit hwork₂ hfits
        rw [hcompleted] at hnext hfuel
        refine (ih _ log₂ (by rw [hn]; exact hnext) (by dsimp only; omega)).post ?_
          fun _ h => h
        intro _ _ h
        have hnew : paired (.AssistantToolCalls calls ::
            (calls.zip (results.map Prod.fst)).map fun result =>
              .ToolResult result.1.id result.2 result.1.name) = true :=
          paired_from_results calls _ (by rw [length_map, hlen])
        refine Produced.trans hnew ?_
        rw [← hmessages]
        exact h

end Specifications

/-! ## Every turn -/

theorem prepare_request_messages {request prepared : ModelRequest} {journal : Option WriteJournal}
    {read_tool : Option ReadTool} {write_tool : Option WriteTool}
    (h : engine.prepare_request request journal = .ok (prepared, read_tool, write_tool)) :
    prepared.messages = request.messages := by
  have htool : ∀ (request : ModelRequest) tool, (request.with_tool tool).messages
      = request.messages := by
    intro request tool
    unfold ModelRequest.with_tool
    split <;> rfl
  simp only [Engine.prepare_request] at h
  split at h
  · cases h
  split at h
  · cases h
    rfl
  · split at h
    · cases h
    · cases h
      split <;> split <;> simp [htool, Engine.with_defaults]

/-- What a turn has asked for, when it ends and at every moment before. -/
structure WithinBudget (engine : Engine) (log : EngineLog) : Prop where
  /-- No more tools than permitted. -/
  executed : executed log ≤ engine.max_tool_calls
  /-- A tool is executed only as the next call of a response that fits as a whole. -/
  fits : ∀ newer execution call_id reply older,
    log = newer ++ ⟨.execute_tool execution call_id, reply⟩ :: older →
    ∃ call, Due engine.max_tool_calls older call ∧ call_id = call.id
  /-- At most one iteration more than permitted tools. -/
  iterations : iterations log ≤ engine.max_tool_calls + 1
  /-- A request that begins no iteration replays the refused one, and is not refused
  itself. -/
  replay : ∀ newer request index reply older refused,
    log = newer ++ ⟨.complete request index, reply⟩ :: older →
    refused_resume older = some refused →
    request = { refused with provider_session_id := none } ∧
      refused_resume (⟨.complete request index, reply⟩ :: older) = none
  requests : requests log ≤ 2 * (engine.max_tool_calls + 1)

theorem Extends.withinBudget (h : Extends (Permitted engine) [] log) : WithinBudget engine log := by
  have hcounts := h.invariant (Counts engine) ⟨Nat.zero_le _, Nat.zero_le _, Nat.zero_le _⟩
    fun _ call reply hcall ih => ih.step call reply hcall
  refine ⟨hcounts.executed, ?_, hcounts.iterations, ?_, ?_⟩
  · intro newer execution call_id reply older hlog
    obtain ⟨call, -, -, hdue, hid, -⟩ := h.justified hlog
    exact ⟨call, hdue, hid⟩
  · intro newer request index reply older refused hlog hrefused
    have hcall := h.justified hlog
    simp only [Permitted, hrefused] at hcall
    exact ⟨hcall, refused_resume_of_none (congrArg ModelRequest.provider_session_id hcall)⟩
  · have hrequests := hcounts.requests
    have hiterations := hcounts.iterations
    omega

/-- **A turn against any model and any tools.** It stays within its budget, it ends,
and a transcript it returns continues the conversation with groups of calls that are
followed immediately by exactly their results. -/
theorem turn_within_budget (engine : Engine) {fuel : Nat} (hfuel : engine.max_tool_calls < fuel)
    (request : ModelRequest) (journal : Option WriteJournal)
    (oracle : EngineLog → (call : EngineCall) → Except TurnError call.Reply) :
    let run := (engine.run fuel request journal).exec oracle []
    WithinBudget engine run.2 ∧ run.1 ≠ .ok none ∧
      ∀ finished, run.1 = .ok (some finished) →
        (∃ new, finished.messages = request.messages ++ new ∧ paired new = true) ∧
        (paired request.messages = true → paired finished.messages = true) := by
  have hspec : Spec engine (fun _ result => Produced request.messages result)
      (engine.run fuel request journal) [] := by
    unfold Engine.run
    cases hprepare : engine.prepare_request request journal with
    | error error => trivial
    | ok prepared =>
      obtain ⟨prepared, read_tool, write_tool⟩ := prepared
      rw [← prepare_request_messages hprepare]
      have hhead : AtHead engine [] 0 := ⟨rfl, Nat.zero_le _, Nat.le_refl _, rfl⟩
      exact run_loop_spec fuel
        { request := prepared, completed_tool_calls := 0, model_request_index := 0,
          model_requests := [], tool_calls := [] } [] hhead hfuel
  obtain ⟨hcalls, hresult⟩ := hspec.exec oracle
  refine ⟨Extends.withinBudget hcalls, ?_, ?_⟩
  · intro hnone
    obtain ⟨finished, new, h, -⟩ := hresult none hnone
    cases h
  · intro finished hfinished
    obtain ⟨_, new, hsome, hmessages, hnew⟩ := hresult _ hfinished
    cases hsome
    refine ⟨⟨new, hmessages, hnew⟩, fun hpaired => ?_⟩
    rw [hmessages]
    exact paired_append hpaired hnew

/-! ### A turn with a batch and a refused continuation -/

theorem three_pos : 0 < 3 := by decide

/-- Reads are permitted, at most three calls a turn. -/
def reading_engine : Engine where
  lifecycle_enabled := false
  model_reasoning_effort := none
  options :=
    { comparison_base := none
      limits := { max_tool_calls := 3, positive := three_pos }
      schema := ⟨"true"⟩
      tool_policy := { read := true, write := false } }
  repository := some { git_executable := "git", root := "/repository" }
  validate_value _ _ := .ok ()

/-- A conversation to be continued natively. -/
def resumed_request : ModelRequest :=
  { ModelRequest.with_history [] (.text "inspect") ⟨"true"⟩ with provider_session_id := some "p" }

/-- A call of the read tool. -/
def read_call (id : String) : ToolCall := ⟨.Read "\x7b\x7d", id, none⟩

/-- Refuses the continuation, then asks for a batch of two reads, then answers. Every
read succeeds. -/
def batching_model (log : EngineLog) : (call : EngineCall) → Except TurnError call.Reply
  | .complete request _ => .ok <|
      if request.provider_session_id.isSome then .error .ResumeUnavailable
      else .ok {
        metadata := none
        provider_session_id := none
        reasoning_content := none
        response := if executed log = 0 then .ToolCalls [read_call "a", read_call "b"]
          else .Output "true" }
  | .execute_tool _ call_id => .ok ("content of " ++ call_id, ⟨.Read, false, "file"⟩)

/-- Three requests, two iterations, two tools, and the transcript. -/
theorem turn_within_budget_batch :
    let run := (reading_engine.run 4 resumed_request none).exec batching_model []
    WithinBudget reading_engine run.2 ∧ requests run.2 = 3 ∧ iterations run.2 = 2 ∧
      executed run.2 = 2 ∧ run.1.toOption.map (Option.map Engine.Finished.messages) = some (some
        [.User "inspect", .AssistantToolCalls [read_call "a", read_call "b"],
          .ToolResult "a" "content of a" "read", .ToolResult "b" "content of b" "read",
          .Assistant "true"]) :=
  ⟨(turn_within_budget reading_engine (by decide) resumed_request none batching_model).1,
    by decide +kernel, by decide +kernel, by decide +kernel, by decide +kernel⟩

end Agentty.Harness
