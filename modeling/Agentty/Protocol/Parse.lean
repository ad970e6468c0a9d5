/-
The recovery of a response from the text of a provider.

A provider is asked for one JSON object. `parse_agent_response_strict` takes its message as
such an object, then as a fenced block, then looks for a fenced block in it, and last for an
object at its end. `serde_json` is a parameter: it accepts the texts of the grammar of JSON
up to its depth limit. Its stream deserializer reads characters until they make a value;
it is only called where an object starts, and an object has no shorter value in front.

Text is a list of characters, and an error carries its text.
-/
import Mathlib.Data.List.DropRight
import Agentty.Json
import Agentty.Text

set_option autoImplicit false

namespace Agentty.Protocol

open Text List

/-! ## The parser -/

/-- `serde_json`, for a type of values and a type of responses. -/
structure Serde (V R : Type) where
  /-- `from_str::<Value>` of a text without white space around it -/
  from_str : List Char → Except String V
  /-- the keys of an object -/
  as_object : V → Option (List String)
  from_value : V → Except String R

/-- It implements RFC 8259 up to a depth. -/
def Serde.Conforms {V R : Type} (serde : Serde V R) (limit : Nat) : Prop :=
  ∀ text, (∃ value, serde.from_str text = .ok value) ↔ Json.Text limit .value text

inductive AgentResponseParseError where
  | Empty
  | InvalidFormat (reason : String)
  deriving DecidableEq, Repr

def AgentResponseParseError.to_string : AgentResponseParseError → String
  | .Empty => "response is empty"
  | .InvalidFormat reason => "response is not valid protocol JSON: " ++ reason

def PROTOCOL_KEYS : List String :=
  ["answer", "questions", "review_comment_outcomes", "subtasks", "verification_verdicts"]

variable {V R : Type} (serde : Serde V R)

def value_has_recognized_protocol_key (value : V) : Bool :=
  match serde.as_object value with
  | some keys => PROTOCOL_KEYS.any keys.contains
  | none => false

def parse_structured_json_response_with_reason (raw : List Char) :
    Except AgentResponseParseError R :=
  match serde.from_str (trim raw) with
  | .error error => .error (.InvalidFormat ("invalid JSON (" ++ error ++ ")"))
  | .ok value =>
    if value_has_recognized_protocol_key serde value then
      match serde.from_value value with
      | .error error => .error (.InvalidFormat ("schema validation failed (" ++ error ++ ")"))
      | .ok response => .ok response
    else
      .error (.InvalidFormat ("json object is missing all protocol keys (" ++
        ", ".intercalate PROTOCOL_KEYS ++ ")"))

/-- The next value of the stream, after what was read, and the text behind it. -/
def next (read : List Char) : List Char → Option (V × List Char)
  | [] =>
    match serde.from_str read with
    | .ok value => some (value, [])
    | .error _ => none
  | c :: rest =>
    match serde.from_str read with
    | .ok value => some (value, c :: rest)
    | .error _ => next (read ++ [c]) rest

/-- The value of a candidate with only white space behind it. -/
def candidate_value (candidate : List Char) : Option V :=
  match next serde [] candidate with
  | some (value, trailing_text) => if trim trailing_text = [] then some value else none
  | none => none

/-- The braces are tried from the last to the first. -/
def find_last_embedded_json_value : List Char → Option V
  | [] => none
  | c :: rest =>
    match find_last_embedded_json_value rest with
    | some value => some value
    | none => if c = '{' then candidate_value serde (c :: rest) else none

def recover_embedded_structured_json_response (raw : List Char) : Option R :=
  (find_last_embedded_json_value serde raw).bind fun value =>
    if value_has_recognized_protocol_key serde value then (serde.from_value value).toOption
    else none

def parse_structured_json_response_with_recovery (raw : List Char) : Option R :=
  match parse_structured_json_response_with_reason serde raw with
  | .ok response => some response
  | .error _ => recover_embedded_structured_json_response serde raw

/-- The content of a fence, if it is not blank. -/
def fence_content (inner : List Char) : Option (List Char) :=
  let trimmed := trim inner
  if trimmed = [] then none else some trimmed

def fence : List Char := "```".toList

def strip_markdown_code_fence (trimmed : List Char) : Option (List Char) := do
  let rest ← strip_prefix fence trimmed
  let (_, body) ← split_once ['\n'] rest
  let inner ← strip_suffix fence body
  fence_content inner

def find_embedded_code_fence_content (raw : List Char) : Option (List Char) :=
  (rsplit_once fence raw).bind fun (before, _) =>
    (rsplit_once fence (trim_end_matches is_whitespace before)).bind fun (_, after) =>
      (split_once ['\n'] after).bind fun (_, inner) => fence_content inner

def parse_agent_response_strict (raw : List Char) : Except AgentResponseParseError R :=
  let trimmed := trim raw
  if trimmed = [] then .error .Empty
  else
    match parse_structured_json_response_with_reason serde trimmed with
    | .ok response => .ok response
    | .error direct_parse_error =>
      match strip_markdown_code_fence trimmed with
      | some inner =>
        match parse_structured_json_response_with_recovery serde inner with
        | some response => .ok response
        | none =>
          let fence_parse_error :=
            match parse_structured_json_response_with_reason serde inner with
            | .error error => error.to_string
            | .ok _ => "no protocol payload found in markdown code fence"
          .error (.InvalidFormat
            ("markdown code fence extraction failed (" ++ fence_parse_error ++ ")"))
      | none =>
        match (find_embedded_code_fence_content trimmed).bind
            (parse_structured_json_response_with_recovery serde) with
        | some response => .ok response
        | none =>
          match recover_embedded_structured_json_response serde trimmed with
          | some response => .ok response
          | none => .error (.InvalidFormat
              ("direct parse failed (" ++ direct_parse_error.to_string ++
                "); no markdown wrapper/embedded protocol object found"))

/-! ## The last value -/

def Blank (text : List Char) : Prop := ∀ c ∈ text, is_whitespace c = true

variable {serde} {limit : Nat} {value : V} {j w : List Char}

theorem next_some {read rest trailing : List Char}
    (h : next serde read rest = some (value, trailing)) :
    ∃ text, read ++ rest = text ++ trailing ∧ serde.from_str text = .ok value := by
  induction rest generalizing read with
  | nil =>
    cases hread : serde.from_str read with
    | ok v =>
      simp only [next, hread, Option.some.injEq, Prod.mk.injEq] at h
      exact ⟨read, by rw [h.2], by rw [hread, h.1]⟩
    | error e => simp [next, hread] at h
  | cons c rest ih =>
    cases hread : serde.from_str read with
    | ok v =>
      simp only [next, hread, Option.some.injEq, Prod.mk.injEq] at h
      exact ⟨read, by rw [h.2], by rw [hread, h.1]⟩
    | error e =>
      simp only [next, hread] at h
      obtain ⟨text, htext, hvalue⟩ := ih h
      exact ⟨text, by rw [← htext, append_assoc]; rfl, hvalue⟩

theorem next_object (hserde : serde.Conforms limit) {read more : List Char}
    (hj : Json.Object limit (read ++ more)) (hvalue : serde.from_str (read ++ more) = .ok value)
    (w : List Char) : next serde read (more ++ w) = some (value, w) := by
  induction more generalizing read with
  | nil =>
    rw [append_nil] at hvalue
    cases w <;> simp [next, hvalue]
  | cons c more ih =>
    cases hread : serde.from_str read with
    | ok v =>
      have htext := (hserde read).mp ⟨v, hread⟩
      obtain ⟨mode, depth, hopen⟩ := hj.open htext.value_ne_nil (by simp)
      rw [htext.scan] at hopen
      simp at hopen
    | error e =>
      simp only [cons_append, next, hread]
      exact ih (by simpa using hj) (by simpa using hvalue)

/-- White space behind a brace is trimmed, and nothing else. -/
theorem trim_end_object (front : List Char) (hw : Blank w) :
    trim_end_matches is_whitespace (front ++ ['}'] ++ w) = front ++ ['}'] := by
  have hbrace : is_whitespace '}' = false := by decide
  unfold trim_end_matches
  rw [reverse_append, dropWhile_append_of_pos fun c hc => hw c (mem_reverse.mp hc)]
  simp [hbrace]

/-- A brace inside an object does not start a value that ends where the object ends. -/
theorem candidate_value_inner (hserde : serde.Conforms limit) {a b : List Char}
    (hj : Json.Object limit (a ++ b)) (ha : a ≠ []) (hb : b.head? = some '{') (hw : Blank w) :
    candidate_value serde (b ++ w) = none := by
  unfold candidate_value
  cases hnext : next serde [] (b ++ w) with
  | none => rfl
  | some found =>
    obtain ⟨v, trailing⟩ := found
    simp only [ite_eq_right_iff]
    intro htrailing
    obtain ⟨text, htext, hv⟩ := next_some hnext
    rw [nil_append] at htext
    have hvalue := (hserde text).mp ⟨v, hv⟩
    have hobject : Json.Object limit text := by
      refine ⟨hvalue, ?_⟩
      obtain ⟨c, rest, rfl⟩ := exists_cons_of_ne_nil hvalue.value_ne_nil
      simpa [head?_append, hb, eq_comm] using congrArg head? htext
    -- both end at the last character that is not white space
    obtain ⟨front, rfl⟩ := hj.last (by rintro rfl; cases hb)
    obtain ⟨front', rfl⟩ := Json.Object.last (a := []) hobject hvalue.value_ne_nil
    have heq := trim_end_object front' (trim_eq_nil.mp htrailing)
    rw [← htext, trim_end_object front hw] at heq
    rw [← heq] at hobject
    exact absurd hobject (hj.not_end ha)

theorem find_last_eq_none {s : List Char}
    (h : ∀ t, t <:+ s → t.head? = some '{' → candidate_value serde t = none) :
    find_last_embedded_json_value serde s = none := by
  induction s with
  | nil => rfl
  | cons c rest ih =>
    rw [find_last_embedded_json_value, ih fun t ht => h t (ht.trans (suffix_cons c rest))]
    by_cases hc : c = '{'
    · rw [if_pos hc]
      exact h (c :: rest) (suffix_refl _) (by rw [hc]; rfl)
    · rw [if_neg hc]

section

variable (hserde : serde.Conforms limit) (hj : Json.Object limit j)
  (hvalue : serde.from_str j = .ok value) (hw : Blank w)

include hserde hj hvalue hw

theorem candidate_value_object : candidate_value serde (j ++ w) = some value := by
  have hnext : next serde [] (j ++ w) = some (value, w) :=
    next_object hserde (show Json.Object limit ([] ++ j) from hj) hvalue w
  simp [candidate_value, hnext, trim_eq_nil.mpr hw]

theorem find_last_object (p : List Char) :
    find_last_embedded_json_value serde (p ++ j ++ w) = some value := by
  rw [append_assoc]
  induction p with
  | cons c p ih => rw [cons_append, find_last_embedded_json_value, ih]
  | nil =>
  have hcandidate := candidate_value_object hserde hj hvalue hw
  obtain ⟨inner, rfl, -⟩ := hj.inner
  have hinner : find_last_embedded_json_value serde (inner ++ ['}'] ++ w) = none := by
    apply find_last_eq_none
    rintro t ⟨s, hs⟩ hhead
    obtain ⟨b, hinner, rfl⟩ | ⟨b, -, rfl⟩ := append_eq_append_iff.mp hs
    · cases b with
      | nil => exact absurd (hw '{' (mem_of_mem_head? hhead)) (by decide)
      | cons c b =>
        rw [cons_append, hinner, ← cons_append] at hj
        exact candidate_value_inner hserde hj (by simp) hhead hw
    · have hmem := mem_append_right b (mem_of_mem_head? hhead)
      exact absurd (hw '{' hmem) (by decide)
  simp only [nil_append, cons_append, find_last_embedded_json_value] at hcandidate ⊢
  rw [hinner, hcandidate]
  rfl

end

/-- After any text, and before white space, the value of an object is found. A brace inside
the object starts no value that ends with it. -/
theorem embedded_object_found (serde : Serde V R) (limit : Nat) (hserde : serde.Conforms limit)
    (p j w : List Char) (hj : Json.Object limit j) (hw : Blank w) :
    ∃ value, serde.from_str j = .ok value ∧
      find_last_embedded_json_value serde (p ++ j ++ w) = some value ∧
      ∀ a b, j = a ++ b → a ≠ [] → b.head? = some '{' →
        candidate_value serde (b ++ w) = none := by
  obtain ⟨value, hvalue⟩ := (hserde j).mpr hj.1
  refine ⟨value, hvalue, find_last_object hserde hj hvalue hw p, ?_⟩
  rintro a b rfl ha hb
  exact candidate_value_inner hserde hj ha hb hw

/-- An object with the answer as its only member. -/
def sample_response (answer : String) : List Char :=
  '{' :: ('"' :: "answer".toList ++ ['"'] ++ ':' :: ('"' :: answer.toList ++ ['"'])) ++ ['}']

open Classical in
/-- A deserializer that keeps a value as its text. It finds the key of a protocol response in
two of them. -/
noncomputable def sample_serde : Serde (List Char) (List Char) where
  from_str text := if Json.Text 128 .value text then .ok text else .error "expected value"
  as_object text :=
    if text = sample_response "x" ∨ text = sample_response "y" then some ["answer"] else none
  from_value text := .ok text

theorem sample_serde_conforms : sample_serde.Conforms 128 := by
  intro text
  by_cases h : Json.Text 128 .value text <;> simp [sample_serde, h]

theorem sample_response_object : ∀ answer ∈ ["x", "y"],
    Json.Object 128 (sample_response answer) := by
  intro answer hanswer
  refine ⟨.single (.of_unescaped (by decide)) (.string (.of_unescaped ?_)), rfl⟩
  revert answer
  decide

theorem embedded_object_found_sample :
    ∃ value, sample_serde.from_str (sample_response "x") = .ok value ∧
      find_last_embedded_json_value sample_serde
        ("see [".toList ++ sample_response "x" ++ ['\n']) = some value := by
  obtain ⟨value, hvalue, hfound, -⟩ := embedded_object_found sample_serde 128
    sample_serde_conforms "see [".toList (sample_response "x") ['\n']
    (sample_response_object "x" (by simp)) (by simp [Blank, is_whitespace])
  exact ⟨value, hvalue, hfound⟩

/-! ## The response at the end -/

theorem trim_append_object (hj : Json.Object limit j) (hw : Blank w) (q : List Char) :
    trim (q ++ j ++ w) = trim_start q ++ j := by
  obtain ⟨inner, rfl, -⟩ := hj.inner
  have hstart : trim_start (q ++ ('{' :: inner ++ ['}']) ++ w) =
      trim_start q ++ '{' :: inner ++ ['}'] ++ w := by
    simpa using trim_start_append (by decide) q (inner ++ '}' :: w)
  rw [trim, hstart, trim_end_object _ hw, append_assoc]

theorem blank_nil : Blank [] := fun _ hc => nomatch hc

theorem trim_object (hj : Json.Object limit j) {q : List Char} (hq : trim_start q = q) :
    trim (q ++ j) = q ++ j := by
  have htrim := trim_append_object hj blank_nil q
  rwa [append_nil, hq] at htrim

theorem strip_markdown_code_fence_brace (front : List Char) :
    strip_markdown_code_fence (front ++ ['}']) = none := by
  simp only [strip_markdown_code_fence, bind, Option.bind_eq_none_iff]
  intro rest hrest parts hparts inner hinner
  obtain ⟨htext, -⟩ := split_once_some (by simp) hparts
  simp only [strip_suffix, strip_prefix, isPrefixOf_iff_prefix, isSuffixOf_iff_suffix,
    Option.ite_none_right_eq_some, Option.some.injEq] at hrest hinner
  obtain ⟨⟨whole, hwhole⟩, rfl⟩ := hrest
  obtain ⟨⟨body, hbody⟩, -⟩ := hinner
  rw [← hwhole, drop_left, ← hbody] at htext
  rw [htext] at hwhole
  have hlast : fence ++ (parts.1 ++ ['\n'] ++ (body ++ "``".toList)) ++ "`".toList =
      front ++ ['}'] := by
    simpa [fence] using hwhole
  exact absurd (append_inj' hlast rfl).2 (by decide)

variable {response : R}

theorem parse_with_reason_ok {raw : List Char}
    (h : parse_structured_json_response_with_reason serde raw = .ok response) :
    ∃ value, serde.from_str (trim raw) = .ok value ∧
      value_has_recognized_protocol_key serde value = true ∧
      serde.from_value value = .ok response := by
  unfold parse_structured_json_response_with_reason at h
  split at h
  · cases h
  rename_i value hvalue
  split at h
  · next hkey =>
    split at h
    · cases h
    · next hresponse =>
      cases h
      exact ⟨value, hvalue, hkey, hresponse⟩
  · cases h

/-- The last fenced block of a text yields a response. -/
def Fenced (serde : Serde V R) (text : List Char) (response : R) : Prop :=
  (find_embedded_code_fence_content text).bind
    (parse_structured_json_response_with_recovery serde) = some response

theorem trim_start_eq_nil {p : List Char} : trim_start (p ++ ['\n']) = [] ↔ Blank p := by
  rw [trim_start, dropWhile_eq_nil_iff]
  exact ⟨fun h c hc => h c (mem_append_left _ hc), fun h c hc =>
    (mem_append.mp hc).elim (h c) fun hc => by rw [mem_singleton.mp hc]; decide⟩

/-- **The response at the end of a text is returned exactly if nothing stands before it, or
the text has no fenced block that holds another response.** -/
theorem trailing_response_returned (serde : Serde V R) (limit : Nat)
    (hserde : serde.Conforms limit) (p j w : List Char) (hj : Json.Object limit j)
    (hw : Blank w) (response : R)
    (hresponse : parse_structured_json_response_with_reason serde j = .ok response) :
    parse_agent_response_strict serde (p ++ '\n' :: j ++ w) = .ok response ↔
      Blank p ∨ ∀ other, Fenced serde (trim (p ++ '\n' :: j ++ w)) other → other = response := by
  have htrim : trim (p ++ '\n' :: j ++ w) = trim_start (p ++ ['\n']) ++ j := by
    simpa using trim_append_object hj hw (p ++ ['\n'])
  have hblank := @trim_start_eq_nil p
  obtain ⟨q, hq, hstart⟩ : ∃ q, trim_start (p ++ ['\n']) = q ∧ trim_start q = q :=
    ⟨_, rfl, dropWhile_idempotent _ _⟩
  have hself : trim j = j := trim_object hj (q := []) rfl
  have hagain : trim (q ++ j) = q ++ j := trim_object hj hstart
  obtain ⟨value, hvalue, hkey, hfrom⟩ := parse_with_reason_ok hresponse
  rw [hself] at hvalue
  obtain ⟨inner, hinner, -⟩ := hj.inner
  have hend : q ++ j = q ++ '{' :: inner ++ ['}'] := by rw [hinner, append_assoc]
  unfold parse_agent_response_strict
  rw [htrim, hq, ← hblank, hq, if_neg (by simp [hend])]
  cases hdirect : parse_structured_json_response_with_reason serde (q ++ j) with
  | ok other =>
    -- a value that ends with the object is the object
    obtain ⟨value', hvalue', -, -⟩ := parse_with_reason_ok hdirect
    have hwhole := (hserde _).mp ⟨value', hvalue'⟩
    rw [hagain, hend] at hwhole
    have hobject := hwhole.object
    rw [← hend] at hobject
    have hnil : q = [] := by
      by_contra hne
      exact hobject.not_end hne hj
    rw [hnil, nil_append, hresponse] at hdirect
    cases hdirect
    exact iff_of_true rfl (.inl hnil)
  | error error =>
    have hne : q ≠ [] := by
      rintro rfl
      rw [nil_append, hresponse] at hdirect
      cases hdirect
    have hstrip : strip_markdown_code_fence (q ++ j) = none := by
      rw [hend]
      exact strip_markdown_code_fence_brace _
    have hfind := find_last_object hserde hj hvalue blank_nil q
    rw [append_nil] at hfind
    have hrecover : recover_embedded_structured_json_response serde (q ++ j) = some response := by
      simp [recover_embedded_structured_json_response, hfind, hkey, hfrom, Except.toOption]
    simp only [hstrip, hne, false_or, Fenced]
    cases (find_embedded_code_fence_content (q ++ j)).bind
      (parse_structured_json_response_with_recovery serde) with
    | none => simp [hrecover]
    | some other => simp

theorem sample_parse : ∀ answer ∈ ["x", "y"],
    parse_structured_json_response_with_reason sample_serde (sample_response answer) =
      .ok (sample_response answer) := by
  intro answer hanswer
  have hobject := sample_response_object answer hanswer
  have htrim : trim (sample_response answer) = sample_response answer :=
    trim_object hobject (q := []) rfl
  have hkeys : sample_serde.as_object (sample_response answer) = some ["answer"] := by
    have hcases : answer = "x" ∨ answer = "y" := by simpa using hanswer
    exact if_pos (hcases.imp (congrArg _) (congrArg _))
  unfold parse_structured_json_response_with_reason value_has_recognized_protocol_key
  rw [htrim, show sample_serde.from_str (sample_response answer) = .ok (sample_response answer)
    from if_pos hobject.1]
  simp only [hkeys]
  rfl

theorem trailing_response_returned_sample :
    parse_agent_response_strict sample_serde
      ("Done.".toList ++ '\n' :: sample_response "y" ++ ['\n']) = .ok (sample_response "y") :=
  (trailing_response_returned sample_serde 128 sample_serde_conforms "Done.".toList
    (sample_response "y") ['\n'] (sample_response_object "y" (by simp))
    (by simp [Blank, is_whitespace]) (sample_response "y") (sample_parse "y" (by simp))).mpr
    (.inr fun other h => by
      rw [Fenced, show find_embedded_code_fence_content _ = none by decide +kernel] at h
      cases h)

/-- Prose with a fenced example, and a response behind it. -/
def sample_message : List Char :=
  "An example:\n```json\n".toList ++ sample_response "x" ++ "\n```".toList ++
    '\n' :: sample_response "y"

/-- The fenced example is returned in place of the response. -/
theorem fenced_example_returned :
    parse_structured_json_response_with_reason sample_serde (sample_response "y") =
        .ok (sample_response "y") ∧
      parse_agent_response_strict sample_serde sample_message = .ok (sample_response "x") := by
  refine ⟨sample_parse "y" (by simp), ?_⟩
  have htrim : trim sample_message = sample_message := by decide +kernel
  have hend : sample_message = sample_message.dropLast ++ ['}'] := by decide +kernel
  -- the message ends with a brace, but does not start with one
  have hdirect : ¬ Json.Text 128 .value sample_message := by
    rw [hend]
    intro htext
    exact absurd htext.object.2 (by decide +kernel)
  have hparse : parse_structured_json_response_with_reason sample_serde sample_message =
      .error (.InvalidFormat "invalid JSON (expected value)") := by
    rw [parse_structured_json_response_with_reason, htrim,
      show sample_serde.from_str sample_message = .error "expected value" from if_neg hdirect]
    rfl
  have hstrip : strip_markdown_code_fence sample_message = none := by
    rw [hend]
    exact strip_markdown_code_fence_brace _
  have hfence : find_embedded_code_fence_content sample_message = some (sample_response "x") := by
    decide +kernel
  have hsome : sample_message ≠ [] := by
    rw [hend]
    simp
  unfold parse_agent_response_strict
  rw [htrim, if_neg hsome]
  simp only [hparse, hstrip, hfence, Option.bind_some,
    parse_structured_json_response_with_recovery, sample_parse "x" (by simp)]

end Agentty.Protocol
