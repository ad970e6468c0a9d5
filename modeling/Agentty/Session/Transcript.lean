/-
Messages that are appended to a transcript while a snapshot of it is read.

A live message at the position of a loaded one that differs from it is given the position
after the message that was pushed last. That position may be taken, if a live message was
put into a gap of the loaded transcript before, and it may be that of a later live message,
which is dropped if it has the same text.
-/
import Mathlib.Data.List.Sort
import Mathlib.Algebra.Group.Int.Defs

set_option autoImplicit false

namespace Agentty.Session

open List

inductive SessionMessageKind where
  | UserPrompt
  | AgentPrompt
  | AssistantAnswer
  | WorkflowNotice
  deriving DecidableEq, Repr

structure SessionMessage where
  content : String
  kind : SessionMessageKind
  position : Int
  deriving DecidableEq, Repr

/-- `i64::MAX` -/
def MAX_POSITION : Int := 2 ^ 63 - 1

namespace SessionTranscript

/-- The messages of `SessionTranscript::new`. -/
def new (messages : List SessionMessage) : List SessionMessage :=
  messages.insertionSort fun a b => a.position ≤ b.position

/-- One turn of the loop. -/
def merge_message (messages : List SessionMessage) (live : SessionMessage) :
    List SessionMessage :=
  match messages.find? (·.position = live.position) with
  | some loaded =>
    if loaded = live then messages
    else
      let position := messages.getLast?.elim 0 fun last => min (last.position + 1) MAX_POSITION
      messages ++ [{ live with position }]
  | none => messages ++ [live]

def merge_unloaded_transcript (loaded live : List SessionMessage) : List SessionMessage :=
  new (live.foldl merge_message loaded)

def Increasing (messages : List SessionMessage) : Prop :=
  messages.Pairwise (·.position < ·.position)

/-- Two messages are the same but for their positions. -/
def SameText (a b : SessionMessage) : Prop := a.content = b.content ∧ a.kind = b.kind

/-- Every loaded message and every live one is there once, in order: `kept` are the live
ones as they are in the merged transcript. One that is there unchanged is kept as itself. -/
structure Merged (loaded live merged : List SessionMessage) : Prop where
  increasing : Increasing merged
  loaded_sublist : loaded.Sublist merged
  live_sublist : ∃ kept : List SessionMessage, kept.Sublist merged ∧
    List.Forall₂ (fun l k => SameText l k ∧ (l ∈ merged → k = l) ∧ (l ∉ merged → k ∉ loaded))
      live kept ∧
    ∀ message ∈ merged, message ∈ loaded ∨ message ∈ kept

/-- What becomes of a live message after the messages so far: it stays as it is if it is
among them or its position is free, and goes after the message pushed last if not. -/
def copy (messages : List SessionMessage) (live : SessionMessage) : SessionMessage :=
  match messages.find? (·.position = live.position) with
  | some loaded =>
    if loaded = live then live
    else
      let position := messages.getLast?.elim 0 fun last => min (last.position + 1) MAX_POSITION
      { live with position }
  | none => live

def copies (messages : List SessionMessage) : List SessionMessage → List SessionMessage
  | [] => []
  | l :: live => copy messages l :: copies (merge_message messages l) live

/-- The live messages come to increasing positions, and one that is not loaded to none of a
loaded one. -/
structure Mergeable (loaded live : List SessionMessage) : Prop where
  increasing : Increasing (copies loaded live)
  apart : ∀ pair ∈ live.zip (copies loaded live),
    pair.1 ∈ loaded ∨ ∀ m ∈ loaded, m.position ≠ pair.2.position

/-! ## One turn of the loop -/

/-- No two messages are at one position. -/
def Distinct (messages : List SessionMessage) : Prop := messages.Pairwise (·.position ≠ ·.position)

variable {messages live : List SessionMessage} {l : SessionMessage}

theorem Distinct.eq (h : Distinct messages) {a b : SessionMessage} (ha : a ∈ messages)
    (hb : b ∈ messages) (hposition : a.position = b.position) : a = b :=
  inj_on_of_nodup_map (pairwise_map.mpr h) ha hb hposition

theorem merge_message_of_mem (h : Distinct messages) (hl : l ∈ messages) :
    merge_message messages l = messages ∧ copy messages l = l := by
  unfold merge_message copy
  split
  · next found hfound =>
    have hsame := h.eq (mem_of_find?_eq_some hfound) hl (by simpa using find?_some hfound)
    exact ⟨if_pos hsame, if_pos hsame⟩
  · next hnone => simpa using find?_eq_none.mp hnone l hl

theorem merge_message_of_not_mem (hl : l ∉ messages) :
    merge_message messages l = messages ++ [copy messages l] := by
  unfold merge_message copy
  split
  · next found hfound =>
    have hne : found ≠ l := by
      rintro rfl
      exact hl (mem_of_find?_eq_some hfound)
    simp only [if_neg hne]
  · rfl

theorem merge_message_cases (messages : List SessionMessage) (l : SessionMessage) :
    merge_message messages l = messages ∨
      merge_message messages l = messages ++ [copy messages l] := by
  unfold merge_message copy
  split
  · next found _ =>
    by_cases heq : found = l
    · exact .inl (if_pos heq)
    · exact .inr (by simp only [if_neg heq])
  · exact .inr rfl

theorem sameText_copy (messages : List SessionMessage) (l : SessionMessage) :
    SameText l (copy messages l) := by
  unfold copy
  split
  · split
    · exact ⟨rfl, rfl⟩
    · exact ⟨rfl, rfl⟩
  · exact ⟨rfl, rfl⟩

/-- A message is moved only if another one is at its position, and then goes after the last. -/
theorem copy_cases (messages : List SessionMessage) (l : SessionMessage) :
    copy messages l = l ∨ (∃ m ∈ messages, m.position = l.position ∧ m ≠ l) ∧
      ∃ last, messages.getLast? = some last ∧
        (copy messages l).position = min (last.position + 1) MAX_POSITION := by
  unfold copy
  split
  · next found hfound =>
    by_cases heq : found = l
    · exact .inl (if_pos heq)
    · have hmem := mem_of_find?_eq_some hfound
      obtain ⟨last, hlast⟩ :=
        Option.isSome_iff_exists.mp (getLast?_isSome.mpr (ne_nil_of_mem hmem))
      refine .inr ⟨⟨found, hmem, by simpa using find?_some hfound, heq⟩, last, hlast, ?_⟩
      simp only [if_neg heq, hlast, Option.elim_some]
  · exact .inl rfl

/-! ## The loop -/

/-- Messages are only pushed. One that is not a live one as it was stands one position after
another that was pushed since. -/
theorem foldl_pushes (messages live : List SessionMessage) (c : SessionMessage) :
    ∃ added, live.foldl merge_message (messages ++ [c]) = messages ++ c :: added ∧
      ∀ k ∈ added, k ∈ live ∨ ∃ x, [x, k].Sublist (c :: added) ∧
        k.position = min (x.position + 1) MAX_POSITION := by
  induction live generalizing messages c with
  | nil => exact ⟨[], rfl, nofun⟩
  | cons l live ih =>
    rw [foldl_cons]
    rcases merge_message_cases (messages ++ [c]) l with hsame | hpush
    · obtain ⟨added, hfold, hadded⟩ := ih messages c
      exact ⟨added, by rw [hsame, hfold], fun k hk =>
        (hadded k hk).imp_left (mem_cons_of_mem _)⟩
    · obtain ⟨added, hfold, hadded⟩ := ih (messages ++ [c]) (copy (messages ++ [c]) l)
      refine ⟨copy (messages ++ [c]) l :: added, by rw [hpush, hfold]; simp, ?_⟩
      intro k hk
      rcases mem_cons.mp hk with rfl | hk
      · rcases copy_cases (messages ++ [c]) l with heq | ⟨-, last, hlast, hposition⟩
        · exact .inl (by rw [heq]; exact mem_cons_self)
        · obtain rfl : c = last := by simpa using hlast
          exact .inr ⟨c, by simp, hposition⟩
      · rcases hadded k hk with hlive | ⟨x, hsub, hposition⟩
        · exact .inl (mem_cons_of_mem _ hlive)
        · exact .inr ⟨x, hsub.cons _, hposition⟩

theorem prefix_foldl (messages live : List SessionMessage) :
    messages <+: live.foldl merge_message messages := by
  induction live generalizing messages with
  | nil => exact prefix_refl _
  | cons l live ih =>
    refine List.IsPrefix.trans ?_ (ih (merge_message messages l))
    rcases merge_message_cases messages l with h | h
    · simp only [h, prefix_refl]
    · simp only [h, prefix_append]

theorem foldl_max (h : ∀ m ∈ messages, m.position ≤ MAX_POSITION)
    (hlive : ∀ l ∈ live, l.position ≤ MAX_POSITION) :
    ∀ m ∈ live.foldl merge_message messages, m.position ≤ MAX_POSITION := by
  induction live generalizing messages with
  | nil => exact h
  | cons l live ih =>
    obtain ⟨hl, hlive⟩ := forall_mem_cons.mp hlive
    refine ih ?_ hlive
    rcases merge_message_cases messages l with hsame | hpush
    · rwa [hsame]
    · rw [hpush, forall_mem_append, forall_mem_singleton]
      refine ⟨h, ?_⟩
      rcases copy_cases messages l with heq | ⟨-, last, -, hposition⟩
      · rwa [heq]
      · omega

/-- What the messages come to if the live ones find their places. -/
structure Pushed (messages live kept final : List SessionMessage) : Prop where
  distinct : Distinct final
  subset : kept ⊆ final
  all : ∀ m ∈ final, m ∈ messages ∨ m ∈ kept
  same : List.Forall₂ (fun l k => SameText l k ∧ (l ∈ final → k = l) ∧ (l ∉ final → k ∉ messages))
    live kept

/-- By induction on the live messages: each is there already, or is pushed at a free position. -/
theorem foldl_of_copies (hmessages : Distinct messages)
    (hcopies : Increasing (copies messages live))
    (hapart : ∀ pair ∈ live.zip (copies messages live),
      pair.1 ∈ messages ∨ ∀ m ∈ messages, m.position ≠ pair.2.position) :
    Pushed messages live (copies messages live) (live.foldl merge_message messages) := by
  induction live generalizing messages with
  | nil => exact ⟨hmessages, by simp [copies], fun m hm => .inl hm, .nil⟩
  | cons l live ih =>
    obtain ⟨hafter, hcopies⟩ := pairwise_cons.mp hcopies
    obtain ⟨hl, hapart⟩ := forall_mem_cons.mp hapart
    have hsubset := (prefix_foldl messages (l :: live)).subset
    rw [foldl_cons] at hsubset ⊢
    rw [copies]
    by_cases hmem : l ∈ messages
    · obtain ⟨hmerge, hcopy⟩ := merge_message_of_mem hmessages hmem
      rw [hmerge] at hcopies hapart hsubset ⊢
      obtain ⟨hdistinct, hkept, hall, hsame⟩ := ih hmessages hcopies hapart
      rw [hcopy]
      refine ⟨hdistinct, cons_subset.mpr ⟨hsubset hmem, hkept⟩, fun m hm =>
        (hall m hm).imp_right (mem_cons_of_mem _),
        .cons ⟨⟨rfl, rfl⟩, fun _ => rfl, fun hlast => absurd (hsubset hmem) hlast⟩ hsame⟩
    · have hfree := hl.resolve_left hmem
      have htext := sameText_copy messages l
      have hcases := copy_cases messages l
      rw [merge_message_of_not_mem hmem] at hcopies hapart hafter hsubset ⊢
      generalize copy messages l = k at *
      have hdistinct : Distinct (messages ++ [k]) :=
        pairwise_append.mpr ⟨hmessages, pairwise_singleton _ _, by simpa using hfree⟩
      have hpushed := (prefix_foldl (messages ++ [k]) live).subset
      obtain ⟨hfinal, hkept, hall, hsame⟩ := ih hdistinct hcopies fun pair hpair =>
        (hapart pair hpair).imp (mem_append_left _) fun h => by
          rw [forall_mem_append, forall_mem_singleton]
          exact ⟨h, Int.ne_of_lt (hafter _ (of_mem_zip hpair).2)⟩
      refine ⟨hfinal, cons_subset.mpr ⟨hpushed (by simp), hkept⟩, ?_,
        .cons ⟨htext, fun hlast => hcases.resolve_right ?_, fun _ hk => hfree k hk rfl⟩ ?_⟩
      · intro m hm
        simpa [or_assoc] using hall m hm
      · rintro ⟨⟨m, hm, hposition, hne⟩, -⟩
        exact hne (hfinal.eq (hsubset hm) hlast hposition)
      · exact hsame.imp fun _ _ h =>
          ⟨h.1, h.2.1, fun hlast hk => h.2.2 hlast (mem_append_left _ hk)⟩

/-- The message that is kept for a live one that is not there yet is its copy. Otherwise it
would have been pushed later: for a later live message, which has its own, or right after
another that stands no earlier. -/
theorem kept_eq_copy {added final : List SessionMessage} {c k : SessionMessage}
    (hadded : final = messages ++ c :: added) (hfinal : Distinct final)
    (hmax : ∀ m ∈ final, m.position ≤ MAX_POSITION)
    (hpushed : ∀ k ∈ added, k ∈ live ∨ ∃ x, [x, k].Sublist (c :: added) ∧
      k.position = min (x.position + 1) MAX_POSITION)
    (hcopy : c = l ∨ ∃ m ∈ messages, m.position = l.position ∧ m ≠ l) (hk : k ∈ final)
    (hl : (l ∈ final → k = l) ∧ (l ∉ final → k ∉ messages))
    (hlive : ∀ x ∈ live, x ∈ final → x ≠ k)
    (hle : ∀ x ∈ c :: added, k.position ≤ x.position) : k = c := by
  by_cases hlast : l ∈ final
  · rw [hl.1 hlast]
    refine (hcopy.resolve_right ?_).symm
    rintro ⟨m, hm, hposition, hne⟩
    exact hne (hfinal.eq (hadded ▸ mem_append_left _ hm) hlast hposition)
  · have hk' := hk
    rw [hadded, mem_append] at hk'
    rcases mem_cons.mp (hk'.resolve_left (hl.2 hlast)) with heq | hmem
    · exact heq
    rcases hpushed k hmem with hk' | ⟨x, hsub, hposition⟩
    · exact absurd rfl (hlive k hk' hk)
    · have hx : x ∈ c :: added := hsub.subset (by simp)
      have hlower := hle x hx
      have hupper := hmax x (hadded ▸ mem_append_right _ hx)
      rw [hadded] at hfinal
      have hne := (pairwise_append.mp hfinal).2.1.sublist hsub
      simp at hne
      omega

/-- The other way round: if the messages keep the live ones in order, the ones they keep are
the copies. -/
theorem copies_of_kept {kept final : List SessionMessage}
    (hfold : live.foldl merge_message messages = final) (hfinal : Distinct final)
    (hmax : ∀ m ∈ final, m.position ≤ MAX_POSITION) (hkept : Increasing kept)
    (hlength : live.length = kept.length) (hsubset : kept ⊆ final)
    (hsame : ∀ pair ∈ live.zip kept, (pair.1 ∈ final → pair.2 = pair.1) ∧
      (pair.1 ∉ final → pair.2 ∉ messages))
    (hall : ∀ m ∈ final, m ∈ messages ∨ m ∈ kept) : copies messages live = kept := by
  induction live generalizing messages kept with
  | nil => exact (eq_nil_of_length_eq_zero hlength.symm).symm
  | cons l live ih =>
    obtain ⟨k, kept, rfl⟩ := exists_cons_of_length_eq_add_one hlength.symm
    obtain ⟨hk, hsubset⟩ := cons_subset.mp hsubset
    obtain ⟨hl, hrest⟩ := forall_mem_cons.mp hsame
    have hcount : live.length = kept.length := Nat.succ.inj hlength
    obtain ⟨hafter, hkept⟩ := pairwise_cons.mp hkept
    have hlater : ∀ pair ∈ live.zip kept, pair.2 ≠ k := by
      rintro pair hpair rfl
      exact Int.lt_irrefl _ (hafter pair.2 (of_mem_zip hpair).2)
    have hbefore : messages <+: final := hfold ▸ prefix_foldl messages (l :: live)
    rw [foldl_cons] at hfold
    rw [copies]
    by_cases hmem : l ∈ messages
    · obtain ⟨hmerge, hcopy⟩ := merge_message_of_mem (hfinal.sublist hbefore.sublist) hmem
      have hkl : k = l := hl.1 (hbefore.subset hmem)
      rw [hmerge] at hfold ⊢
      rw [hcopy, hkl, ih hfold hkept hcount hsubset hrest fun m hm => ?_]
      rcases hall m hm with h | h
      · exact .inl h
      · rcases mem_cons.mp h with rfl | h
        · exact .inl (hkl ▸ hmem)
        · exact .inr h
    · have hcopy := (copy_cases messages l).imp_right And.left
      rw [merge_message_of_not_mem hmem] at hfold ⊢
      generalize copy messages l = c at *
      obtain ⟨added, hadded, hpushed⟩ := foldl_pushes messages live c
      rw [hfold] at hadded
      have hle : ∀ x ∈ c :: added, k.position ≤ x.position := by
        intro x hx
        have hnew : x ∉ messages := fun hmem => by
          rw [hadded] at hfinal
          exact (pairwise_append.mp hfinal).2.2 x hmem x hx rfl
        have hx' := (hall x (hadded ▸ mem_append_right _ hx)).resolve_left hnew
        rcases mem_cons.mp hx' with rfl | hx'
        · exact Int.le_refl _
        · exact Int.le_of_lt (hafter x hx')
      obtain rfl : k = c := by
        refine kept_eq_copy hadded hfinal hmax hpushed hcopy hk hl (fun x hx hlast => ?_) hle
        -- a live message that is there as it was is kept as itself, and later
        rw [← map_fst_zip (Nat.le_of_eq hcount)] at hx
        obtain ⟨pair, hpair, rfl⟩ := mem_map.mp hx
        exact (hrest pair hpair).1 hlast ▸ hlater pair hpair
      rw [ih hfold hkept hcount hsubset (fun pair hpair => ⟨(hrest pair hpair).1, ?_⟩)
        fun m hm => ?_]
      · rw [mem_append, mem_singleton, not_or]
        exact fun hlast => ⟨(hrest pair hpair).2 hlast, hlater pair hpair⟩
      · simpa [or_assoc] using hall m hm

variable {loaded : List SessionMessage}

theorem merge_perm (loaded live : List SessionMessage) :
    (merge_unloaded_transcript loaded live).Perm (live.foldl merge_message loaded) :=
  perm_insertionSort _ _

theorem Merged.mergeable (hmax : ∀ m ∈ loaded ++ live, m.position ≤ MAX_POSITION)
    (h : Merged loaded live (merge_unloaded_transcript loaded live)) : Mergeable loaded live := by
  obtain ⟨hincreasing, -, kept, hsublist, hsame, hall⟩ := h
  have hperm := merge_perm loaded live
  obtain ⟨hlength, hpairs⟩ := forall₂_iff_zip.mp hsame
  have hfinal : Distinct (live.foldl merge_message loaded) :=
    (hincreasing.imp Int.ne_of_lt).perm hperm fun h => Ne.symm h
  have hbounded := foldl_max (fun m hm => hmax m (mem_append_left live hm))
    fun m hm => hmax m (mem_append_right loaded hm)
  have hcopies : copies loaded live = kept := by
    refine copies_of_kept rfl hfinal hbounded (hincreasing.sublist hsublist) hlength
      (fun k hk => hperm.mem_iff.mp (hsublist.subset hk)) (fun pair hpair => ?_)
      fun m hm => hall m (hperm.mem_iff.mpr hm)
    have h := (hpairs hpair).2
    rwa [hperm.mem_iff] at h
  rw [← hcopies] at hsublist hpairs
  refine ⟨hincreasing.sublist hsublist, fun pair hpair => or_iff_not_imp_left.mpr ?_⟩
  intro hl m hm hposition
  obtain ⟨-, hunchanged, hmoved⟩ := hpairs hpair
  have hmem := hsublist.subset (of_mem_zip hpair).2
  obtain rfl := hfinal.eq ((prefix_foldl loaded live).subset hm) (hperm.mem_iff.mp hmem) hposition
  by_cases hlast : pair.1 ∈ merge_unloaded_transcript loaded live
  · exact hl (hunchanged hlast ▸ hm)
  · exact hmoved hlast hm

theorem Mergeable.merged (hloaded : Increasing loaded) (h : Mergeable loaded live) :
    Merged loaded live (merge_unloaded_transcript loaded live) := by
  have hperm := merge_perm loaded live
  obtain ⟨hfinal, hkept, hall, hsame⟩ :=
    foldl_of_copies (hloaded.imp Int.ne_of_lt) h.increasing h.apart
  have hsorted : (merge_unloaded_transcript loaded live).Pairwise (·.position ≤ ·.position) :=
    pairwise_insertionSort _ _
  have hincreasing : Increasing (merge_unloaded_transcript loaded live) :=
    hsorted.imp₂ (fun a b hle hne => lt_of_le_of_ne hle hne)
      (hfinal.perm hperm.symm fun h => Ne.symm h)
  have hantisymm : Std.Antisymm fun a b : SessionMessage => a.position < b.position :=
    ⟨fun a b hab hba => absurd hba (Int.lt_asymm hab)⟩
  have hsublist : ∀ part, Increasing part → part ⊆ live.foldl merge_message loaded →
      part.Sublist (merge_unloaded_transcript loaded live) := by
    intro part hpart hsubset
    have hnodup : part.Nodup := hpart.imp fun hlt heq => by simp [heq] at hlt
    exact sublist_of_subperm_of_pairwise
      ((subperm_of_subset hnodup hsubset).trans hperm.symm.subperm) hpart hincreasing
  refine ⟨hincreasing, hsublist loaded hloaded (prefix_foldl loaded live).subset,
    copies loaded live, hsublist _ h.increasing hkept, ?_,
    fun m hm => hall m (hperm.mem_iff.mp hm)⟩
  simpa only [hperm.mem_iff] using hsame

end SessionTranscript

end Agentty.Session
