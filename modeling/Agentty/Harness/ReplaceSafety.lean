/-
What replacements and other writers leave of each other's files.

`Holding` ties the stage of an operation to the directory. It is kept by the calls of
the operation itself (`Holding.next`), and by everybody else, because nobody else moves
the file at its temporary name or changes what that file contains (`Holding.frame`).
The promises of the operation follow at the calls that matter, the unlink and the
answer to the caller, and are kept in the trace.
-/
import Agentty.Harness.ReplaceRuns

set_option autoImplicit false

namespace Agentty.Harness

open List

abbrev FileConfig : Type := Config FileCall FileCall.Reply IoError Directory Replacement

/-- Executed calls. -/
abbrev FileEntry : Type := Entry FileCall FileCall.Reply IoError Directory Replacement

/-! ## What a trace says about an operation -/

section Trace

variable (trace : List FileEntry) (op : Replacement)

/-- The operation has created this file at its temporary name. -/
def Opened (p : FileId) : Prop :=
  ∃ before, (⟨op, .open_temporary op, .ok p, before⟩ : FileEntry) ∈ trace

/-- An exchange of the operation has taken `p`, with the new content, to the target, and
`x` from there. -/
def Exchanged (p x : FileId) (content : Option Bytes) : Prop :=
  ∃ before, (⟨op, .exchange op, .ok (), before⟩ : FileEntry) ∈ trace ∧
    before.target = some x ∧ before.content x = content ∧
    before.temporary op = some p ∧ before.content p = some op.content

/-- A rename of the operation has taken `p`, with the new content, to a free target. -/
def Created (p : FileId) : Prop :=
  ∃ before, (⟨op, .rename_noreplace op, .ok (), before⟩ : FileEntry) ∈ trace ∧
    before.target = none ∧ before.temporary op = some p ∧ before.content p = some op.content

/-- In one call of the operation the target has gone from what was expected to the new
content. -/
def Went : Prop :=
  match op.expected with
  | some expected => ∃ p x, Exchanged trace op p x (some expected)
  | none => ∃ p, Created trace op p

/-- Somebody's replacement has unlinked this file. -/
def UnlinkedBy (file : FileId) : Prop :=
  ∃ before, (⟨op, .unlink_temporary op, .ok (), before⟩ : FileEntry) ∈ trace ∧
    before.temporary op = some file

/-- The operation has unlinked nothing but a file it had created itself. -/
def Harmless : Prop := ∀ file, UnlinkedBy trace op file → Opened trace op file

end Trace

section Monotone

variable {trace trace' : List FileEntry} {op : Replacement} {p x : FileId} {content : Option Bytes}

theorem Opened.mono (h : Opened trace op p) (hsub : trace ⊆ trace') : Opened trace' op p :=
  h.imp fun _ hmem => hsub hmem

theorem Exchanged.mono (h : Exchanged trace op p x content) (hsub : trace ⊆ trace') :
    Exchanged trace' op p x content :=
  h.imp fun _ h => ⟨hsub h.1, h.2⟩

theorem Created.mono (h : Created trace op p) (hsub : trace ⊆ trace') : Created trace' op p :=
  h.imp fun _ h => ⟨hsub h.1, h.2⟩

theorem Went.mono (h : Went trace op) (hsub : trace ⊆ trace') : Went trace' op := by
  unfold Went at h ⊢
  split
  · next expected heq =>
    rw [heq] at h
    obtain ⟨p, x, h⟩ := h
    exact ⟨p, x, h.mono hsub⟩
  · next heq =>
    rw [heq] at h
    obtain ⟨p, h⟩ := h
    exact ⟨p, h.mono hsub⟩

theorem UnlinkedBy.mono {file : FileId} (h : UnlinkedBy trace op file) (hsub : trace ⊆ trace') :
    UnlinkedBy trace' op file :=
  h.imp fun _ h => ⟨hsub h.1, h.2⟩

end Monotone

/-! ## What a stage says about the directory -/

/-- What is at the temporary name of an operation, and how it got there. -/
def Holding (trace : List FileEntry) (directory : Directory) (op : Replacement) : Stage → Prop
  | .begun => True
  | .opened p => Opened trace op p ∧ directory.temporary op = some p
  | .prepared p => Opened trace op p ∧ directory.temporary op = some p ∧
      directory.content p = some op.content
  | .exchanged p => Opened trace op p ∧
      ∃ x, directory.temporary op = some x ∧ Exchanged trace op p x (directory.content x)
  | .checked p | .confirmed p => ∃ x expected, op.expected = some expected ∧
      directory.temporary op = some x ∧ directory.content x = some expected ∧
      Exchanged trace op p x (some expected)
  | .rolled_back p => Opened trace op p
  | .recovered p => Opened trace op p ∧ directory.temporary op = some p
  | .created _ | .replaced _ => Went trace op
  | .left _ | .withdrawn _ => True

section Stages

variable {trace trace' : List FileEntry} {directory directory' : Directory} {op : Replacement}
  {s : Stage} {call : FileCall} {reply : Except IoError call.Reply}

section

variable (h : Holding trace directory op s)

include h

/-- What a stage says stays true while the file at the temporary name stays there and
keeps its content. -/
theorem Holding.frame (hsub : trace ⊆ trace')
    (htemporary : directory'.temporary op = directory.temporary op)
    (hcontent : ∀ file, directory.temporary op = some file →
      directory'.content file = directory.content file) :
    Holding trace' directory' op s := by
  cases s with
  | begun | left | withdrawn => trivial
  | opened | recovered => exact ⟨h.1.mono hsub, htemporary.trans h.2⟩
  | prepared p =>
    obtain ⟨hopened, hat, hnew⟩ := h
    exact ⟨hopened.mono hsub, htemporary.trans hat, (hcontent p hat).trans hnew⟩
  | exchanged p =>
    obtain ⟨hopened, x, hat, hex⟩ := h
    exact ⟨hopened.mono hsub, x, htemporary.trans hat, (hcontent x hat).symm ▸ hex.mono hsub⟩
  | checked | confirmed =>
    obtain ⟨x, expected, hop, hat, hx, hex⟩ := h
    exact ⟨x, expected, hop, htemporary.trans hat, (hcontent x hat).trans hx, hex.mono hsub⟩
  | rolled_back p => exact Opened.mono h hsub
  | created | replaced => exact Went.mono h hsub

/-- From the check of the displaced file on, the target has gone as it should. -/
theorem Holding.went (hs : s.succeeded = true) : Went trace op := by
  cases s with
  | confirmed p =>
    obtain ⟨x, expected, hop, -, -, hex⟩ := h
    unfold Went
    rw [hop]
    exact ⟨p, x, hex⟩
  | created | replaced => exact h
  | _ => cases hs

/-- A stage with the prepared file at the temporary name has created it. -/
theorem Holding.opened (hs : s.holds_prepared = true) :
    ∃ p, directory.temporary op = some p ∧ Opened trace op p := by
  cases s with
  | opened p | recovered p => exact ⟨p, h.2, h.1⟩
  | prepared p => exact ⟨p, h.2.1, h.1⟩
  | _ => cases hs

/-- A call that leaves the directory alone may tell the operation something. -/
theorem Holding.observe (hpermits : Permits op s call) (hobserved : Observed directory call reply)
    (hsub : trace ⊆ trace') : Holding trace' directory op (s.next call reply) := by
  have hkept : Holding trace' directory op s := h.frame hsub rfl fun _ _ => rfl
  cases reply with
  | error error => cases call <;> cases s <;> exact hkept
  | ok value =>
    cases call with
    | verify_target name expected =>
      obtain ⟨hop, ⟨-, p, rfl⟩ | ⟨rfl, p, rfl⟩⟩ := hpermits
      · exact hkept
      · obtain ⟨hfile, hcontent⟩ := hobserved
        obtain ⟨-, x, hat, hex⟩ := hkept
        obtain rfl : value = x := Option.some.inj (hfile.symm.trans hat)
        rw [hcontent] at hex
        exact ⟨value, expected, hop, hat, hcontent, hex⟩
    | path_matches_file name file =>
      obtain ⟨rfl, rfl⟩ | ⟨rfl, rfl⟩ := hpermits
      · cases value <;> exact hkept
      · cases value with
        | false => exact hkept
        | true =>
          have hat : directory.temporary op = some file := beq_iff_eq.mp hobserved.symm
          exact ⟨hkept, hat⟩
    | open_temporary | write_all | exchange | rename_noreplace | unlink_temporary => cases hobserved
    | _ => cases s <;> exact hkept

/-- **The calls of the operation itself.** -/
theorem Holding.next (hpermits : Permits op s call)
    (heffect : Effect directory call reply directory') :
    Holding (⟨op, call, reply, directory⟩ :: trace) directory' op (s.next call reply) := by
  have hsub : trace ⊆ (⟨op, call, reply, directory⟩ : FileEntry) :: trace := subset_cons_self _ _
  cases heffect with
  | quiet hobserved => exact h.observe hpermits hobserved hsub
  | opened free =>
    obtain ⟨rfl, rfl⟩ := hpermits
    exact ⟨⟨directory, mem_cons_self⟩, by simp⟩
  | @wrote file content written reply whole =>
    obtain ⟨rfl, rfl⟩ := hpermits
    cases reply with
    | error error => exact ⟨h.1.mono hsub, h.2⟩
    | ok _ =>
      obtain rfl := whole rfl
      exact ⟨h.1.mono hsub, h.2, by simp [Directory.set_content]⟩
  | @exchanged _ temporary target at_temporary at_target =>
    obtain ⟨rfl, ⟨p, rfl⟩ | ⟨p, rfl⟩ | ⟨p, rfl⟩⟩ := hpermits
    · obtain ⟨hopened, hat, hnew⟩ := h
      exact ⟨hopened.mono hsub, target, by simp, directory, mem_cons_self, at_target, rfl,
        hat, hnew⟩
    · exact h.1.mono hsub
    · trivial
  | @renamed _ temporary at_temporary free =>
    obtain ⟨rfl, hop, p, rfl⟩ := hpermits
    obtain ⟨-, hat, hnew⟩ := h
    show Went _ _
    unfold Went
    rw [hop]
    exact ⟨p, directory, mem_cons_self, free, hat, hnew⟩
  | unlinked =>
    obtain ⟨rfl, hs | ⟨p, rfl⟩⟩ := hpermits
    · cases s with
      | opened | prepared | recovered => trivial
      | _ => cases hs
    · exact (h.went rfl).mono hsub

/-- **The calls of an operation, as the others see them**: their temporary names and
the files there stay as they are. -/
theorem Holding.others (hfiles : directory.WellFormed) (hpermits : Permits op s call)
    (heffect : Effect directory call reply directory') {op' : Replacement} (hne : op' ≠ op) :
    directory'.temporary op' = directory.temporary op' ∧
      ∀ file, directory.temporary op' = some file →
        directory'.content file = directory.content file := by
  cases heffect with
  | quiet _ => exact ⟨rfl, fun _ _ => rfl⟩
  | opened free =>
    obtain ⟨rfl, -⟩ := hpermits
    refine ⟨by simp [hne, Directory.create, Directory.set_content], fun file hat => ?_⟩
    exact Function.update_of_ne (Nat.ne_of_lt (hfiles.created file (.temporary op') hat)) _ _
  | @wrote file content written reply whole =>
    obtain ⟨rfl, -⟩ := hpermits
    refine ⟨rfl, fun f hat => Function.update_of_ne ?_ _ _⟩
    exact hfiles.ne (p := .temporary op) (q := .temporary op') h.2 hat (by simpa using hne)
  | exchanged | renamed | unlinked =>
    obtain ⟨rfl, -⟩ := hpermits
    exact ⟨by simp [hne], fun _ _ => rfl⟩

end

/-! ## Files are not lost -/

/-- **A call of an operation moves files only between the target and its temporary
name**, and a file is gone only after it was unlinked. -/
theorem Effect.keeps (heffect : Effect directory call reply directory')
    (hpermits : Permits op s call) {file : FileId} {place : Place} (hat : directory.At file place) :
    directory'.At file place ∨
      ((place = .target ∨ place = .temporary op) ∧
        (directory'.At file .target ∨ directory'.At file (.temporary op) ∨
          UnlinkedBy [⟨op, call, reply, directory⟩] op file)) := by
  cases heffect with
  | quiet _ => exact .inl hat
  | @opened own free =>
    left
    cases place with
    | target | elsewhere => exact hat
    | temporary op' =>
      have hne : op' ≠ own := by
        rintro rfl
        rw [Directory.At, free] at hat
        cases hat
      simpa [Directory.At, hne, Directory.create, Directory.set_content] using hat
  | wrote _ => exact .inl (by cases place <;> exact hat)
  | @exchanged own temporary target at_temporary at_target =>
    obtain ⟨rfl, -⟩ := hpermits
    cases place with
    | target =>
      obtain rfl : target = file := Option.some.inj (at_target.symm.trans hat)
      exact .inr ⟨.inl rfl, .inr (.inl (by simp [Directory.At]))⟩
    | elsewhere => exact .inl hat
    | temporary op' =>
      by_cases hop : op' = own
      · subst hop
        exact .inr ⟨.inr rfl, .inl (at_temporary.symm.trans hat)⟩
      · exact .inl (by simpa [Directory.At, hop] using hat)
  | @renamed own temporary at_temporary free =>
    obtain ⟨rfl, -⟩ := hpermits
    cases place with
    | target =>
      rw [Directory.At, free] at hat
      cases hat
    | elsewhere => exact .inl hat
    | temporary op' =>
      by_cases hop : op' = own
      · subst hop
        exact .inr ⟨.inr rfl, .inl (at_temporary.symm.trans hat)⟩
      · exact .inl (by simpa [Directory.At, hop] using hat)
  | @unlinked own file' at_temporary =>
    obtain ⟨rfl, -⟩ := hpermits
    cases place with
    | target | elsewhere => exact .inl hat
    | temporary op' =>
      by_cases hop : op' = own
      · subst hop
        exact .inr ⟨.inr rfl, .inr (.inr ⟨directory, mem_cons_self, hat⟩)⟩
      · exact .inl (by simpa [Directory.At, hop] using hat)

/-- Other writers lose only what they remove themselves. -/
theorem Directory.other_keeps {move : WriterMove} (hmove : directory.other move = some directory')
    {file : FileId} {place : Place} (hat : directory.At file place) :
    (∃ place', directory'.At file place') ∨ file ∈ directory'.removed := by
  cases move with
  | prepare =>
    cases hmove
    left
    cases place with
    | target => exact ⟨.target, hat⟩
    | temporary op => exact ⟨.temporary op, hat⟩
    | elsewhere => exact ⟨.elsewhere, mem_cons_of_mem _ hat⟩
  | rename renamed =>
    simp only [Directory.other] at hmove
    split at hmove
    · cases hmove
      cases place with
      | target =>
        rw [Directory.At] at hat
        simp [hat]
      | temporary op => exact .inl ⟨.temporary op, hat⟩
      | elsewhere =>
        left
        by_cases heq : file = renamed
        · exact ⟨.target, congrArg some heq.symm⟩
        · exact ⟨.elsewhere, (mem_erase_of_ne heq).mpr hat⟩
    · cases hmove
  | exchange renamed =>
    simp only [Directory.other] at hmove
    split at hmove
    · cases hmove
    rename_i target htarget
    split at hmove
    · cases hmove
      left
      cases place with
      | target =>
        obtain rfl : target = file := Option.some.inj (htarget.symm.trans hat)
        exact ⟨.elsewhere, mem_cons_self⟩
      | temporary op => exact ⟨.temporary op, hat⟩
      | elsewhere =>
        by_cases heq : file = renamed
        · exact ⟨.target, congrArg some heq.symm⟩
        · exact ⟨.elsewhere,
            mem_cons_of_mem _ ((mem_erase_of_ne heq).mpr hat)⟩
    · cases hmove
  | unlink =>
    simp only [Directory.other] at hmove
    split at hmove
    · cases hmove
    rename_i target htarget
    cases hmove
    cases place with
    | target =>
      obtain rfl : target = file := Option.some.inj (htarget.symm.trans hat)
      exact .inr mem_cons_self
    | temporary op => exact .inl ⟨.temporary op, hat⟩
    | elsewhere => exact .inl ⟨.elsewhere, hat⟩

/-- What is removed stays removed, and a new file has a place. -/
theorem Directory.other_grows {move : WriterMove} (hmove : directory.other move = some directory') :
    directory.removed ⊆ directory'.removed ∧
      ∀ file, file < directory'.next_file →
        file < directory.next_file ∨ directory'.At file .elsewhere := by
  cases move with
  | prepare =>
    cases hmove
    refine ⟨List.Subset.refl _, fun file hlt => ?_⟩
    rcases Nat.lt_succ_iff_lt_or_eq.mp hlt with hlt | rfl
    · exact .inl hlt
    · exact .inr mem_cons_self
  | rename file =>
    simp only [Directory.other] at hmove
    split at hmove
    · cases hmove
      exact ⟨subset_append_right _ _, fun _ hlt => .inl hlt⟩
    · cases hmove
  | exchange file =>
    simp only [Directory.other] at hmove
    split at hmove
    · cases hmove
    · split at hmove
      · cases hmove
        exact ⟨List.Subset.refl _, fun _ hlt => .inl hlt⟩
      · cases hmove
  | unlink =>
    simp only [Directory.other] at hmove
    split at hmove
    · cases hmove
    · cases hmove
      exact ⟨subset_cons_self _ _, fun _ hlt => .inl hlt⟩

theorem Effect.grows (heffect : Effect directory call reply directory') :
    directory'.removed = directory.removed ∧
      ∀ file, file < directory'.next_file →
        file < directory.next_file ∨ ∃ place, directory'.At file place := by
  cases heffect with
  | @opened own free =>
    refine ⟨rfl, fun file hlt => ?_⟩
    rcases Nat.lt_succ_iff_lt_or_eq.mp hlt with hlt | rfl
    · exact .inl hlt
    · exact .inr ⟨.temporary own, by simp [Directory.At]⟩
  | _ => exact ⟨rfl, fun _ hlt => .inl hlt⟩

end Stages

/-! ## Runs -/

/-- A temporary name is used for one operation: it has the number of the process and
the next number of a sequence of the process. -/
def RunsOnce (cfg : FileConfig) : Label FileChoice WriterMove Replacement Replacement → Prop
  | .start op => ∀ e ∈ cfg.trace, e.actor ≠ op
  | _ => True

/-- Every file is at some place, or other writers have removed it, or an operation has
unlinked it. -/
def Accounted (cfg : FileConfig) : Prop :=
  ∀ file, file < cfg.world.next_file →
    (∃ place, cfg.world.At file place) ∨ file ∈ cfg.world.removed ∨
      ∃ op, UnlinkedBy cfg.trace op file

/-- What an operation promises about a call, given the calls before it. It unlinks the
file it created, or a file it displaced that has the expected content. It reports
success when the target has gone from what was expected to the new content. When it
reports an error, it has unlinked nothing but the file it created. -/
def Promised (e : FileEntry) (older : List FileEntry) : Prop :=
  match e.call, e.reply with
  | .unlink_temporary op, .ok _ => op = e.actor ∧ ∃ file, e.before.temporary op = some file ∧
      (Opened older op file ∨ ∃ p expected, op.expected = some expected ∧
        e.before.content file = some expected ∧ Exchanged older op p file (some expected))
  | .acknowledge (.ok _), _ => Went older e.actor
  | .acknowledge (.error _), _ => Harmless older e.actor
  | _, _ => True

/-- What holds in every configuration of a run. -/
structure Careful (cfg : FileConfig) : Prop where
  files : cfg.world.WellFormed
  holding : ∀ op log, cfg.log op = some log → Holding cfg.trace cfg.world op (stage log)
  /-- Only an operation that has replaced the target unlinks a file of somebody else. -/
  harmless : ∀ op log, cfg.log op = some log → (∀ p, stage log ≠ .replaced p) →
    Harmless cfg.trace op
  accounted : Accounted cfg
  promised : Every Promised cfg.trace

section Steps

variable {cfg cfg' : FileConfig} {op : Replacement} {log : FileLog} {call : FileCall}
  {reply : Except IoError call.Reply} {directory : Directory}

section

variable (h : Careful cfg) (hlog : cfg.log op = some log) (hpermits : Permits op (stage log) call)

include h hlog hpermits

/-- The promise of a call follows from the stage before it. -/
theorem Careful.promises (heffect : Effect cfg.world call reply directory) :
    Promised ⟨op, call, reply, cfg.world⟩ cfg.trace := by
  have hholding := h.holding op log hlog
  cases heffect with
  | unlinked =>
    obtain ⟨rfl, hs | ⟨p, hs⟩⟩ := hpermits
    · obtain ⟨p, hat, hopened⟩ := hholding.opened hs
      exact ⟨rfl, p, hat, .inl hopened⟩
    · rw [hs] at hholding
      obtain ⟨x, expected, hop, hat, hx, hex⟩ := hholding
      exact ⟨rfl, x, hat, .inr ⟨p, expected, hop, hx, hex⟩⟩
  | quiet hobserved =>
    cases call with
    | acknowledge result =>
      cases result with
      | ok _ => exact hholding.went hpermits
      | error error =>
        refine h.harmless op log hlog fun p hs => ?_
        have hfailed : (stage log).succeeded = false := hpermits
        rw [hs] at hfailed
        cases hfailed
    | unlink_temporary op' =>
      cases reply with
      | ok _ => cases hobserved
      | error error => trivial
    | _ => trivial
  | _ => trivial

/-- An operation that has not replaced the target has not unlinked a file of somebody
else with this call either. -/
theorem Careful.stays_harmless (hs : ∀ p, (stage log).next call reply ≠ .replaced p) :
    Harmless (⟨op, call, reply, cfg.world⟩ :: cfg.trace) op := by
  have hsub : cfg.trace ⊆ (⟨op, call, reply, cfg.world⟩ : FileEntry) :: cfg.trace :=
    subset_cons_self _ _
  rintro file ⟨before, hmem, hat⟩
  rcases mem_cons.mp hmem with heq | hmem
  · -- the call itself unlinked the file; the stage says which file it was
    cases heq
    obtain ⟨-, hholds | ⟨p, hstage⟩⟩ := hpermits
    · obtain ⟨p, hat', hopened⟩ := (h.holding op log hlog).opened hholds
      obtain rfl : p = file := Option.some.inj (hat'.symm.trans hat)
      exact hopened.mono hsub
    · exact absurd (by rw [hstage]; rfl) (hs p)
  · refine Opened.mono (h.harmless op log hlog (fun p hstage => ?_) file ⟨before, hmem, hat⟩) hsub
    refine hs p ?_
    rw [hstage]
    cases call <;> rfl

end

theorem Accounted.called (h : Accounted cfg) (hpermits : Permits op (stage log) call)
    (heffect : Effect cfg.world call reply cfg'.world)
    (htrace : cfg'.trace = ⟨op, call, reply, cfg.world⟩ :: cfg.trace) : Accounted cfg' := by
  obtain ⟨hremoved, hnew⟩ := heffect.grows
  have hsub : cfg.trace ⊆ cfg'.trace := htrace ▸ subset_cons_self _ _
  intro file hlt
  rcases hnew file hlt with hlt | hplace
  · rcases h file hlt with ⟨place, hat⟩ | hmem | ⟨op', hunlinked⟩
    · rcases heffect.keeps hpermits hat with hat | ⟨-, hat | hat | hunlinked⟩
      · exact .inl ⟨place, hat⟩
      · exact .inl ⟨.target, hat⟩
      · exact .inl ⟨.temporary op, hat⟩
      · refine .inr (.inr ⟨op, hunlinked.mono ?_⟩)
        rw [htrace]
        exact cons_subset_cons _ (nil_subset _)
    · exact .inr (.inl (hremoved ▸ hmem))
    · exact .inr (.inr ⟨op', hunlinked.mono hsub⟩)
  · exact .inl hplace

theorem Accounted.env (h : Accounted cfg) {move : WriterMove}
    (hmove : cfg.world.other move = some cfg'.world) (htrace : cfg'.trace = cfg.trace) :
    Accounted cfg' := by
  obtain ⟨hremoved, hnew⟩ := Directory.other_grows hmove
  intro file hlt
  rcases hnew file hlt with hlt | hat
  · rcases h file hlt with ⟨place, hat⟩ | hmem | ⟨op, hunlinked⟩
    · rcases Directory.other_keeps hmove hat with hplace | hmem
      · exact .inl hplace
      · exact .inr (.inl hmem)
    · exact .inr (.inl (hremoved hmem))
    · exact .inr (.inr ⟨op, htrace ▸ hunlinked⟩)
  · exact .inl ⟨.elsewhere, hat⟩

end Steps

/-- The view of a step of the writers. -/
abbrev FileView (cfg cfg' : FileConfig) :
    Label FileChoice WriterMove Replacement Replacement → Prop :=
  writers.View (fun op log call => Permits op (stage log) call) cfg cfg'

/-- **One step keeps the invariant.** -/
theorem Careful.step {cfg cfg' : FileConfig} (h : Careful cfg)
    {l : Label FileChoice WriterMove Replacement Replacement} (hl : RunsOnce cfg l)
    (hview : FileView cfg cfg' l) : Careful cfg' := by
  cases hview with
  | start op world trace idle own others =>
    have hlogs : ∀ op' log, cfg'.log op' = some log →
        (op' = op ∧ log = []) ∨ (op' ≠ op ∧ cfg.log op' = some log) := by
      intro op' log hlog
      by_cases hop : op' = op
      · subst hop
        exact .inl ⟨rfl, own log hlog⟩
      · exact .inr ⟨hop, others op' hop ▸ hlog⟩
    refine ⟨world ▸ h.files, fun op' log hlog => ?_, fun op' log hlog hs => ?_, ?_,
      trace ▸ h.promised⟩
    · rcases hlogs op' log hlog with ⟨rfl, rfl⟩ | ⟨-, hlog⟩
      · trivial
      · rw [world, trace]
        exact h.holding op' log hlog
    · rcases hlogs op' log hlog with ⟨rfl, rfl⟩ | ⟨-, hlog⟩
      · rintro file ⟨before, hmem, -⟩
        exact absurd rfl (hl _ (trace ▸ hmem))
      · rw [trace]
        exact h.harmless op' log hlog hs
    · intro file hlt
      rw [world] at hlt ⊢
      rw [trace]
      exact h.accounted file hlt
  | call op x call reply log next hlog justified admitted exec trace own others =>
    have heffect := effect_of_exec exec
    have hholding := h.holding op log hlog
    have hsub : cfg.trace ⊆ cfg'.trace := trace ▸ subset_cons_self _ _
    refine ⟨h.files.effect heffect, fun op' log' hlog' => ?_, fun op' log' hlog' hs => ?_,
      h.accounted.called justified heffect trace, ?_⟩
    · by_cases hop : op' = op
      · subst hop
        rw [own log' hlog', trace]
        exact hholding.next justified heffect
      · obtain ⟨htemporary, hcontent⟩ := hholding.others h.files justified heffect hop
        exact (h.holding op' log' (others op' hop ▸ hlog')).frame hsub htemporary hcontent
    · by_cases hop : op' = op
      · subst hop
        rw [trace]
        rw [own log' hlog'] at hs
        exact h.stays_harmless hlog justified hs
      · rintro file ⟨before, hmem, hat⟩
        rw [trace] at hmem
        rcases mem_cons.mp hmem with heq | hmem
        · cases heq
          exact absurd rfl hop
        · exact (h.harmless op' log' (others op' hop ▸ hlog') hs file
            ⟨before, hmem, hat⟩).mono hsub
    · rw [trace]
      exact ⟨h.promises hlog justified heffect, h.promised⟩
  | env move world trace logs =>
    obtain ⟨hfiles, htemporary, hcontent⟩ := h.files.other world
    refine ⟨hfiles, fun op log hlog => ?_, fun op log hlog hs => ?_,
      h.accounted.env world trace, trace ▸ h.promised⟩
    · refine (h.holding op log (logs op ▸ hlog)).frame (trace ▸ List.Subset.refl _)
        (congrFun htemporary op) fun file hat => hcontent file ?_
      exact h.files.created file (.temporary op) hat
    · rw [trace]
      exact h.harmless op log (logs op ▸ hlog) hs
  | crash world trace logs =>
    refine ⟨world ▸ h.files, fun op log hlog => ?_, fun op log hlog => ?_, ?_,
      trace ▸ h.promised⟩
    · rw [logs op] at hlog
      cases hlog
    · rw [logs op] at hlog
      cases hlog
    · intro file hlt
      rw [world] at hlt ⊢
      rw [trace]
      exact h.accounted file hlt

section Runs

variable {directory : Directory} {cfg : FileConfig}

/-- **The invariant holds in every run** from a directory whose files are where they
are. -/
theorem careful_of_reaches (hfiles : directory.WellFormed)
    (hplaces : ∀ file, file < directory.next_file → ∃ place, directory.At file place)
    (hreach : writers.Reaches RunsOnce (Config.idle directory) cfg) : Careful cfg := by
  refine hreach.invariant Careful ?_ fun mid l mid' hmid ih hl hstep =>
    ih.step hl (hmid.view writers_certified (fun _ => rfl) hstep)
  refine ⟨hfiles, ?_, ?_, fun file hlt => .inl (hplaces file hlt), trivial⟩
  · intro op log hlog
    cases hlog
  · intro op log hlog
    cases hlog

/-- What the writers can rely on. -/
structure StaleSafe (cfg : FileConfig) : Prop where
  /-- Every call has kept its promise. -/
  promised : ∀ newer e older, cfg.trace = newer ++ e :: older → Promised e older
  /-- When an operation is about to report an error, every file it has not created itself
  has a place, or was removed by another writer or unlinked by another operation. -/
  failed : ∀ op error, cfg.next op = some (.acknowledge (.error error)) →
    ∀ file, file < cfg.world.next_file → ¬ Opened cfg.trace op file →
      (∃ place, cfg.world.At file place) ∨ file ∈ cfg.world.removed ∨
        ∃ op', op' ≠ op ∧ UnlinkedBy cfg.trace op' file
  /-- A call of an operation leaves every file where it is, apart from those at the target
  and at its temporary name; and one of those is there after the call, or is the file the
  call unlinked. -/
  moves : ∀ op choice cfg', writers.step cfg (.call op choice) = some cfg' →
    ∀ file place, cfg.world.At file place → cfg'.world.At file place ∨
      ((place = .target ∨ place = .temporary op) ∧
        (cfg'.world.At file .target ∨ cfg'.world.At file (.temporary op) ∨
          ∃ e, cfg'.trace = e :: cfg.trace ∧ UnlinkedBy [e] op file))

/-- **Replacements are stale-safe**, for any number of operations and other writers and
any interleaving of their calls, with calls that fail and crashes at any point. -/
theorem replacements_stale_safe (hfiles : directory.WellFormed)
    (hplaces : ∀ file, file < directory.next_file → ∃ place, directory.At file place)
    (hreach : writers.Reaches RunsOnce (Config.idle directory) cfg) : StaleSafe cfg := by
  have hcareful := careful_of_reaches hfiles hplaces hreach
  refine ⟨fun newer e older htrace => hcareful.promised.at htrace, ?_, ?_⟩
  · intro op error hnext file hlt hforeign
    obtain ⟨thread, hthread, hcall⟩ := Option.map_eq_some_iff.mp hnext
    have hpermits := hreach.justified writers_certified (fun _ => rfl) hthread
    rw [hcall] at hpermits
    have hlog : cfg.log op = some thread.log := by rw [Config.log, hthread, Option.map_some]
    have hharmless : Harmless cfg.trace op := by
      refine hcareful.harmless op thread.log hlog fun p hs => ?_
      have hfailed : (stage thread.log).succeeded = false := hpermits
      rw [hs] at hfailed
      cases hfailed
    rcases hcareful.accounted file hlt with hplace | hmem | ⟨op', hunlinked⟩
    · exact .inl hplace
    · exact .inr (.inl hmem)
    · refine .inr (.inr ⟨op', ?_, hunlinked⟩)
      rintro rfl
      exact hforeign (hharmless file hunlinked)
  · intro op choice cfg' hstep file place hat
    cases hreach.view writers_certified (fun _ => rfl) hstep with
    | call _ _ call reply log next hlog justified admitted exec trace =>
      rcases (effect_of_exec exec).keeps justified hat with hat | ⟨hplace, hat | hat | hunlinked⟩
      · exact .inl hat
      · exact .inr ⟨hplace, .inl hat⟩
      · exact .inr ⟨hplace, .inr (.inl hat)⟩
      · exact .inr ⟨hplace, .inr (.inr ⟨_, trace, hunlinked⟩)⟩

end Runs

/-- A target with one byte, and a file of another writer. -/
def contested_directory : Directory where
  target := some 0
  temporary _ := none
  content file := some (if file = 0 then [1] else [9])
  elsewhere := [1]
  removed := []
  next_file := 2

/-- An update of that target. -/
def contested_update : Replacement := ⟨0, some [1], [2]⟩

/-- The other file is renamed to the target between the check and the exchange; the
update notices, exchanges back and removes its own file. -/
def contested_schedule : List (Label FileChoice WriterMove Replacement Replacement) :=
  [.start contested_update] ++ replicate 5 (.call contested_update .succeed) ++
    [.env (.rename 1)] ++ replicate 8 (.call contested_update .succeed)

/-- Whether a step uses a temporary name again. -/
def runs_once (cfg : FileConfig) : Label FileChoice WriterMove Replacement Replacement → Bool
  | .start op => cfg.trace.all fun e => e.actor != op
  | _ => true

theorem runsOnce_of_runs_once (cfg : FileConfig)
    (l : Label FileChoice WriterMove Replacement Replacement) (h : runs_once cfg l = true) :
    RunsOnce cfg l := by
  cases l with
  | start op =>
    intro e hmem
    exact bne_iff_ne.mp (all_eq_true.mp h e hmem)
  | _ => trivial

theorem contested_directory_wellFormed : contested_directory.WellFormed := by
  refine ⟨fun file place place' h h' => ?_, by decide, fun file place h => ?_⟩
  · cases place <;> cases place' <;>
      simp_all [Directory.At, contested_directory]
  · cases place with
    | target =>
      obtain rfl : 0 = file := Option.some.inj h
      decide
    | temporary op => cases h
    | elsewhere =>
      obtain rfl : file = 1 := mem_singleton.mp h
      decide

theorem contested_directory_places (file : FileId) (h : file < contested_directory.next_file) :
    ∃ place, contested_directory.At file place := by
  match file, h with
  | 0, _ => exact ⟨.target, rfl⟩
  | 1, _ => exact ⟨.elsewhere, mem_singleton_self 1⟩

/-- Whether the run has come to the end described, with the other file at the target. -/
def contested_end (cfg : FileConfig) : Bool :=
  cfg.world.target == some 1 && cfg.world.temporary contested_update == none &&
    match cfg.next contested_update with
    | some (.acknowledge (.error error)) => error == target_changed_error
    | _ => false

theorem replacements_stale_safe_contested :
    ∃ cfg, writers.Reaches RunsOnce (Config.idle contested_directory) cfg ∧
      contested_end cfg = true ∧ StaleSafe cfg := by
  have hrun : (writers.runIf runs_once (Config.idle contested_directory) contested_schedule).any
      (fun cfg => contested_end cfg = true) = true := by
    decide +kernel
  obtain ⟨cfg, hreach, hend⟩ := System.exists_reaches_of_runIf runsOnce_of_runs_once hrun
  exact ⟨cfg, hreach, hend, replacements_stale_safe contested_directory_wellFormed
    contested_directory_places hreach⟩

end Agentty.Harness
