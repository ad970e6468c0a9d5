/-
Resumable programs: the shallow embedding every `async fn` of this development
is written in.

A `Prog` is a tree of calls. A node issues one call of the signature and waits
for the answer, which may be an error; a leaf returns a value or fails. Between
two nodes nothing happens, so "one step of a process" is exactly one call, and
an interleaving of processes is an interleaving of calls. Dropping a tree in
the middle is a crash.

The logic on trees is the second half. `Obeys V J Q` reads: as long as the
answers are possible ones (`V`), every call the tree issues is *justified*
(`J`) by the log of calls and answers it has already seen, and every value it
returns satisfies `Q` together with the log. The log is the only thing a
program knows about the outside, so the statement needs no model of the outside
at all, and the interleaving never appears in a proof about one program.
-/
import Mathlib.Data.List.Infix
import Mathlib.Tactic.Common

set_option autoImplicit false

namespace Agentty

/-! ## Trees of calls -/

/-- A program over the calls `C`, whose call `c` is answered by a value of `R c`
or by an error of `ε`. -/
inductive Prog (C : Type) (R : C → Type) (ε : Type) (α : Type) : Type where
  /-- The program is done and returns a value. -/
  | ret (a : α)
  /-- The program is done and returns an error. -/
  | fail (e : ε)
  /-- The program issues `c` and goes on with whatever the answer is. -/
  | call (c : C) (k : Except ε (R c) → Prog C R ε α)

namespace Prog

variable {C : Type} {R : C → Type} {ε α β γ : Type}

/-- Sequencing: the second program starts when the first one returns. -/
def bind : Prog C R ε α → (α → Prog C R ε β) → Prog C R ε β
  | ret a, f => f a
  | fail e, _ => fail e
  | call c k, f => call c (fun r => (k r).bind f)

instance : Monad (Prog C R ε) where
  pure := ret
  bind := bind

/-- Issue one call and stop with its error if it has one: `call(..).await?`. -/
def perform (c : C) : Prog C R ε (R c) :=
  call c (fun r => match r with
    | .ok a => ret a
    | .error e => fail e)

/-- Issue one call and hand its error to the program: `match call(..).await`. -/
def attempt (c : C) : Prog C R ε (Except ε (R c)) := call c ret

/-- Run a program to its end and hand its error to the rest: `match f(..).await`. -/
def outcome : Prog C R ε α → Prog C R ε (Except ε α)
  | ret a => ret (.ok a)
  | fail e => ret (.error e)
  | call c k => call c fun r => (k r).outcome

/-- Run `f` on every element in order and collect what it returns: a `for` loop
over a mutable list, whose body may fail. -/
def traverse (f : α → Prog C R ε β) : List α → Prog C R ε (List β)
  | [] => ret []
  | a :: as => (f a).bind fun b => (traverse f as).bind fun bs => ret (b :: bs)

@[simp] theorem pure_eq (a : α) : (pure a : Prog C R ε α) = ret a := rfl

@[simp] theorem bind_eq (p : Prog C R ε α) (f : α → Prog C R ε β) : p >>= f = p.bind f := rfl

@[simp] theorem ret_bind (a : α) (f : α → Prog C R ε β) :
    (ret a : Prog C R ε α).bind f = f a := rfl

@[simp] theorem fail_bind (e : ε) (f : α → Prog C R ε β) :
    (fail e : Prog C R ε α).bind f = fail e := rfl

/-- The outcome of a sequence is the outcome of its second part, or the error of its
first. -/
theorem outcome_bind (p : Prog C R ε α) (f : α → Prog C R ε β) :
    (p.bind f).outcome = p.outcome.bind fun
      | .ok a => (f a).outcome
      | .error e => ret (.error e) := by
  induction p with
  | ret | fail => rfl
  | call c k ih => exact congrArg (call c) (funext fun r => ih r)

/-! ## What a program has seen -/

/-- One call together with its answer. -/
abbrev Event (C : Type) (R : C → Type) (ε : Type) : Type := (c : C) × Except ε (R c)

/-- The calls a program has issued so far, newest first. -/
abbrev Log (C : Type) (R : C → Type) (ε : Type) : Type := List (Event C R ε)

/-! ## Justified calls -/

section Logic

variable (V : (c : C) → R c → Prop) (J : Log C R ε → C → Prop)

/-- Every call of the program is justified by the log before it, every value it
returns meets `Q`, and when it fails its log meets `E`. Answers that `V` rules out
are not considered; errors always are. -/
def Meets (Q : Log C R ε → α → Prop) (E : Log C R ε → Prop) : Prog C R ε α → Log C R ε → Prop
  | ret a, l => Q l a
  | fail _, l => E l
  | call c k, l => J l c ∧
      (∀ a, V c a → Meets Q E (k (.ok a)) (⟨c, .ok a⟩ :: l)) ∧
      ∀ e, Meets Q E (k (.error e)) (⟨c, .error e⟩ :: l)

/-- The same, with nothing said about failures. -/
abbrev Obeys (Q : Log C R ε → α → Prop) : Prog C R ε α → Log C R ε → Prop :=
  Meets V J Q fun _ => True

variable {V J}

variable {Q : Log C R ε → α → Prop} {l : Log C R ε}

@[simp] theorem obeys_ret {a : α} :
    Obeys V J Q (ret a) l ↔ Q l a := Iff.rfl

@[simp] theorem obeys_fail {e : ε} :
    Obeys V J Q (fail e) l ↔ True := Iff.rfl

variable {c : C}

/-- A log that grew from another one by justified calls only. -/
inductive Extends (J : Log C R ε → C → Prop) (l : Log C R ε) : Log C R ε → Prop where
  | refl : Extends J l l
  | step {l' : Log C R ε} {c : C} (r : Except ε (R c)) (h : Extends J l l') (hJ : J l' c) :
      Extends J l (⟨c, r⟩ :: l')

theorem Extends.trans {l₁ l₂ l₃ : Log C R ε} (h₁ : Extends J l₁ l₂) (h₂ : Extends J l₂ l₃) :
    Extends J l₁ l₃ := by
  induction h₂ with
  | refl => exact h₁
  | step r _ hJ ih => exact .step r ih hJ

/-- What a program has seen it does not forget. -/
theorem Extends.mem {l' : Log C R ε} (h : Extends J l l') {e : Event C R ε} (he : e ∈ l) :
    e ∈ l' := by
  induction h with
  | refl => exact he
  | step r _ _ ih => exact List.mem_cons_of_mem _ ih

/-- A property of logs that every justified call keeps holds along the growth. -/
theorem Extends.invariant {l' : Log C R ε} (Inv : Log C R ε → Prop) (h : Extends J l l')
    (init : Inv l) (step : ∀ l c (r : Except ε (R c)), J l c → Inv l → Inv (⟨c, r⟩ :: l)) :
    Inv l' := by
  induction h with
  | refl => exact init
  | step r _ hJ ih => exact step _ _ r hJ ih

/-- Every call in a log that grew from nothing is justified by the log below it. -/
theorem Extends.justified {older newer : Log C R ε} {r : Except ε (R c)} (h : Extends J [] l)
    (hl : l = newer ++ ⟨c, r⟩ :: older) : J older c := by
  induction h generalizing newer with
  | refl => exact absurd hl.symm (by simp)
  | step r' _ hJ ih =>
    cases newer with
    | nil =>
      cases hl
      exact hJ
    | cons => exact ih (List.cons.inj hl).2

variable {J' : Log C R ε → C → Prop} {Q' : Log C R ε → α → Prop} {p : Prog C R ε α}

/-- **The rule of consequence.** A justification may be exchanged for another
one at every log the program can have reached by then, and so may what is said
about the returned value. -/
theorem Obeys.strengthen (h : Obeys V J Q p l) (hJ : ∀ l' c, Extends J l l' → J l' c → J' l' c)
    (hQ : ∀ l' a, Extends J l l' → Q l' a → Q' l' a) : Obeys V J' Q' p l := by
  induction p generalizing l with
  | ret a => exact hQ l a .refl h
  | fail e => trivial
  | call c k ih =>
    obtain ⟨hj, hok, herr⟩ := h
    -- what the rest of the program reaches, this program reaches too
    have reach : ∀ r l', Extends J (⟨c, r⟩ :: l) l' → Extends J l l' :=
      fun r l' hl' => (Extends.step r .refl hj).trans hl'
    refine ⟨hJ l c .refl hj, fun a ha => ?_, fun e => ?_⟩
    · exact ih _ (hok a ha) (fun l' c' hl' => hJ l' c' (reach _ l' hl'))
        (fun l' b hl' => hQ l' b (reach _ l' hl'))
    · exact ih _ (herr e) (fun l' c' hl' => hJ l' c' (reach _ l' hl'))
        (fun l' b hl' => hQ l' b (reach _ l' hl'))

theorem Obeys.post (h : Obeys V J Q p l) (hQ : ∀ l a, Q l a → Q' l a) : Obeys V J Q' p l :=
  h.strengthen (fun _ _ _ hj => hj) fun l' a _ => hQ l' a

variable {E : Log C R ε → Prop} {f : α → Prog C R ε β}

/-- The rule of composition: what the first program establishes is what the
second one may assume. -/
theorem Meets.bind {Q' : Log C R ε → β → Prop} (h : Meets V J Q E p l)
    (hf : ∀ l' a, Q l' a → Meets V J Q' E (f a) l') : Meets V J Q' E (p.bind f) l := by
  induction p generalizing l with
  | ret a => exact hf l a h
  | fail e => exact h
  | call c k ih =>
    obtain ⟨hj, hok, herr⟩ := h
    exact ⟨hj, fun a ha => ih _ (hok a ha), fun e => ih _ (herr e)⟩

theorem obeys_perform {Q : Log C R ε → β → Prop} {f : R c → Prog C R ε β} (hJ : J l c)
    (hok : ∀ a, V c a → Obeys V J Q (f a) (⟨c, .ok a⟩ :: l)) : Obeys V J Q ((perform c).bind f) l :=
  ⟨hJ, fun a ha => hok a ha, fun _ => trivial⟩

theorem obeys_perform_last {Q : Log C R ε → R c → Prop} (hJ : J l c)
    (hok : ∀ a, V c a → Q (⟨c, .ok a⟩ :: l) a) : Obeys V J Q (perform c) l :=
  ⟨hJ, fun a ha => hok a ha, fun _ => trivial⟩

theorem obeys_attempt {Q : Log C R ε → β → Prop} {f : Except ε (R c) → Prog C R ε β} (hJ : J l c)
    (hok : ∀ a, V c a → Obeys V J Q (f (.ok a)) (⟨c, .ok a⟩ :: l))
    (herr : ∀ e, Obeys V J Q (f (.error e)) (⟨c, .error e⟩ :: l)) :
    Obeys V J Q ((attempt c).bind f) l :=
  ⟨hJ, hok, herr⟩

/-- **The loop rule.** `Inv l done rest` says what holds when the elements
`done` have been turned into their results and `rest` is still to be visited. -/
theorem meets_traverse (Inv : Log C R ε → List β → List α → Prop)
    (step : ∀ l done a rest, Inv l done (a :: rest) →
      Meets V J (fun l' b => Inv l' (done ++ [b]) rest) E (f a) l) :
    ∀ (as : List α) (l : Log C R ε) (done : List β), Inv l done as →
      Meets V J (fun l' bs => Inv l' (done ++ bs) []) E (traverse f as) l := by
  intro as
  induction as with
  | nil =>
    intro l done h
    simpa only [traverse, Meets, List.append_nil] using h
  | cons a as ih =>
    intro l done h
    refine (step l done a as h).bind fun l' b hb => ?_
    refine (ih l' (done ++ [b]) hb).bind fun l'' bs hbs => ?_
    simpa only [Meets, List.append_assoc, List.singleton_append] using hbs

theorem obeys_traverse (Inv : Log C R ε → List β → List α → Prop)
    (step : ∀ l done a rest, Inv l done (a :: rest) →
      Obeys V J (fun l' b => Inv l' (done ++ [b]) rest) (f a) l)
    (as : List α) (l : Log C R ε) (done : List β) (h : Inv l done as) :
    Obeys V J (fun l' bs => Inv l' (done ++ bs) []) (traverse f as) l :=
  meets_traverse Inv step as l done h

/-- **The frame rule.** What every justified call of a program keeps holds of
every log it ends with, and may justify its calls to somebody else. -/
theorem Obeys.frame {K : Log C R ε → C → Prop} (h : Obeys V J Q p l) (Inv : Log C R ε → Prop)
    (hJ : ∀ l c, Inv l → J l c → K l c)
    (hstep : ∀ l c (r : Except ε (R c)), Inv l → J l c → Inv (⟨c, r⟩ :: l)) (hl : Inv l) :
    Meets V K (fun l a => Inv l ∧ Q l a) Inv p l := by
  induction p generalizing l with
  | ret a => exact ⟨hl, h⟩
  | fail e => exact hl
  | call c k ih =>
    obtain ⟨hj, hok, herr⟩ := h
    exact ⟨hJ l c hl hj, fun a ha => ih _ (hok a ha) (hstep l c _ hl hj),
      fun e => ih _ (herr e) (hstep l c _ hl hj)⟩

variable {E' : Log C R ε → Prop}

theorem Meets.mono (h : Meets V J Q E p l) (hJ : ∀ l c, J l c → J' l c)
    (hQ : ∀ l a, Q l a → Q' l a) (hE : ∀ l, E l → E' l) : Meets V J' Q' E' p l := by
  induction p generalizing l with
  | ret a => exact hQ l a h
  | fail e => exact hE l h
  | call c k ih =>
    exact ⟨hJ l c h.1, fun a ha => ih _ (h.2.1 a ha), fun e => ih _ (h.2.2 e)⟩

theorem Meets.post (h : Meets V J Q E p l) (hQ : ∀ l a, Q l a → Q' l a) (hE : ∀ l, E l → E' l) :
    Meets V J Q' E' p l :=
  h.mono (fun _ _ hJ => hJ) hQ hE

/-- `Obeys` for the outcome of a program, which may be an error. -/
abbrev Ends (V : (c : C) → R c → Prop) (J : Log C R ε → C → Prop)
    (Q : Log C R ε → Except ε α → Prop) (p : Prog C R ε α) (l : Log C R ε) : Prop :=
  Obeys V J Q p.outcome l

theorem Ends.bind {Q : Log C R ε → Except ε α → Prop} {Q' : Log C R ε → Except ε β → Prop}
    (h : Ends V J Q p l) (hf : ∀ l' a, Q l' (.ok a) → Ends V J Q' (f a) l')
    (herr : ∀ l' e, Q l' (.error e) → Q' l' (.error e)) : Ends V J Q' (p.bind f) l := by
  unfold Ends
  rw [outcome_bind]
  refine Meets.bind h fun l' result hresult => ?_
  cases result with
  | ok a => exact hf l' a hresult
  | error e => exact herr l' e hresult

theorem ends_perform {Q : Log C R ε → Except ε (R c) → Prop} (hJ : J l c)
    (hQ : ∀ r, Q (⟨c, r⟩ :: l) r) : Ends V J Q (perform c) l :=
  ⟨hJ, fun a _ => hQ (.ok a), fun e => hQ (.error e)⟩

/-- Two specifications of one program are one. -/
theorem Meets.and (h : Meets V J Q E p l) (h' : Meets V J' Q' E' p l) :
    Meets V (fun l c => J l c ∧ J' l c) (fun l a => Q l a ∧ Q' l a) (fun l => E l ∧ E' l) p l := by
  induction p generalizing l with
  | ret | fail => exact ⟨h, h'⟩
  | call c k ih =>
    exact ⟨⟨h.1, h'.1⟩, fun a ha => ih _ (h.2.1 a ha) (h'.2.1 a ha),
      fun e => ih _ (h.2.2 e) (h'.2.2 e)⟩

theorem meets_perform {Q : Log C R ε → β → Prop} {f : R c → Prog C R ε β} (hJ : J l c)
    (hok : ∀ a, V c a → Meets V J Q E (f a) (⟨c, .ok a⟩ :: l))
    (herr : ∀ e, E (⟨c, .error e⟩ :: l)) : Meets V J Q E ((perform c).bind f) l :=
  ⟨hJ, fun a ha => hok a ha, fun e => herr e⟩

theorem meets_attempt {Q : Log C R ε → β → Prop} {f : Except ε (R c) → Prog C R ε β} (hJ : J l c)
    (hok : ∀ a, V c a → Meets V J Q E (f (.ok a)) (⟨c, .ok a⟩ :: l))
    (herr : ∀ e, Meets V J Q E (f (.error e)) (⟨c, .error e⟩ :: l)) :
    Meets V J Q E ((attempt c).bind f) l :=
  ⟨hJ, hok, herr⟩

end Logic

/-! ## Running against an oracle -/

/-- Run the program to its end. An oracle answers every call; its answer may depend
on everything that was asked before. -/
def exec (oracle : Log C R ε → (c : C) → Except ε (R c)) :
    Prog C R ε α → Log C R ε → Except ε α × Log C R ε
  | ret a, l => (.ok a, l)
  | fail e, l => (.error e, l)
  | call c k, l => (k (oracle l c)).exec oracle (⟨c, oracle l c⟩ :: l)

/-- Against every oracle a program issues justified calls only, and what it returns
is as specified. -/
theorem Meets.exec {J : Log C R ε → C → Prop} {Q : Log C R ε → α → Prop}
    {E : Log C R ε → Prop} {p : Prog C R ε α} {l : Log C R ε}
    (h : Meets (fun _ _ => True) J Q E p l) (oracle : Log C R ε → (c : C) → Except ε (R c)) :
    Extends J l (p.exec oracle l).2 ∧
      ∀ a, (p.exec oracle l).1 = .ok a → Q (p.exec oracle l).2 a := by
  induction p generalizing l with
  | ret a =>
    refine ⟨.refl, ?_⟩
    rintro _ ⟨⟩
    exact h
  | fail e => exact ⟨.refl, fun a ha => nomatch ha⟩
  | call c k ih =>
    obtain ⟨hj, hok, herr⟩ := h
    have hk : Meets (fun _ _ => True) J Q E (k (oracle l c)) (⟨c, oracle l c⟩ :: l) := by
      cases oracle l c with
      | ok a => exact hok a trivial
      | error e => exact herr e
    obtain ⟨hext, hret⟩ := ih _ hk
    exact ⟨(Extends.step _ .refl hj).trans hext, hret⟩

end Prog

end Agentty
