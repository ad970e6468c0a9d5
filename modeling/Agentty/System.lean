/-
Concurrent runs of resumable programs over one shared world.

A system has actors. An actor is idle or runs one program; a step of the system
starts a program on an idle actor, executes the next call of a running one,
moves the world from outside, or kills the process, which drops every running
program and keeps the world. Each executed call is appended to a trace together
with the world it was executed in, so that a statement about a run can speak of
what happened earlier without a second copy of the run.

The rule the rest of the development uses is `Reaches.justified`: if the program
of every command obeys a justification when it starts, then in every
configuration a run reaches, the call a running program is about to issue is
justified by its own log.
-/
import Agentty.Prog
import Mathlib.Logic.Relation
import Mathlib.Logic.Function.Basic

set_option autoImplicit false

namespace Agentty

open Prog (Event Log Meets)

/-- What a map holds after one of its values was set. -/
theorem update_eq_some {α β : Type} [DecidableEq α] {f : α → Option β} {a a' : α} {b b' : β}
    (h : Function.update f a (some b) a' = some b') :
    (a' = a ∧ b' = b) ∨ (a' ≠ a ∧ f a' = some b') := by
  by_cases ha : a' = a
  · rw [ha, Function.update_self] at h
    exact .inl ⟨ha, (Option.some.inj h).symm⟩
  · rw [Function.update_of_ne ha] at h
    exact .inr ⟨ha, h⟩

/-! ## Systems and their configurations -/

/-- A system: how a call changes the world (`X` resolves what the program does
not determine), how the world moves by itself, which actor serves a command and
with which program, and which calls have to wait for which other actors. -/
structure System (C : Type) (R : C → Type) (ε W X M A D : Type) where
  /-- The effect and the answer of one call. -/
  exec : W → X → (c : C) → W × Except ε (R c)
  /-- A move of the world that no actor makes. -/
  env : W → M → Option W
  /-- The actor that serves a command. -/
  actor : D → A
  /-- The program that serves a command. -/
  program : D → Prog C R ε Unit
  /-- Whether an actor may issue a call, given which actors are running. -/
  admits : (A → Bool) → A → C → Bool

/-- A program that waits to issue its next call. -/
structure Thread (C : Type) (R : C → Type) (ε : Type) where
  /-- The call it is about to issue. -/
  call : C
  /-- What it does with the answer. -/
  next : Except ε (R call) → Prog C R ε Unit
  /-- What it has seen so far. -/
  log : Log C R ε

/-- One executed call in the trace. -/
structure Entry (C : Type) (R : C → Type) (ε W A : Type) where
  /-- Who issued the call. -/
  actor : A
  /-- The call. -/
  call : C
  /-- Its answer. -/
  reply : Except ε (R call)
  /-- The world it was executed in. -/
  before : W

/-- The call with its answer, as a program sees it. -/
def Entry.event {C : Type} {R : C → Type} {ε W A : Type} (e : Entry C R ε W A) :
    Prog.Event C R ε :=
  ⟨e.call, e.reply⟩

/-- Something of one kind has happened, and nothing of another kind since; the
list has the newest first. -/
def since {E : Type} (on off : E → Bool) : List E → Bool
  | [] => false
  | e :: older => on e || (!off e && since on off older)

variable {E : Type}

theorem since_cons {on off : E → Bool} {e : E} {older : List E} :
    since on off (e :: older) = true ↔
      on e = true ∨ (off e = false ∧ since on off older = true) := by
  simp [since]

/-- Every element of a list stands in a relation to those after it; the list has the
newest first, so these are the older ones. -/
def Every {E : Type} (P : E → List E → Prop) : List E → Prop
  | [] => True
  | e :: older => P e older ∧ Every P older

theorem Every.imp {P Q : E → List E → Prop} {l : List E} (h : Every P l)
    (hPQ : ∀ e older, P e older → Q e older) : Every Q l := by
  induction l with
  | nil => trivial
  | cons e older ih => exact ⟨hPQ e older h.1, ih h.2⟩

theorem Every.at {P : E → List E → Prop} {l newer older : List E} {e : E} (h : Every P l)
    (hl : l = newer ++ e :: older) : P e older := by
  induction newer generalizing l with
  | nil =>
    subst hl
    exact h.1
  | cons e' newer ih =>
    subst hl
    exact ih h.2 rfl

/-- The world, what every actor is doing, and what has been executed, newest
first. -/
structure Config (C : Type) (R : C → Type) (ε W A : Type) where
  /-- The shared world. -/
  world : W
  /-- The running programs. -/
  running : A → Option (Thread C R ε)
  /-- The executed calls, newest first. -/
  trace : List (Entry C R ε W A)

/-- What a step of the system does. -/
inductive Label (X M A D : Type) where
  /-- An idle actor starts to serve a command. -/
  | start (d : D)
  /-- A running actor executes its next call. -/
  | call (a : A) (x : X)
  /-- The world moves by itself. -/
  | env (m : M)
  /-- The process is killed. -/
  | crash

variable {C : Type} {R : C → Type} {ε W X M A D : Type}

/-- A program as a thread; a program that is done is no thread. -/
def Thread.of : Prog C R ε Unit → Log C R ε → Option (Thread C R ε)
  | .call c k, l => some ⟨c, k, l⟩
  | .ret _, _ => none
  | .fail _, _ => none

/-- The program of a thread. -/
def Thread.prog (t : Thread C R ε) : Prog C R ε Unit := .call t.call t.next

variable {t : Thread C R ε}

theorem Thread.of_eq_some {p : Prog C R ε Unit} {l : Log C R ε} (h : Thread.of p l = some t) :
    t.prog = p ∧ t.log = l := by
  cases p with
  | ret | fail => cases h
  | call c k => cases h; exact ⟨rfl, rfl⟩

/-- A configuration in which nothing has happened yet. -/
def Config.idle (w : W) : Config C R ε W A := ⟨w, fun _ => none, []⟩

/-- The log of the program an actor runs. -/
def Config.log (cfg : Config C R ε W A) (a : A) : Option (Log C R ε) :=
  (cfg.running a).map Thread.log

/-- The call an actor is about to issue. -/
def Config.next (cfg : Config C R ε W A) (a : A) : Option C := (cfg.running a).map Thread.call

namespace System

variable [DecidableEq A]

/-- The configuration after an actor has executed its next call. -/
def afterCall (S : System C R ε W X M A D) (cfg : Config C R ε W A) (a : A) (x : X)
    (t : Thread C R ε) : Config C R ε W A :=
  let result := S.exec cfg.world x t.call
  { world := result.1
    running := Function.update cfg.running a
      (Thread.of (t.next result.2) (⟨t.call, result.2⟩ :: t.log))
    trace := ⟨a, t.call, result.2, cfg.world⟩ :: cfg.trace }

def step (S : System C R ε W X M A D) (cfg : Config C R ε W A) :
    Label X M A D → Option (Config C R ε W A)
  | .start d =>
    if (cfg.running (S.actor d)).isNone then
      some { cfg with
        running := Function.update cfg.running (S.actor d) (Thread.of (S.program d) []) }
    else none
  | .call a x =>
    match cfg.running a with
    | none => none
    | some t =>
      if S.admits (fun b => (cfg.running b).isSome) a t.call then some (S.afterCall cfg a x t)
      else none
  | .env m => (S.env cfg.world m).map fun w => { cfg with world := w }
  | .crash => some { cfg with running := fun _ => none }

/-- The steps of a list, one after another. -/
def run (S : System C R ε W X M A D) : Config C R ε W A → List (Label X M A D) →
    Option (Config C R ε W A)
  | cfg, [] => some cfg
  | cfg, l :: ls => (S.step cfg l).bind fun cfg' => S.run cfg' ls

variable {l : Label X M A D}

/-- What a step can do. -/
theorem step_cases {S : System C R ε W X M A D} {cfg cfg' : Config C R ε W A}
    (h : S.step cfg l = some cfg') :
    (∃ d, l = .start d ∧ cfg.running (S.actor d) = none ∧
      cfg' = { cfg with
        running := Function.update cfg.running (S.actor d) (Thread.of (S.program d) []) }) ∨
    (∃ a x t, l = .call a x ∧ cfg.running a = some t ∧
      S.admits (fun b => (cfg.running b).isSome) a t.call = true ∧
      cfg' = S.afterCall cfg a x t) ∨
    (∃ m w, l = .env m ∧ S.env cfg.world m = some w ∧ cfg' = { cfg with world := w }) ∨
    (l = .crash ∧ cfg' = { cfg with running := fun _ => none }) := by
  cases l with
  | start d =>
    simp only [step] at h
    split at h
    · rename_i hidle
      exact .inl ⟨d, rfl, Option.isNone_iff_eq_none.mp hidle, (Option.some.inj h).symm⟩
    · cases h
  | call a x =>
    simp only [step] at h
    split at h
    · cases h
    rename_i t ht
    split at h
    · rename_i hadm
      exact .inr (.inl ⟨a, x, t, rfl, ht, hadm, (Option.some.inj h).symm⟩)
    · cases h
  | env m =>
    obtain ⟨w, hw, rfl⟩ := Option.map_eq_some_iff.mp h
    exact .inr (.inr (.inl ⟨m, w, rfl, hw, rfl⟩))
  | crash => exact .inr (.inr (.inr ⟨rfl, (Option.some.inj h).symm⟩))

/-! ## Runs -/

/-- A step whose label meets a condition on the configuration it is taken in. -/
def Step (S : System C R ε W X M A D) (K : Config C R ε W A → Label X M A D → Prop)
    (cfg cfg' : Config C R ε W A) : Prop :=
  ∃ l, K cfg l ∧ S.step cfg l = some cfg'

/-- A run all of whose steps meet a condition. -/
def Reaches (S : System C R ε W X M A D) (K : Config C R ε W A → Label X M A D → Prop) :
    Config C R ε W A → Config C R ε W A → Prop :=
  Relation.ReflTransGen (S.Step K)

def anyStep : Config C R ε W A → Label X M A D → Prop := fun _ _ => True

variable {S : System C R ε W X M A D} {K : Config C R ε W A → Label X M A D → Prop}
  {cfg₀ cfg cfg' : Config C R ε W A}

/-- **The invariant rule.** What holds at the start and is kept by every step
that meets the condition holds in every configuration of the run; a step may
assume that the run has got as far as its source. -/
theorem Reaches.invariant (Inv : Config C R ε W A → Prop) (h : S.Reaches K cfg₀ cfg)
    (init : Inv cfg₀)
    (step : ∀ cfg l cfg', S.Reaches K cfg₀ cfg → Inv cfg → K cfg l →
      S.step cfg l = some cfg' → Inv cfg') : Inv cfg := by
  induction h with
  | refl => exact init
  | tail hreach hstep ih =>
    obtain ⟨l, hl, hs⟩ := hstep
    exact step _ l _ hreach ih hl hs

/-- What the trace of a run shows has been executed. -/
theorem Reaches.executed (h : S.Reaches K cfg₀ cfg) (hstart : cfg₀.trace = []) :
    ∀ e ∈ cfg.trace, ∃ x w, S.exec e.before x e.call = (w, e.reply) := by
  refine h.invariant (fun cfg => ∀ e ∈ cfg.trace, ∃ x w, S.exec e.before x e.call = (w, e.reply))
    (by simp [hstart]) ?_
  intro cfg l cfg' _ ih _ hstep e he
  obtain ⟨d, -, -, rfl⟩ | ⟨a, x, t, -, -, -, rfl⟩ | ⟨m, w, -, -, rfl⟩ | ⟨-, rfl⟩ := step_cases hstep
  · exact ih e he
  · rcases List.mem_cons.mp he with rfl | he
    · exact ⟨x, _, rfl⟩
    · exact ih e he
  · exact ih e he
  · exact ih e he

variable {a : A}

/-- **A log is the newest part of what its actor has done.** -/
theorem Reaches.log_entries (h : S.Reaches K cfg₀ cfg) (hidle : ∀ a, cfg₀.running a = none)
    {l : Log C R ε} (hl : cfg.log a = some l) :
    ∃ mine rest, cfg.trace.filter (fun e => e.actor = a) = mine ++ rest ∧
      mine.map Entry.event = l := by
  refine h.invariant (fun cfg => ∀ a l, cfg.log a = some l → ∃ mine rest,
    cfg.trace.filter (fun e => e.actor = a) = mine ++ rest ∧ mine.map Entry.event = l)
    ?_ ?_ a l hl
  · intro a l hl
    rw [Config.log, hidle a] at hl
    cases hl
  · intro cfg k cfg' _ ih _ hstep a l hl
    obtain ⟨d, -, -, rfl⟩ | ⟨b, x, t, -, ht, -, rfl⟩ | ⟨m, w, -, -, rfl⟩ | ⟨-, rfl⟩ :=
      step_cases hstep
    · by_cases ha : a = S.actor d
      · subst ha
        simp only [Config.log, Function.update_self] at hl
        obtain ⟨t, ht, rfl⟩ := Option.map_eq_some_iff.mp hl
        exact ⟨[], _, rfl, (Thread.of_eq_some ht).2.symm⟩
      · exact ih a l (by simpa only [Config.log, Function.update_of_ne ha] using hl)
    · by_cases ha : a = b
      · subst ha
        simp only [Config.log, afterCall, Function.update_self] at hl
        obtain ⟨u, hu, rfl⟩ := Option.map_eq_some_iff.mp hl
        obtain ⟨mine, rest, htrace, hmine⟩ := ih a t.log (by rw [Config.log, ht, Option.map_some])
        refine ⟨⟨a, t.call, (S.exec cfg.world x t.call).2, cfg.world⟩ :: mine, rest, ?_, ?_⟩
        · simp only [afterCall, List.filter_cons, decide_true, if_true, htrace, List.cons_append]
        · rw [(Thread.of_eq_some hu).2, List.map_cons, hmine]
          rfl
      · obtain ⟨mine, rest, htrace, hmine⟩ :=
          ih a l (by simpa only [Config.log, afterCall, Function.update_of_ne ha] using hl)
        refine ⟨mine, rest, ?_, hmine⟩
        simp only [afterCall, List.filter_cons]
        rw [if_neg (by simpa using Ne.symm ha)]
        exact htrace
    · exact ih a l hl
    · cases hl

theorem reaches_of_run (hK : ∀ cfg l, K cfg l) :
    ∀ (ls : List (Label X M A D)) (cfg cfg' : Config C R ε W A),
      S.run cfg ls = some cfg' → S.Reaches K cfg cfg' := by
  intro ls
  induction ls with
  | nil =>
    intro cfg cfg' h
    cases h
    exact Relation.ReflTransGen.refl
  | cons l ls ih =>
    intro cfg cfg' h
    obtain ⟨mid, hs, hrest⟩ := Option.bind_eq_some_iff.mp h
    exact Relation.ReflTransGen.head ⟨l, hK cfg l, hs⟩ (ih mid cfg' hrest)

/-- Whether the newest of a list has a property together with the older ones. -/
instance (l : List E) (P : E → List E → Prop) [∀ e older, Decidable (P e older)] :
    Decidable (∃ e older, l = e :: older ∧ P e older) :=
  match l with
  | [] => isFalse nofun
  | e :: older => decidable_of_iff (P e older) (by simp)

variable {p : Config C R ε W A → Prop} [DecidablePred p]

/-- A computed run that ends in a configuration with a property. -/
theorem exists_reaches_of_run (ls : List (Label X M A D))
    (h : (S.run cfg₀ ls).any (fun cfg => decide (p cfg)) = true) :
    ∃ cfg, S.Reaches anyStep cfg₀ cfg ∧ p cfg := by
  obtain ⟨cfg, hrun, hcfg⟩ := (Option.any_eq_true _ _).mp h
  exact ⟨cfg, reaches_of_run (fun _ _ => trivial) ls cfg₀ cfg hrun, of_decide_eq_true hcfg⟩

/-- The steps of a list, as long as a test on each of them holds. -/
def runIf (S : System C R ε W X M A D) (check : Config C R ε W A → Label X M A D → Bool) :
    Config C R ε W A → List (Label X M A D) → Option (Config C R ε W A)
  | cfg, [] => some cfg
  | cfg, l :: ls =>
    if check cfg l then (S.step cfg l).bind fun cfg' => S.runIf check cfg' ls else none

variable {check : Config C R ε W A → Label X M A D → Bool}

/-- **A computed run meets a condition** if every step of it passes a test for
it. -/
theorem exists_reaches_of_runIf (hcheck : ∀ cfg l, check cfg l = true → K cfg l)
    {ls : List (Label X M A D)}
    (h : (S.runIf check cfg₀ ls).any (fun cfg => decide (p cfg)) = true) :
    ∃ cfg, S.Reaches K cfg₀ cfg ∧ p cfg := by
  obtain ⟨cfg, hrun, hcfg⟩ := (Option.any_eq_true _ _).mp h
  refine ⟨cfg, ?_, of_decide_eq_true hcfg⟩
  clear h hcfg
  induction ls generalizing cfg₀ with
  | nil =>
    cases hrun
    exact Relation.ReflTransGen.refl
  | cons l ls ih =>
    simp only [runIf] at hrun
    split at hrun
    · rename_i hok
      obtain ⟨mid, hs, hrest⟩ := Option.bind_eq_some_iff.mp hrun
      exact Relation.ReflTransGen.head ⟨l, hcheck cfg₀ l hok, hs⟩ (ih hrest)
    · cases hrun

/-- Only actors of a list have been started. -/
def Config.RunsOnly (actors : List A) (cfg : Config C R ε W A) : Prop :=
  ∀ a, a ∉ actors → cfg.running a = none

theorem Config.RunsOnly.step {actors : List A} (h : Config.RunsOnly actors cfg)
    (hstart : ∀ d, l = .start d → S.actor d ∈ actors) (hs : S.step cfg l = some cfg') :
    Config.RunsOnly actors cfg' := by
  intro a ha
  obtain ⟨d, rfl, -, rfl⟩ | ⟨b, x, t, -, ht, -, rfl⟩ | ⟨m, w, -, -, rfl⟩ | ⟨-, rfl⟩ := step_cases hs
  · have hne : a ≠ S.actor d := fun heq => ha (heq ▸ hstart d rfl)
    simp only [Function.update_of_ne hne]
    exact h a ha
  · have hne : a ≠ b := by
      rintro rfl
      rw [h a ha] at ht
      cases ht
    simp only [afterCall, Function.update_of_ne hne]
    exact h a ha
  · exact h a ha
  · rfl

/-- **A computed run meets a condition** if every step of it passes a test that
implies the condition, given which actors can be running at all. -/
theorem reaches_of_runIf (actors : List A)
    (hcheck : ∀ cfg l, Config.RunsOnly actors cfg → check cfg l = true → K cfg l)
    (hstart : ∀ cfg d, check cfg (.start d) = true → S.actor d ∈ actors) :
    ∀ (ls : List (Label X M A D)) (cfg cfg' : Config C R ε W A), Config.RunsOnly actors cfg →
      S.runIf check cfg ls = some cfg' → S.Reaches K cfg cfg' ∧ Config.RunsOnly actors cfg' := by
  intro ls
  induction ls with
  | nil =>
    intro cfg cfg' hrun h
    cases h
    exact ⟨Relation.ReflTransGen.refl, hrun⟩
  | cons l ls ih =>
    intro cfg cfg' hrun h
    simp only [runIf] at h
    split at h
    · rename_i hok
      obtain ⟨mid, hs, hrest⟩ := Option.bind_eq_some_iff.mp h
      have hmid : Config.RunsOnly actors mid :=
        hrun.step (fun d hd => hstart cfg d (hd ▸ hok)) hs
      obtain ⟨hreach, hlast⟩ := ih mid cfg' hmid hrest
      exact ⟨Relation.ReflTransGen.head ⟨l, hcheck cfg l hrun hok, hs⟩ hreach, hlast⟩
    · cases h

/-! ## Justified calls in a run -/

/-- Answers are possible ones, every call of the program of a command is justified
for the actor that serves it, and when the program is done its log meets `E`. -/
structure Concludes (S : System C R ε W X M A D) (V : (c : C) → R c → Prop)
    (J : A → Log C R ε → C → Prop) (E : A → Log C R ε → Prop) : Prop where
  /-- An answer the world gives is a possible one. -/
  valid : ∀ w x c a, (S.exec w x c).2 = .ok a → V c a
  /-- A program that starts meets the specification. -/
  meets : ∀ d, Meets V (J (S.actor d)) (fun l _ => E (S.actor d) l) (E (S.actor d))
    (S.program d) []

/-- The same, with nothing said about programs that are done. -/
abbrev Certified (S : System C R ε W X M A D) (V : (c : C) → R c → Prop)
    (J : A → Log C R ε → C → Prop) : Prop :=
  S.Concludes V J fun _ _ => True

variable {V : (c : C) → R c → Prop} {J : A → Log C R ε → C → Prop} {E : A → Log C R ε → Prop}

section

variable (hS : S.Concludes V J E) (hidle : ∀ a, cfg₀.running a = none) (h : S.Reaches K cfg₀ cfg)

include hS hidle h

/-- Every running program meets the specification from where it stands. -/
theorem Reaches.meets :
    ∀ a t, cfg.running a = some t → Meets V (J a) (fun l _ => E a l) (E a) t.prog t.log := by
  refine h.invariant (fun cfg => ∀ a t, cfg.running a = some t →
    Meets V (J a) (fun l _ => E a l) (E a) t.prog t.log) ?_ ?_
  · intro a t ht
    rw [hidle a] at ht
    cases ht
  · intro cfg l cfg' _ ih _ hstep a t ht
    obtain ⟨d, -, -, rfl⟩ | ⟨b, x, u, -, hu, -, rfl⟩ | ⟨m, w, -, -, rfl⟩ | ⟨-, rfl⟩ :=
      step_cases hstep
    · by_cases ha : a = S.actor d
      · subst ha
        simp only [Function.update_self] at ht
        obtain ⟨hp, hl⟩ := Thread.of_eq_some ht
        rw [hp, hl]
        exact hS.meets d
      · exact ih a t (by simpa only [Function.update_of_ne ha] using ht)
    · by_cases ha : a = b
      · subst ha
        simp only [afterCall, Function.update_self] at ht
        obtain ⟨hp, hl⟩ := Thread.of_eq_some ht
        rw [hp, hl]
        obtain ⟨-, hok, herr⟩ := ih a u hu
        cases hr : (S.exec cfg.world x u.call).2 with
        | ok v => exact hok v (hS.valid _ _ _ _ hr)
        | error e => exact herr e
      · exact ih a t (by simpa only [afterCall, Function.update_of_ne ha] using ht)
    · exact ih a t ht
    · cases ht

/-- **Programs that are done have met their specification**: after its call an
actor goes on with the longer log, or the longer log meets `E`. -/
theorem Reaches.concludes {x : X} (hstep : S.step cfg (.call a x) = some cfg') {l : Log C R ε}
    {c : C} {r : Except ε (R c)} (hlog : cfg.log a = some l)
    (htrace : cfg'.trace = ⟨a, c, r, cfg.world⟩ :: cfg.trace) :
    cfg'.log a = some (⟨c, r⟩ :: l) ∨ E a (⟨c, r⟩ :: l) := by
  obtain ⟨d, hl, -⟩ | ⟨b, x', t, hl, ht, -, rfl⟩ | ⟨m, w, hl, -⟩ | ⟨hl, -⟩ := step_cases hstep
  · cases hl
  · cases hl
    have hmeets := h.meets hS hidle a t ht
    obtain rfl : t.log = l := by
      simpa only [Config.log, ht, Option.map_some, Option.some.injEq] using hlog
    simp only [afterCall, List.cons.injEq, Entry.mk.injEq, true_and] at htrace
    obtain ⟨⟨rfl, hr, -⟩, -⟩ := htrace
    obtain rfl := eq_of_heq hr
    obtain ⟨-, hok, herr⟩ := hmeets
    -- the rest of the program is a leaf or goes on
    have hrest : Meets V (J a) (fun l _ => E a l) (E a) (t.next (S.exec cfg.world x t.call).2)
        (⟨t.call, (S.exec cfg.world x t.call).2⟩ :: t.log) := by
      cases hr : (S.exec cfg.world x t.call).2 with
      | ok v => exact hok v (hS.valid _ _ _ _ hr)
      | error e => exact herr e
    cases hp : t.next (S.exec cfg.world x t.call).2 with
    | ret | fail =>
      rw [hp] at hrest
      exact .inr hrest
    | call c k =>
      left
      simp only [Config.log, afterCall, Function.update_self, hp, Thread.of, Option.map_some]
  · cases hl
  · cases hl

/-- **Calls in a run are justified.** The call a running program is about to
issue is justified by its own log, whatever the other actors have done. -/
theorem Reaches.justified (ht : cfg.running a = some t) : J a t.log t.call :=
  (h.meets hS hidle a t ht).1

end

/-! ## Steps as seen from the logs -/

/-- What a step does to the world, the trace and the logs. A program that is
done has no log, so the log of an actor after its step is the longer one or
nothing. -/
inductive View (S : System C R ε W X M A D) (J : A → Log C R ε → C → Prop)
    (cfg cfg' : Config C R ε W A) : Label X M A D → Prop where
  /-- An actor starts with an empty log. -/
  | start (d : D) (world : cfg'.world = cfg.world) (trace : cfg'.trace = cfg.trace)
      (idle : cfg.log (S.actor d) = none)
      (own : ∀ l, cfg'.log (S.actor d) = some l → l = [])
      (others : ∀ b, b ≠ S.actor d → cfg'.log b = cfg.log b) : View S J cfg cfg' (.start d)
  /-- An actor executes a justified call. -/
  | call (a : A) (x : X) (c : C) (r : Except ε (R c)) (l : Log C R ε)
      (next : cfg.next a = some c) (log : cfg.log a = some l) (justified : J a l c)
      (admitted : S.admits (fun b => (cfg.running b).isSome) a c = true)
      (exec : S.exec cfg.world x c = (cfg'.world, r))
      (trace : cfg'.trace = ⟨a, c, r, cfg.world⟩ :: cfg.trace)
      (own : ∀ l', cfg'.log a = some l' → l' = ⟨c, r⟩ :: l)
      (others : ∀ b, b ≠ a → cfg'.log b = cfg.log b) : View S J cfg cfg' (.call a x)
  /-- The world moves by itself. -/
  | env (m : M) (world : S.env cfg.world m = some cfg'.world) (trace : cfg'.trace = cfg.trace)
      (logs : ∀ b, cfg'.log b = cfg.log b) : View S J cfg cfg' (.env m)
  /-- Every program is dropped. -/
  | crash (world : cfg'.world = cfg.world) (trace : cfg'.trace = cfg.trace)
      (logs : ∀ b, cfg'.log b = none) : View S J cfg cfg' .crash

theorem log_eq_of_thread {p : Prog C R ε Unit} {l l' : Log C R ε}
    (h : (Thread.of p l).map Thread.log = some l') : l' = l := by
  obtain ⟨t, ht, rfl⟩ := Option.map_eq_some_iff.mp h
  exact (Thread.of_eq_some ht).2

/-- **Every step of a run can be seen this way.** -/
theorem Reaches.view (hS : S.Certified V J) (hidle : ∀ a, cfg₀.running a = none)
    (h : S.Reaches K cfg₀ cfg) (hstep : S.step cfg l = some cfg') : S.View J cfg cfg' l := by
  obtain ⟨d, rfl, hd, rfl⟩ | ⟨a, x, t, rfl, ht, hadm, rfl⟩ | ⟨m, w, rfl, hw, rfl⟩ | ⟨rfl, rfl⟩ :=
    step_cases hstep
  · refine .start d rfl rfl ?_ (fun l hl => ?_) fun b hb => ?_
    · rw [Config.log, hd, Option.map_none]
    · simp only [Config.log, Function.update_self] at hl
      exact log_eq_of_thread hl
    · simp only [Config.log, Function.update_of_ne hb]
  · refine .call a x t.call _ t.log ?_ ?_ (h.justified hS hidle ht) hadm rfl rfl
      (fun l hl => ?_) fun b hb => ?_
    · rw [Config.next, ht, Option.map_some]
    · rw [Config.log, ht, Option.map_some]
    · simp only [Config.log, afterCall, Function.update_self] at hl
      exact log_eq_of_thread hl
    · simp only [Config.log, afterCall, Function.update_of_ne hb]
  · exact .env m hw rfl fun _ => rfl
  · exact .crash rfl rfl fun _ => rfl

end System

end Agentty
