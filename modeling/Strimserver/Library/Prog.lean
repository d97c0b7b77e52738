import Mathlib.Logic.Basic

/-!
# Programs that make calls

A program returns a value, or makes a call and goes on with the reply. The calls are the
labels of a type, each with its type of replies, and a program says nothing about what they
do: a world does, by a relation between a world, a call, its reply and the world afterwards.

`Ensures` is the weakest precondition of a program in a world: after every run the
postcondition holds. Its rules follow the structure of a program, and `ensures_iff` says
that it means what it should about the runs. `Triple` is the same with a precondition, as a
structure, so that a triple about a program is not computed with the program.

`Makes` says which calls a program can make. `Recorded` is the world that answers in every way
and keeps a record, for properties that speak about the calls of a run.
-/

namespace Strimserver.Library

/-- A program over the calls `E` with replies in `R`. -/
inductive Prog (E : Type) (R : E → Type) (α : Type) where
  | ret (a : α)
  | call (e : E) (next : R e → Prog E R α)

namespace Prog

variable {E : Type} {R : E → Type} {α β : Type}

/-- One program after another. -/
def bind : Prog E R α → (α → Prog E R β) → Prog E R β
  | ret a, f => f a
  | call e next, f => call e fun r => (next r).bind f

instance : Monad (Prog E R) where
  pure := ret
  bind := bind

theorem call_bind (e : E) (next : R e → Prog E R α) (f : α → Prog E R β) :
    (call e next).bind f = call e fun r => (next r).bind f := rfl

theorem bind_assoc {γ : Type} (p : Prog E R α) (f : α → Prog E R β) (g : β → Prog E R γ) :
    (p.bind f).bind g = p.bind fun a => (f a).bind g := by
  induction p with
  | ret => rfl
  | call e next ih => exact congrArg (call e) (funext ih)

/-! ## Runs in a world -/

section

variable {W : Type} (answers : W → (e : E) → R e → W → Prop)

/-- A run from a world to a value and a world. -/
inductive Runs : W → Prog E R α → α → W → Prop
  | ret {w : W} (a : α) : Runs w (ret a) a w
  | call {w w' w'' : W} {e : E} {r : R e} {next : R e → Prog E R α} {a : α}
      (answer : answers w e r w') (rest : Runs w' (next r) a w'') : Runs w (call e next) a w''

/-- After every run from a world, the postcondition holds. -/
def Ensures : Prog E R α → W → (α → W → Prop) → Prop
  | ret a, w, post => post a w
  | call e next, w, post => ∀ r w', answers w e r w' → Ensures (next r) w' post

variable {answers} {p : Prog E R α} {f : α → Prog E R β} {w : W}

theorem ensures_bind {post : β → W → Prop} : Ensures answers (p.bind f) w post ↔
      Ensures answers p w fun a w' => Ensures answers (f a) w' post := by
  induction p generalizing w with
  | ret => exact Iff.rfl
  | call e next ih => exact forall_congr' fun r => forall₂_congr fun w' _ => ih r

theorem Ensures.mono {post post' : α → W → Prop} (ensured : Ensures answers p w post)
    (weaker : ∀ a w', post a w' → post' a w') : Ensures answers p w post' := by
  induction p generalizing w with
  | ret a => exact weaker a w ensured
  | call e next ih => exact fun r w' answer => ih r (ensured r w' answer)

theorem ensures_iff {post : α → W → Prop} :
    Ensures answers p w post ↔ ∀ a w', Runs answers w p a w' → post a w' := by
  constructor
  · intro ensured a w' run
    induction run with
    | ret => exact ensured
    | call answer _ ih => exact ih (ensured _ _ answer)
  intro all
  induction p generalizing w with
  | ret a => exact all a w (.ret a)
  | call e next ih => exact fun r w' answer => ih r fun a w'' run => all a w'' (.call answer run)

/-- From a world that meets the precondition, the postcondition holds after every run. -/
structure Triple (answers : W → (e : E) → R e → W → Prop) (pre : W → Prop) (p : Prog E R α)
    (post : α → W → Prop) : Prop where
  ensures : ∀ w, pre w → Ensures answers p w post

section

variable {pre : W → Prop} {post : α → W → Prop}

theorem Triple.post_of_runs (triple : Triple answers pre p post) {w' : W} {a : α} (holds : pre w)
    (run : Runs answers w p a w') : post a w' :=
  ensures_iff.mp (triple.ensures w holds) a w' run

theorem triple_ret {a : α} (holds : ∀ w, pre w → post a w) : Triple answers pre (ret a) post :=
  ⟨holds⟩

theorem triple_call {e : E} {next : R e → Prog E R α} (mid : R e → W → Prop)
    (answered : ∀ w r w', pre w → answers w e r w' → mid r w')
    (rest : ∀ r, Triple answers (mid r) (next r) post) : Triple answers pre (call e next) post :=
  ⟨fun w holds r w' answer => (rest r).ensures w' (answered w r w' holds answer)⟩

theorem Triple.bind {post' : β → W → Prop} (first : Triple answers pre p post)
    (rest : ∀ a, Triple answers (post a) (f a) post') : Triple answers pre (p.bind f) post' :=
  ⟨fun w holds => ensures_bind.mpr ((first.ensures w holds).mono fun a w' => (rest a).ensures w')⟩

theorem Triple.pre_mono {pre' : W → Prop} (triple : Triple answers pre p post)
    (stronger : ∀ w, pre' w → pre w) : Triple answers pre' p post :=
  ⟨fun w holds => triple.ensures w (stronger w holds)⟩

theorem Triple.post_mono {post' : α → W → Prop} (triple : Triple answers pre p post)
    (weaker : ∀ a w, post a w → post' a w) : Triple answers pre p post' :=
  ⟨fun w holds => (triple.ensures w holds).mono weaker⟩

end

theorem runs_bind {w'' : W} {b : β} : Runs answers w (p.bind f) b w'' ↔
      ∃ a w', Runs answers w p a w' ∧ Runs answers w' (f a) b w'' := by
  induction p generalizing w with
  | ret a =>
    refine ⟨fun run => ⟨a, w, .ret a, run⟩, fun run => ?_⟩
    obtain ⟨_, _, first, rest⟩ := run
    cases first
    exact rest
  | call e next ih =>
    constructor
    · intro run
      cases run with
      | call answer rest =>
        obtain ⟨a, w', first, last⟩ := (ih _).mp rest
        exact ⟨a, w', .call answer first, last⟩
    intro run
    obtain ⟨a, w', first, last⟩ := run
    cases first with
    | call answer rest => exact .call answer ((ih _).mpr ⟨a, w', rest, last⟩)

end

/-! ## The calls of a program -/

/-- Every call that the program can make is allowed. -/
def Makes (allowed : E → Prop) : Prog E R α → Prop
  | ret _ => True
  | call e next => allowed e ∧ ∀ r, Makes allowed (next r)

section

variable {allowed : E → Prop} {p : Prog E R α}

theorem Makes.mono {allowed' : E → Prop} (makes : Makes allowed p)
    (weaker : ∀ e, allowed e → allowed' e) : Makes allowed' p := by
  induction p with
  | ret => trivial
  | call e next ih => exact ⟨weaker e makes.1, fun r => ih r (makes.2 r)⟩

/-- What every allowed call keeps holds after a run if it held before. -/
theorem Makes.keeps {W : Type} {answers : W → (e : E) → R e → W → Prop} {kept : W → Prop} {w w' : W}
    {a : α} (makes : Makes allowed p) (run : Runs answers w p a w')
    (step : ∀ {w : W} {e : E} {r : R e} {w' : W}, allowed e → answers w e r w' → kept w → kept w')
    (holds : kept w) : kept w' := by
  induction run with
  | ret => exact holds
  | call answer _ ih => exact ih (makes.2 _) (step makes.1 answer holds)

end

/-! ## Records -/

/-- A call with its reply. -/
structure Event (R : E → Type) where
  call : E
  reply : R call

/-- The world that keeps a record of the calls and answers them in any way. -/
def Recorded (record : List (Event R)) (e : E) (r : R e) (record' : List (Event R)) : Prop :=
  record' = record ++ [⟨e, r⟩]

end Prog

end Strimserver.Library
