/-
Scripts: an act one step at a time. What is left of an act is its result, or its next step and what is left behind the
answer to it, so others can act between two of its steps.

Main statement: acts that are put together from steps have scripts, which come to the same if nobody acts in between
(`Act.Stepwise`).
-/
import SheetPost.World.Act

namespace SheetPost

/-- what is left of an act; whether its next step succeeds, and what is left then, is up to the world -/
inductive Script (ε α : Type) where
  | done (result : Except ε α)
  | step (s : Step) (succeeds : World → History → Bool) (rest : World → History → Script ε α)

namespace Script

variable {ε ε' α β : Type}

/-- the whole script with nothing in between -/
def act : Script ε α → Act ε α
  | .done result => fun _ h => (result, h)
  | .step s succeeds rest => fun w h => (rest w h).act w (⟨s, succeeds w h⟩ :: h)

/-- a script, and what follows its result -/
def followedBy (x : Script ε α) (f : Except ε α → Script ε' β) : Script ε' β :=
  match x with
  | .done result => f result
  | .step s succeeds rest => .step s succeeds fun w h => (rest w h).followedBy f

theorem act_followedBy (x : Script ε α) (f : Except ε α → Script ε' β) (w : World) (h : History) :
    (x.followedBy f).act w h = (f (x.act w h).1).act w (x.act w h).2 := by
  induction x generalizing h with
  | done result => rfl
  | step s succeeds rest ih => exact ih w h _

end Script

/-! ## Acts with scripts -/

namespace Act

variable {ε ε' α β : Type}

/-- a script of an act -/
structure Stepwise (x : Act ε α) where
  script : Script ε α
  act_script : script.act = x

namespace Stepwise

protected def pure (a : α) : Stepwise (pure a : Act ε α) := ⟨.done (.ok a), rfl⟩

def fail (e : ε) : Stepwise (Act.fail e : Act ε α) := ⟨.done (.error e), rfl⟩

def ofExcept (r : Except ε α) : Stepwise (Act.ofExcept r) := ⟨.done r, rfl⟩

def step (s : Step) (answer : World → History → Except ε α) : Stepwise (Act.step s answer) :=
  ⟨.step s (fun w h => succeeded (answer w h)) fun w h => .done (answer w h), rfl⟩

def attempt (s : Step) (e : ε) (allowed : World → History → Bool) : Stepwise (Act.attempt s e allowed) :=
  step s fun w h => if allowed w h then .ok () else .error e

/-- one script behind the other, unless the first fails -/
protected def bind {x : Act ε α} {f : α → Act ε β} (sx : Stepwise x) (sf : ∀ a, Stepwise (f a)) :
    Stepwise (x >>= f) where
  script := sx.script.followedBy fun
    | .ok a => (sf a).script
    | .error e => .done (.error e)
  act_script := by
    funext w h
    rw [Script.act_followedBy, sx.act_script]
    show _ = Act.bind x f w h
    unfold Act.bind
    obtain ⟨result, h'⟩ := x w h
    cases result with
    | error e => rfl
    | ok a => exact congrFun (congrFun (sf a).act_script w) h'

def mapError (f : ε → ε') {x : Act ε α} (sx : Stepwise x) : Stepwise (x.mapError f) where
  script := sx.script.followedBy fun result => .done (result.mapError f)
  act_script := by
    funext w h
    rw [Script.act_followedBy, sx.act_script]
    unfold Act.mapError
    obtain ⟨result, h'⟩ := x w h
    cases result with
    | error e => rfl
    | ok a => rfl

def endingWith {x : Act ε α} (sx : Stepwise x) (s : Step) : Stepwise (x.endingWith s) where
  script := sx.script.followedBy fun result => .step s (fun _ _ => true) fun _ _ => .done result
  act_script := by
    funext w h
    rw [Script.act_followedBy, sx.act_script]
    rfl

/-- the turns of a loop one behind the other -/
def foldlM {f : β → α → Act ε β} (sf : ∀ b a, Stepwise (f b a)) : (l : List α) → (b : β) → Stepwise (l.foldlM f b)
  | [], b => .pure b
  | a :: l, b => (sf b a).bind (foldlM sf l)

end Stepwise

end Act

end SheetPost
