/-
Acts: what the program does in the world, one step after the other, until it is done or a step fails. An act only adds
to the history; nothing it did is undone when it fails.

Main statement: what was in the history before an act is in it afterwards (`Act.Extends`), for every act that is put
together from steps.
-/
import SheetPost.World.Basic

namespace SheetPost

/-- an activity that ends with a result or an error, and with a longer history -/
def Act (ε α : Type) : Type := World → History → Except ε α × History

namespace Act

variable {ε ε' α β : Type}

/-- nothing to do -/
protected def pure (a : α) : Act ε α := fun _ h => (.ok a, h)

/-- one act, and another one if it succeeds -/
protected def bind (x : Act ε α) (f : α → Act ε β) : Act ε β := fun w h =>
  match x w h with
  | (.ok a, h') => f a w h'
  | (.error e, h') => (.error e, h')

instance : Monad (Act ε) where
  pure := Act.pure
  bind := Act.bind

/-- nothing but an error -/
def fail (e : ε) : Act ε α := fun _ h => (.error e, h)

/-- a result that needs no step -/
def ofExcept (r : Except ε α) : Act ε α := fun _ h => (r, h)

/-- the same act, its error understood in a wider setting -/
def mapError (f : ε → ε') (x : Act ε α) : Act ε' α := fun w h =>
  match x w h with
  | (.ok a, h') => (.ok a, h')
  | (.error e, h') => (.error (f e), h')

/-- the success of a result -/
def succeeded : Except ε α → Bool
  | .ok _ => true
  | .error _ => false

/-- one step and what comes of it -/
def step (s : Step) (answer : World → History → Except ε α) : Act ε α := fun w h =>
  let r := answer w h
  (r, ⟨s, succeeded r⟩ :: h)

/-- one step that can be refused -/
def attempt (s : Step) (e : ε) (allowed : World → History → Bool) : Act ε Unit :=
  step s fun w h => if allowed w h then .ok () else .error e

/-- an act, and a step behind it that never fails, whatever came of the act -/
def endingWith (x : Act ε α) (s : Step) : Act ε α := fun w h =>
  let (r, h') := x w h
  (r, ⟨s, true⟩ :: h')

/-! ## Laws -/

/-- an act keeps what it finds: it only adds to the history -/
def Extends (x : Act ε α) : Prop := ∀ w h, h <:+ (x w h).2

theorem extends_pure (a : α) : Extends (pure a : Act ε α) := fun _ h => List.suffix_refl h

theorem extends_step (s : Step) (answer : World → History → Except ε α) : Extends (step s answer) :=
  fun _ h => List.suffix_cons _ h

theorem Extends.bind {x : Act ε α} {f : α → Act ε β} (hx : Extends x) (hf : ∀ a, Extends (f a)) :
    Extends (x >>= f) := by
  intro w h
  have hx := hx w h
  show h <:+ (Act.bind x f w h).2
  unfold Act.bind
  split
  · next a h' he => rw [he] at hx; exact hx.trans (hf a w h')
  · next e h' he => rw [he] at hx; exact hx

end Act

end SheetPost
