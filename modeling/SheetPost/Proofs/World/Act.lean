/-
What acts add to the history. An act puts events in front of what was there; of what kind they are follows from the steps
it is put together from.

Main statement: `Grew` goes through steps, acts one after the other and acts for each member of a list (`Act.grew_step`,
`Act.grew_bind`, `Act.grew_all`).
-/
import SheetPost.World.Act

namespace SheetPost

/-! ## Histories -/

/-- a history that only grew, by events of some kind -/
def Grew (P : Event → Prop) (h h' : History) : Prop := ∃ new, h' = new ++ h ∧ ∀ e ∈ new, P e

namespace Grew

variable {P Q : Event → Prop} {h h' h'' : History}

theorem refl (P : Event → Prop) (h : History) : Grew P h h := ⟨[], rfl, by simp⟩

theorem trans (h1 : Grew P h h') (h2 : Grew P h' h'') : Grew P h h'' := by
  obtain ⟨new, rfl, hnew⟩ := h1
  obtain ⟨more, rfl, hmore⟩ := h2
  refine ⟨more ++ new, (List.append_assoc _ _ _).symm, fun e he => ?_⟩
  rcases List.mem_append.1 he with he | he
  · exact hmore e he
  · exact hnew e he

theorem mono (hg : Grew P h h') (hpq : ∀ e, P e → Q e) : Grew Q h h' := by
  obtain ⟨new, hh, hnew⟩ := hg
  exact ⟨new, hh, fun e he => hpq e (hnew e he)⟩

theorem cons {e : Event} (hg : Grew P h h') (he : P e) : Grew P h (e :: h') := by
  obtain ⟨new, rfl, hnew⟩ := hg
  exact ⟨e :: new, rfl, List.forall_mem_cons.2 ⟨he, hnew⟩⟩

theorem suffix (hg : Grew P h h') : h <:+ h' := by
  obtain ⟨new, rfl, -⟩ := hg
  exact List.suffix_append new h

end Grew

/-! ## Acts -/

namespace Act

variable {ε α β : Type} {P : Event → Prop} {w : World} {h h' : History} {x : Act ε α} {f : α → Act ε β}

/-- an act ends in one of two ways -/
theorem ok_or_error (x : Act ε α) (w : World) (h : History) :
    (∃ a h', x w h = (.ok a, h')) ∨ ∃ e h', x w h = (.error e, h') := by
  obtain ⟨result, h'⟩ := x w h
  cases result with
  | ok a => exact .inl ⟨a, h', rfl⟩
  | error e => exact .inr ⟨e, h', rfl⟩

theorem bind_of_ok {a : α} (hx : x w h = (.ok a, h')) : (x >>= f) w h = f a w h' := by
  show Act.bind x f w h = _
  rw [Act.bind, hx]

theorem bind_of_error {e : ε} (hx : x w h = (.error e, h')) : (x >>= f) w h = (.error e, h') := by
  show Act.bind x f w h = _
  rw [Act.bind, hx]

/-- how acts are put together makes no difference -/
instance : LawfulMonad (Act ε) := by
  refine .mk' (Act ε) ?map ?pure ?assoc
  case map =>
    intro α x
    funext w h
    rcases ok_or_error x w h with ⟨a, h', hx⟩ | ⟨e, h', hx⟩
    · exact (bind_of_ok hx).trans hx.symm
    · exact (bind_of_error hx).trans hx.symm
  case pure => exact fun _ _ => rfl
  case assoc =>
    intro α β γ x f g
    funext w h
    rcases ok_or_error x w h with ⟨a, h', hx⟩ | ⟨e, h', hx⟩
    · rw [bind_of_ok hx]
      show Act.bind (x >>= f) g w h = _
      rw [Act.bind, bind_of_ok hx]
      rfl
    · rw [bind_of_error hx, bind_of_error (bind_of_error hx)]

theorem attempt_of_allowed {s : Step} {e : ε} {allowed : World → History → Bool} (ha : allowed w h = true) :
    attempt s e allowed w h = (.ok (), ⟨s, true⟩ :: h) := by
  rw [attempt, step, if_pos ha]
  rfl

theorem attempt_of_refused {s : Step} {e : ε} {allowed : World → History → Bool} (ha : allowed w h = false) :
    attempt s e allowed w h = (.error e, ⟨s, false⟩ :: h) := by
  rw [attempt, step, if_neg (by rw [ha]; exact Bool.false_ne_true)]
  rfl

theorem mapError_of_error {ε' : Type} {f : ε → ε'} {e : ε} (hx : x w h = (.error e, h')) :
    x.mapError f w h = (.error (f e), h') := by
  rw [Act.mapError, hx]

theorem mapError_of_ok {ε' : Type} {f : ε → ε'} {a : α} (hx : x w h = (.ok a, h')) :
    x.mapError f w h = (.ok a, h') := by
  rw [Act.mapError, hx]

theorem grew_mapError {ε' : Type} (f : ε → ε') (hx : Grew P h (x w h).2) : Grew P h (x.mapError f w h).2 := by
  rcases ok_or_error x w h with ⟨a, h', hr⟩ | ⟨e, h', hr⟩
  · rw [mapError_of_ok hr]
    rwa [hr] at hx
  · rw [mapError_of_error hr]
    rwa [hr] at hx

theorem grew_endingWith {s : Step} (hx : Grew P h (x w h).2) (hs : P ⟨s, true⟩) :
    Grew P h (x.endingWith s w h).2 := hx.cons hs

theorem grew_step {s : Step} {answer : World → History → Except ε α} (hs : ∀ succeeded, P ⟨s, succeeded⟩) :
    Grew P h (step s answer w h).2 :=
  ⟨[⟨s, succeeded (answer w h)⟩], rfl, fun e he => by rw [List.mem_singleton.1 he]; exact hs _⟩

theorem suffix_bind (hf : ∀ a, Extends (f a)) (w : World) (h : History) : (x w h).2 <:+ ((x >>= f) w h).2 := by
  rcases ok_or_error x w h with ⟨a, h', hr⟩ | ⟨e, h', hr⟩
  · rw [bind_of_ok hr, hr]
    exact hf a w h'
  · have hstop : ((x >>= f) w h).2 = (x w h).2 := by rw [bind_of_error hr, hr]
    exact hstop ▸ List.suffix_refl _

theorem grew_bind (hx : Grew P h (x w h).2) (hf : ∀ a h', x w h = (.ok a, h') → Grew P h' (f a w h').2) :
    Grew P h ((x >>= f) w h).2 := by
  rcases ok_or_error x w h with ⟨a, h', hr⟩ | ⟨e, h', hr⟩
  · rw [bind_of_ok hr]
    rw [hr] at hx
    exact hx.trans (hf a h' hr)
  · have hstop : ((x >>= f) w h).2 = (x w h).2 := by rw [bind_of_error hr, hr]
    rw [hstop]
    exact hx

/-- acts one after the other, for each member of a list, and all their results -/
def all (f : α → Act ε β) : List α → Act ε (List β)
  | [] => pure []
  | a :: l => do
    let b ← f a
    let bs ← all f l
    return b :: bs

theorem extends_all (hf : ∀ a, Extends (f a)) (l : List α) : Extends (all f l) := by
  induction l with
  | nil => exact extends_pure []
  | cons a l ih => exact (hf a).bind fun b => ih.bind fun bs => extends_pure (b :: bs)

theorem grew_all {l : List α} (hf : ∀ a ∈ l, ∀ h, Grew P h (f a w h).2) : Grew P h (all f l w h).2 := by
  induction l generalizing h with
  | nil => exact .refl P h
  | cons a l ih =>
    refine grew_bind (hf a List.mem_cons_self h) fun b h' _ => ?_
    refine grew_bind (ih fun a' ha' => hf a' (List.mem_cons_of_mem a ha')) fun bs h'' _ => ?_
    exact .refl P h''

end Act

end SheetPost
