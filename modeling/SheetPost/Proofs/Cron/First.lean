/-
Searches for the first of some things. A search that tries one place and then another finds the first of all, if the
first place comes before the second (`IsFirst.orElse`), and so does a search through a list of places that is in order
(`IsFirst.findSome?`), also where of the first place only a part is left (`IsFirst.orLater`).
-/
import Mathlib.Data.List.Basic

namespace SheetPost.Cron

variable {α : Type} {key : α → Int} {P Q : α → Prop}

/-- the answer of a search: the one with the least key, or nothing if there are none -/
def IsFirst (key : α → Int) (P : α → Prop) : Option α → Prop
  | none => ∀ a, ¬ P a
  | some a => P a ∧ ∀ b, P b → key a ≤ key b

namespace IsFirst

theorem congr {r : Option α} (h : IsFirst key P r) (hpq : ∀ a, P a ↔ Q a) : IsFirst key Q r := by
  have : P = Q := funext fun a => propext (hpq a)
  exact this ▸ h

/-- a place that holds one thing or none -/
theorem self (r : Option α) : IsFirst key (fun a => r = some a) r := by
  cases r with
  | none => exact nofun
  | some a =>
    refine ⟨rfl, fun b hb => ?_⟩
    cases hb
    exact Int.le_refl _

/-- one place and then another that lies behind it -/
theorem orElse {x y : Option α} (hx : IsFirst key P x) (hy : IsFirst key Q y)
    (hpq : ∀ a b, P a → Q b → key a ≤ key b) : IsFirst key (fun a => P a ∨ Q a) (x <|> y) := by
  cases x with
  | none =>
    refine congr (Q := fun a => P a ∨ Q a) hy fun a => ⟨.inr, ?_⟩
    intro h
    rcases h with ha | ha
    · exact absurd ha (hx a)
    · exact ha
  | some a =>
    refine ⟨.inl hx.1, ?_⟩
    intro b hb
    rcases hb with hb | hb
    · exact hx.2 b hb
    · exact hpq a b hx.1 hb

/-- a place that is only looked at under a condition -/
theorem guard {c : Prop} [Decidable c] {x : Option α} (h : c → IsFirst key P x) :
    IsFirst key (fun a => c ∧ P a) (if c then x else none) := by
  by_cases hc : c
  · rw [if_pos hc]
    exact (h hc).congr fun a => (and_iff_right hc).symm
  · rw [if_neg hc]
    exact fun a ha => hc ha.1

/-- a list of places, each before the next -/
theorem findSome? {values : List Nat} {g : Nat → Option α} {R : Nat → α → Prop} (hs : values.Pairwise (· < ·))
    (hg : ∀ v ∈ values, IsFirst key (R v) (g v)) (hlt : ∀ v w a b, v < w → R v a → R w b → key a ≤ key b) :
    IsFirst key (fun a => ∃ v ∈ values, R v a) (values.findSome? g) := by
  induction values with
  | nil => exact nofun
  | cons v values ih =>
    obtain ⟨hv, hs⟩ := List.pairwise_cons.1 hs
    obtain ⟨hgv, hg⟩ := List.forall_mem_cons.1 hg
    have hcons : (v :: values).findSome? g = (g v <|> values.findSome? g) := by
      rw [List.findSome?_cons]
      cases g v <;> rfl
    rw [hcons]
    refine (hgv.orElse (ih hs hg) ?_).congr fun a => (List.exists_mem_cons_iff (R · a) v values).symm
    intro a b ha hb
    obtain ⟨w, hw, hb⟩ := hb
    exact hlt v w a b (hv w hw) ha hb

/-- the place of one value, of which only a part is left, and then the places of the greater ones -/
theorem orLater {values : List Nat} {n : Nat} {x : Option α} {g : Nat → Option α} {R : Nat → α → Prop}
    (hs : values.Pairwise (· < ·)) (hx : IsFirst key P x) (hpart : ∀ a, P a → R n a)
    (hg : ∀ v ∈ values, IsFirst key (R v) (g v)) (hlt : ∀ v w a b, v < w → R v a → R w b → key a ≤ key b) :
    IsFirst key (fun a => n ∈ values ∧ P a ∨ ∃ v ∈ values, n < v ∧ R v a)
      ((if values.contains n then x else none) <|> (values.filter (n < ·)).findSome? g) := by
  have hthis := IsFirst.guard (c := values.contains n = true) fun _ => hx
  have hlater := IsFirst.findSome? (hs.filter (n < ·)) (fun v hv => hg v (List.mem_filter.1 hv).1) hlt
  refine (hthis.orElse hlater ?_).congr ?_
  · intro a b ha hb
    obtain ⟨v, hv, hb⟩ := hb
    exact hlt n v a b (of_decide_eq_true (List.mem_filter.1 hv).2) (hpart a ha.2) hb
  · intro a
    simp only [List.contains_iff_mem, List.mem_filter, decide_eq_true_eq, and_assoc]

end IsFirst

end SheetPost.Cron
