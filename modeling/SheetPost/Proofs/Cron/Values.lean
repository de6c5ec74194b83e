/-
The values of a field as those of its items: every so manyth value of a range, and the union over a list.

Main statements: `mem_everyNth_range'` and, for lists of items, `Grammar.Stands.exists_isField`.
-/
import Mathlib.Data.List.Basic
import SheetPost.Proofs.Cron.Grammar
import SheetPost.Text.Blank

namespace SheetPost.Cron

theorem Unit.holds_iff {u : Unit} {n : Nat} : u.holds n = true ↔ u.low ≤ n ∧ n ≤ u.high := by
  simp [Unit.holds]

/-! ## Steps -/

/-- every `step`th number from `a` on that is not beyond `b` -/
def Every (step a b d : Nat) : Prop := ∃ k, d = a + k * step ∧ d ≤ b

theorem mem_everyNth_range' {step : Nat} (hstep : 0 < step) (skip a len d : Nat) :
    d ∈ everyNth step skip (List.range' a len) ↔ ∃ k, d = a + skip + k * step ∧ d < a + len := by
  induction len generalizing skip a with
  | zero =>
    constructor
    · intro h
      cases h
    · rintro ⟨k, hd, hlt⟩
      omega
  | succ len ih =>
    rw [List.range'_succ]
    cases skip with
    | zero =>
      rw [everyNth, List.mem_cons, ih]
      constructor
      · rintro (rfl | ⟨k, hd, hlt⟩)
        · exact ⟨0, by omega, by omega⟩
        · exact ⟨k + 1, by rw [Nat.succ_mul]; omega, by omega⟩
      · rintro ⟨k, hd, hlt⟩
        cases k with
        | zero => exact .inl (by omega)
        | succ k => exact .inr ⟨k, by rw [Nat.succ_mul] at hd; omega, by omega⟩
    | succ skip =>
      rw [everyNth, ih]
      refine exists_congr fun k => ?_
      omega

theorem mem_everyNth_between {step : Nat} (hstep : 0 < step) {a b : Nat} (hab : a ≤ b) (d : Nat) :
    d ∈ everyNth step 0 (List.range' a (b - a + 1)) ↔ Every step a b d := by
  rw [mem_everyNth_range' hstep, Every]
  refine exists_congr fun k => ?_
  omega

theorem mem_between {a b : Nat} (hab : a ≤ b) (d : Nat) : d ∈ List.range' a (b - a + 1) ↔ Every 1 a b d := by
  rw [List.mem_range'_1, Every]
  constructor
  · intro h
    exact ⟨d - a, by omega, by omega⟩
  · rintro ⟨k, hd, hle⟩
    omega

/-! ## Lists of items -/

/-- every item of a list has values in a field, and together they are those that satisfy `P` -/
structure Denotes (u : Unit) (items : List Item) (P : Nat → Prop) : Prop where
  isSome : ∀ x ∈ items, (x.values? u).isSome = true
  iff : ∀ d, (∃ x ∈ items, ∃ values, x.values? u = some values ∧ d ∈ values) ↔ P d

namespace Denotes

variable {u : Unit} {P Q : Nat → Prop} {items : List Item}

theorem singleton {x : Item} {values : List Nat} (hx : x.values? u = some values) (h : ∀ d, d ∈ values ↔ P d) :
    Denotes u [x] P where
  isSome y hy := by rw [List.mem_singleton.1 hy, hx]; rfl
  iff d := by simp [hx, h]

theorem append {items' : List Item} (h : Denotes u items P) (h' : Denotes u items' Q) :
    Denotes u (items ++ items') fun d => P d ∨ Q d where
  isSome x hx := (List.mem_append.1 hx).elim (h.isSome x) (h'.isSome x)
  iff d := by
    rw [← h.iff, ← h'.iff]
    simp only [List.mem_append, or_and_right, exists_or]

theorem congr (h : Denotes u items P) (hPQ : ∀ d, P d ↔ Q d) : Denotes u items Q :=
  ⟨h.isSome, fun d => (h.iff d).trans (hPQ d)⟩

/-- the values of a list are those of its items -/
theorem exists_values? (h : Denotes u items P) :
    ∃ values, Cron.values? u items = some values ∧ ∀ d, d ∈ values ↔ u.holds d = true ∧ P d := by
  have hlists : ∃ lists, items.mapM (Item.values? u) = some lists ∧
      ∀ d, (∃ l ∈ lists, d ∈ l) ↔ ∃ x ∈ items, ∃ values, x.values? u = some values ∧ d ∈ values := by
    have hsome := h.isSome
    clear h
    induction items with
    | nil => exact ⟨[], rfl, fun d => by simp⟩
    | cons x items ih =>
      obtain ⟨values, hx⟩ := Option.isSome_iff_exists.1 (hsome x List.mem_cons_self)
      obtain ⟨lists, hlists, hiff⟩ := ih fun y hy => hsome y (List.mem_cons_of_mem _ hy)
      refine ⟨values :: lists, by simp [List.mapM_cons, hx, hlists], fun d => ?_⟩
      simp [hx, ← hiff]
  obtain ⟨lists, hlists, hiff⟩ := hlists
  refine ⟨_, by rw [Cron.values?, hlists]; rfl, fun d => ?_⟩
  rw [List.mem_filter, Unit.mem_all, ← h.iff, ← hiff]
  simp

end Denotes

namespace Grammar

theorem IsItems.append {any : Bool} {xs ys : List Item} {p q : List Char} (hx : IsItems any xs p)
    (hy : IsItems any ys q) : IsItems any (xs ++ ys) (p ++ ',' :: q) := by
  induction hx with
  | one hx => exact .more hx hy
  | @more x xs p p' hx _ ih =>
    rw [List.append_assoc, List.cons_append]
    exact .more hx ih

/-- the text is a list of items that stands for the values that satisfy `P` -/
def Stands (u : Unit) (t : List Char) (P : Nat → Prop) : Prop :=
  ∃ items, IsItems (hasAny u) items t ∧ Denotes u items P

namespace Stands

variable {u : Unit} {P Q : Nat → Prop} {t t' : List Char}

theorem of_item {x : Item} {values : List Nat} (hx : IsItem (hasAny u) x t) (hvalues : x.values? u = some values)
    (h : ∀ d, d ∈ values ↔ P d) : Stands u t P :=
  ⟨[x], .one hx, .singleton hvalues h⟩

theorem append (h : Stands u t P) (h' : Stands u t' Q) : Stands u (t ++ ',' :: t') fun d => P d ∨ Q d := by
  obtain ⟨items, hitems, hdenotes⟩ := h
  obtain ⟨items', hitems', hdenotes'⟩ := h'
  exact ⟨items ++ items', hitems.append hitems', hdenotes.append hdenotes'⟩

theorem congr (h : Stands u t P) (hPQ : ∀ d, P d ↔ Q d) : Stands u t Q := by
  obtain ⟨items, hitems, hdenotes⟩ := h
  exact ⟨items, hitems, hdenotes.congr hPQ⟩

/-- texts with commas between them stand for all that one of them stands for -/
theorem join {α : Type} {text : α → List Char} {P : α → Nat → Prop} {l : List α} (hne : l ≠ [])
    (h : ∀ a ∈ l, Stands u (text a) (P a)) : Stands u (Text.join [','] (l.map text)) fun d => ∃ a ∈ l, P a d := by
  induction l with
  | nil => exact absurd rfl hne
  | cons a l ih =>
    have ha := h a List.mem_cons_self
    cases l with
    | nil => exact ha.congr fun d => by simp
    | cons b l =>
      have hl := ih (List.cons_ne_nil _ _) fun c hc => h c (List.mem_cons_of_mem _ hc)
      have happend := ha.append hl
      simp only [List.map_cons, Text.join, List.append_assoc, List.singleton_append] at happend ⊢
      exact happend.congr fun d => by simp

/-- **A list of items is one field, with the values that it stands for** -/
theorem exists_isField (h : Stands u t P) :
    ∃ values, IsField u t values ∧ ∀ d, d ∈ values ↔ u.holds d = true ∧ P d := by
  obtain ⟨items, hitems, hdenotes⟩ := h
  obtain ⟨values, hvalues, hiff⟩ := hdenotes.exists_values?
  exact ⟨values, ⟨items, hitems, hvalues⟩, hiff⟩

end Stands

end Grammar

end SheetPost.Cron
