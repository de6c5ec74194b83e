/-
The seven fields of a cron schedule and what stands in one: a list of items, each a value, a range or everything, with a
step if one is given. `Item.values?` says which values an item stands for in its field.

Main statement: an item never stands for a value outside the field's limits (`holds_of_mem_values?`).
-/
import SheetPost.Text.Numeral

namespace SheetPost.Cron

/-! ## Fields and their limits -/

/-- what a field selects -/
inductive Unit where
  | second
  | minute
  | hour
  | dayOfMonth
  | month
  | dayOfWeek
  | year
deriving DecidableEq, Repr

namespace Unit

/-- the least value -/
def low : Unit → Nat
  | .second | .minute | .hour => 0
  | .dayOfMonth | .month | .dayOfWeek => 1
  | .year => 1970

/-- the greatest value -/
def high : Unit → Nat
  | .second | .minute => 59
  | .hour => 23
  | .dayOfMonth => 31
  | .month => 12
  | .dayOfWeek => 7
  | .year => 2100

/-- every value, in order -/
def all (u : Unit) : List Nat := List.range' u.low (u.high - u.low + 1)

/-- a value of the field -/
def holds (u : Unit) (n : Nat) : Bool := u.low ≤ n && n ≤ u.high

theorem mem_all {u : Unit} {n : Nat} : n ∈ u.all ↔ u.holds n = true := by
  simp only [all, holds, List.mem_range'_1, Bool.and_eq_true, decide_eq_true_eq]
  have : u.low ≤ u.high := by cases u <;> decide
  omega

end Unit

/-! ## Names -/

/-- months by their names in lower case -/
def monthNames : List (String × Nat) :=
  [("jan", 1), ("january", 1), ("feb", 2), ("february", 2), ("mar", 3), ("march", 3), ("apr", 4), ("april", 4),
    ("may", 5), ("jun", 6), ("june", 6), ("jul", 7), ("july", 7), ("aug", 8), ("august", 8), ("sep", 9),
    ("september", 9), ("oct", 10), ("october", 10), ("nov", 11), ("november", 11), ("dec", 12), ("december", 12)]

/-- days of the week by their names in lower case; Sunday is the first -/
def dayNames : List (String × Nat) :=
  [("sun", 1), ("sunday", 1), ("mon", 2), ("monday", 2), ("tue", 3), ("tues", 3), ("tuesday", 3), ("wed", 4),
    ("wednesday", 4), ("thu", 5), ("thurs", 5), ("thursday", 5), ("fri", 6), ("friday", 6), ("sat", 7),
    ("saturday", 7)]

/-- the value of a name, in letters of either case -/
def Unit.named? (u : Unit) (name : List Char) : Option Nat :=
  let key := String.ofList (name.map Char.toLower)
  match u with
  | .month => monthNames.lookup key
  | .dayOfWeek => dayNames.lookup key
  | _ => none

/-! ## Items -/

/-- values without a step -/
inductive Span where
  | all
  | point (n : Nat)
  | range (first last : Nat)
  | names (first last : List Char)
deriving DecidableEq, Repr

/-- one item of a field's list -/
inductive Item where
  | span (s : Span)
  | stepped (s : Span) (step : Nat)
  | name (n : List Char)
deriving DecidableEq, Repr

/-- the values from `a` to `b`, if both are values of the field and in order -/
def between? (u : Unit) (a b : Nat) : Option (List Nat) :=
  if u.holds a && u.holds b && a ≤ b then some (List.range' a (b - a + 1)) else none

/-- the values of a span -/
def Span.values? (u : Unit) : Span → Option (List Nat)
  | .all => some u.all
  | .point n => if u.holds n then some [n] else none
  | .range a b => between? u a b
  | .names a b =>
    match u.named? a, u.named? b with
    | some a, some b => between? u a b
    | _, _ => none

/-- every `step`th of some values, the first of them included, where `skip` come before the next -/
def everyNth (step : Nat) : Nat → List Nat → List Nat
  | _, [] => []
  | 0, x :: r => x :: everyNth step (step - 1) r
  | skip + 1, _ :: r => everyNth step skip r

/-- the values of an item; a step behind a single value runs on to the end of the field -/
def Item.values? (u : Unit) : Item → Option (List Nat)
  | .span s => s.values? u
  | .stepped s step =>
    if step = 0 then none
    else
      let base := match s with
        | .point n => between? u n u.high
        | s => s.values? u
      base.map (everyNth step 0)
  | .name n => (u.named? n).map ([·])

/-- the values of a list of items in order, each once; one item without values spoils the list -/
def values? (u : Unit) (items : List Item) : Option (List Nat) :=
  (items.mapM (Item.values? u)).map fun lists => u.all.filter fun n => lists.any (·.contains n)

/-! ## Limits are kept -/

theorem holds_of_mem_values? {u : Unit} {items : List Item} {ns : List Nat} (h : values? u items = some ns) {n : Nat}
    (hn : n ∈ ns) : u.holds n = true := by
  obtain ⟨lists, _, rfl⟩ := Option.map_eq_some_iff.1 h
  exact Unit.mem_all.1 (List.mem_filter.1 hn).1

end SheetPost.Cron
