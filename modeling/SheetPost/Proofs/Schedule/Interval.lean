/-
The texts of intervals and what is read from them. A text is taken apart into items, each of them a number in digits with
a unit behind it; the unit is as long as it can be, so that `5ms` is five milliseconds and not five minutes with something
behind them. The reader goes on from item to item as long as their numbers fit in 64 bits, and adds up their lengths. It
stops at the first item with which 2^64 seconds are reached, alone or together with the items before it.

Main statements: what is read as an interval (`read_eq_interval_iff`), and where it can not be counted any more, and why
(`read_eq_overflow_iff`).
-/
import Mathlib.Data.List.TakeWhile
import SheetPost.Proofs.Text.Numeral
import SheetPost.Schedule.Interval

namespace SheetPost.Schedule

open SheetPost.Text

/-! ## Items -/

/-- how a unit is written -/
def TimeUnit.text : TimeUnit → List Char
  | .millisecond => ['m', 's']
  | .second => ['s']
  | .minute => ['m']
  | .hour => ['h']

/-- how many nanoseconds a unit is -/
def TimeUnit.nanos : TimeUnit → Nat
  | .millisecond => 1000000
  | .second => 1000000000
  | .minute => 60 * 1000000000
  | .hour => 3600 * 1000000000

namespace Interval

/-- digits and a unit -/
@[ext]
structure Item where
  digits : List Char
  unit : TimeUnit
  ne_nil : digits ≠ []
  isDigit : ∀ c ∈ digits, c.isDigit = true

/-- nanoseconds that can not be counted any more: 2^64 seconds -/
def limit : Nat := (maxNumber + 1) * 1000000000

/-- the interval of so many nanoseconds -/
def ofNanos (n : Nat) : Interval := ⟨n / 1000000000, n % 1000000000⟩

namespace Item

def text (i : Item) : List Char := i.digits ++ i.unit.text

def number (i : Item) : Nat := Nat.ofDigitChars 10 i.digits 0

/-- the length of an item in nanoseconds -/
def nanos (i : Item) : Nat := i.number * i.unit.nanos

/-- what can not be counted where an item is too much -/
def cause (i : Item) : Overflow := if limit ≤ i.nanos then .product else .sum

/-- the text behind an item does not go on with its unit -/
def EndsBefore (i : Item) (rest : List Char) : Prop := i.unit = .minute → rest.head? ≠ some 's'

end Item

/-- items with nothing between them -/
def textOf (items : List Item) : List Char := items.flatMap Item.text

/-- the length of items altogether -/
def nanosOf (items : List Item) : Nat := items.foldr (fun i n => i.nanos + n) 0

/-- a text begins with items, each with the longest unit that it can have, and goes on with the rest -/
inductive Begins : List Item → List Char → List Char → Prop where
  | nil {rest : List Char} : Begins [] rest rest
  | cons {i : Item} {items : List Item} {s rest : List Char} : i.EndsBefore s → Begins items s rest →
    Begins (i :: items) (i.text ++ s) rest

/-- an item stands at the front of a text -/
def AtItem (s : List Char) : Prop := ∃ i : Item, ∃ rest, i.EndsBefore rest ∧ s = i.text ++ rest

/-! ## Sums -/

theorem totalNanos_ofNanos (n : Nat) : (ofNanos n).totalNanos = n := by
  simp only [totalNanos, ofNanos]
  omega

theorem ofNanos_eq_zero_iff {n : Nat} : ofNanos n = zero ↔ n = 0 := by
  simp only [ofNanos, zero, Interval.mk.injEq]
  omega

/-- a sum is counted just if it is below the limit, and then it is the interval of so many nanoseconds -/
theorem add?_eq (a b : Interval) :
    a.add? b = if a.totalNanos + b.totalNanos < limit then some (ofNanos (a.totalNanos + b.totalNanos)) else none := by
  have hsum : a.totalNanos + b.totalNanos = (a.secs + b.secs) * 1000000000 + (a.nanos + b.nanos) := by
    simp only [totalNanos]
    omega
  have hfits : a.secs + b.secs + (a.nanos + b.nanos) / 1000000000 ≤ maxNumber ↔
      a.totalNanos + b.totalNanos < limit := by
    unfold limit
    rw [hsum]
    -- whatever the largest number is
    generalize maxNumber = m
    omega
  have hvalue : ofNanos (a.totalNanos + b.totalNanos) =
      ⟨a.secs + b.secs + (a.nanos + b.nanos) / 1000000000, (a.nanos + b.nanos) % 1000000000⟩ := by
    rw [hsum, ofNanos, Interval.mk.injEq]
    omega
  simp only [add?, hfits, hvalue]

/-- an item whose number fits is counted just if it is below the limit; milliseconds and seconds always are -/
theorem ofItem?_eq {i : Item} (h : i.number ≤ maxNumber) :
    ofItem? i.number i.unit = if i.nanos < limit then some (ofNanos i.nanos) else none := by
  have hproduct (n secs : Nat) : ofProduct? n secs =
      if n * (secs * 1000000000) < limit then some (ofNanos (n * (secs * 1000000000))) else none := by
    have hfits : n * secs ≤ maxNumber ↔ n * (secs * 1000000000) < limit := by
      rw [← Nat.mul_assoc]
      unfold limit
      generalize maxNumber = m
      omega
    have hvalue : ofNanos (n * (secs * 1000000000)) = ⟨n * secs, 0⟩ := by
      rw [← Nat.mul_assoc, ofNanos, Interval.mk.injEq]
      omega
    rw [ofProduct?, hvalue]
    simp only [hfits]
  unfold Item.nanos
  cases i.unit with
  | millisecond =>
    have hfits : i.number * 1000000 < limit := by
      unfold limit
      omega
    have hvalue : ofNanos (i.number * 1000000) = ⟨i.number / 1000, i.number % 1000 * 1000000⟩ := by
      rw [ofNanos, Interval.mk.injEq]
      omega
    rw [TimeUnit.nanos, if_pos hfits, hvalue, ofItem?]
  | second =>
    have hfits : i.number * 1000000000 < limit := by
      unfold limit
      omega
    have hvalue : ofNanos (i.number * 1000000000) = ⟨i.number, 0⟩ := by
      rw [ofNanos, Interval.mk.injEq]
      omega
    rw [TimeUnit.nanos, if_pos hfits, hvalue, ofItem?]
  | minute => exact hproduct i.number 60
  | hour => exact hproduct i.number 3600

/-- an item behind `n` nanoseconds -/
theorem addItem_ofNanos {i : Item} (h : i.number ≤ maxNumber) (n : Nat) :
    (ofNanos n).addItem i.number i.unit =
      if n + i.nanos < limit then .ok (ofNanos (n + i.nanos)) else .error i.cause := by
  unfold addItem Item.cause
  rw [ofItem?_eq h]
  by_cases hitem : i.nanos < limit
  · rw [if_pos hitem, if_neg (Nat.not_le.2 hitem)]
    simp only [add?_eq, totalNanos_ofNanos]
    by_cases hsum : n + i.nanos < limit
    · rw [if_pos hsum, if_pos hsum]
    · rw [if_neg hsum, if_neg hsum]
  · rw [if_neg hitem, if_pos (Nat.not_lt.1 hitem), if_neg (by omega)]

theorem nanosOf_cons (i : Item) (items : List Item) : nanosOf (i :: items) = i.nanos + nanosOf items := rfl

theorem nanosOf_append (xs ys : List Item) : nanosOf (xs ++ ys) = nanosOf xs + nanosOf ys := by
  induction xs with
  | nil => exact (Nat.zero_add _).symm
  | cons i xs ih => rw [List.cons_append, nanosOf_cons, nanosOf_cons, ih, Nat.add_assoc]

theorem nanosOf_concat (items : List Item) (i : Item) : nanosOf (items ++ [i]) = nanosOf items + i.nanos :=
  nanosOf_append items [i]

/-! ## One item -/

theorem unit?_text {u : TimeUnit} {rest : List Char} (h : u = .minute → rest.head? ≠ some 's') :
    unit? (u.text ++ rest) = some (u, rest) := by
  cases u with
  | millisecond => rfl
  | second => rfl
  | hour => rfl
  | minute =>
    have hs : ∀ r, rest ≠ 's' :: r := by
      rintro r rfl
      exact h rfl rfl
    rw [TimeUnit.text, List.singleton_append, unit?]
    intro r hr
    exact hs r hr

theorem eq_of_unit? {s rest : List Char} {u : TimeUnit} (h : unit? s = some (u, rest)) :
    s = u.text ++ rest ∧ (u = .minute → rest.head? ≠ some 's') := by
  unfold unit? at h
  split at h
  · cases h
    exact ⟨rfl, fun hu => by cases hu⟩
  · cases h
    exact ⟨rfl, fun hu => by cases hu⟩
  · next r hr =>
    cases h
    refine ⟨rfl, fun _ hs => ?_⟩
    obtain ⟨t, ht⟩ := List.head?_eq_some_iff.1 hs
    exact hr t ht
  · cases h
    exact ⟨rfl, fun hu => by cases hu⟩
  · cases h

/-- the digits of an item end where its unit begins -/
theorem Item.cut_text (i : Item) (rest : List Char) :
    (i.text ++ rest).takeWhile Char.isDigit = i.digits ∧
      (i.text ++ rest).dropWhile Char.isDigit = i.unit.text ++ rest := by
  have hunit : (i.unit.text ++ rest).takeWhile Char.isDigit = [] ∧
      (i.unit.text ++ rest).dropWhile Char.isDigit = i.unit.text ++ rest := by
    cases i.unit <;> exact ⟨rfl, rfl⟩
  rw [Item.text, List.append_assoc, List.takeWhile_append_of_pos i.isDigit, List.dropWhile_append_of_pos i.isDigit,
    hunit.1, hunit.2, List.append_nil]
  exact ⟨rfl, rfl⟩

theorem Item.exists_cons (i : Item) (rest : List Char) :
    ∃ c r, i.text ++ rest = c :: r ∧ c.isDigit = true := by
  obtain ⟨c, digits, hd⟩ := List.exists_cons_of_ne_nil i.ne_nil
  refine ⟨c, digits ++ (i.unit.text ++ rest), by rw [Item.text, hd, List.append_assoc]; rfl, i.isDigit c ?_⟩
  rw [hd]
  exact List.mem_cons_self

/-- the reader at an item -/
theorem readFrom_item {i : Item} {rest : List Char} (h : i.EndsBefore rest) (n : Nat) :
    readFrom (ofNanos n) (i.text ++ rest) =
      if i.number ≤ maxNumber then
        if n + i.nanos < limit then readFrom (ofNanos (n + i.nanos)) rest else .overflow i.cause
      else .invalid := by
  obtain ⟨c, r, hcons, -⟩ := i.exists_cons rest
  obtain ⟨htake, hdrop⟩ := i.cut_text rest
  rw [hcons] at htake hdrop
  have hunit : unit? ((c :: r).dropWhile Char.isDigit) = some (i.unit, rest) := by
    rw [hdrop]
    exact unit?_text h
  have hnumber := readUnsigned?_of_isDigit i.ne_nil i.isDigit maxNumber
  rw [← Item.number] at hnumber
  rw [hcons, readFrom]
  split
  · next hnone =>
    rw [hunit] at hnone
    cases hnone
  · next u rest' hsome =>
    rw [hunit] at hsome
    cases hsome
    rw [htake, hnumber]
    by_cases hn : i.number ≤ maxNumber
    · rw [if_pos hn, if_pos hn]
      have hadd := addItem_ofNanos hn n
      by_cases hsum : n + i.nanos < limit
      · simp only [hadd, if_pos hsum]
      · simp only [hadd, if_neg hsum]
    · rw [if_neg hn, if_neg hn]

/-- the reader at the end -/
theorem readFrom_nil (n : Nat) :
    readFrom (ofNanos n) [] = if n = 0 then .invalid else .interval (ofNanos n) := by
  simp only [readFrom, ofNanos_eq_zero_iff]

/-- the reader where no item stands -/
theorem readFrom_of_not_atItem {s : List Char} (h : ¬ AtItem s) (n : Nat) :
    readFrom (ofNanos n) s = if s = [] ∧ n ≠ 0 then .interval (ofNanos n) else .invalid := by
  cases s with
  | nil =>
    rw [readFrom_nil]
    by_cases hn : n = 0 <;> simp [hn]
  | cons c r =>
    rw [if_neg (by simp), readFrom]
    split
    · rfl
    · next u rest hunit =>
      obtain ⟨hrest, hends⟩ := eq_of_unit? hunit
      by_cases hdigits : (c :: r).takeWhile Char.isDigit = []
      · rw [hdigits]
        rfl
      · refine absurd ⟨⟨_, u, hdigits, fun x hx => List.mem_takeWhile_imp hx⟩, rest, hends, ?_⟩ h
        rw [Item.text, List.append_assoc, ← hrest, List.takeWhile_append_dropWhile]

/-- only one item can stand at the front of a text -/
theorem Item.eq_of_append_eq {i j : Item} {s t : List Char} (hi : i.EndsBefore s) (hj : j.EndsBefore t)
    (h : i.text ++ s = j.text ++ t) : i = j ∧ s = t := by
  obtain ⟨hdigits, hunit⟩ := i.cut_text s
  obtain ⟨hdigits', hunit'⟩ := j.cut_text t
  rw [h] at hdigits hunit
  have hrest : some (i.unit, s) = some (j.unit, t) := by
    rw [← unit?_text hi, ← unit?_text hj, ← hunit, ← hunit']
  obtain ⟨hunits, hst⟩ := Prod.mk.inj (Option.some.inj hrest)
  exact ⟨Item.ext (hdigits.symm.trans hdigits') hunits, hst⟩

/-! ## Texts of items -/

theorem textOf_cons (i : Item) (items : List Item) : textOf (i :: items) = i.text ++ textOf items := rfl

/-- an item begins with a digit, which no unit goes on with -/
theorem Item.endsBefore_textOf (i : Item) (items : List Item) : i.EndsBefore (textOf items) := by
  intro _ hs
  cases items with
  | nil => cases hs
  | cons j items =>
    obtain ⟨c, r, hcons, hc⟩ := j.exists_cons (textOf items)
    rw [textOf_cons, hcons] at hs
    cases hs
    cases hc

theorem begins_append (xs ys : List Item) : Begins xs (textOf (xs ++ ys)) (textOf ys) := by
  induction xs with
  | nil => exact .nil
  | cons i xs ih => exact .cons (i.endsBefore_textOf (xs ++ ys)) ih

theorem begins_textOf (items : List Item) : Begins items (textOf items) [] := by
  have h := begins_append items []
  rwa [List.append_nil] at h

/-- the items that a text of items begins with are among these -/
theorem isPrefix_of_begins {xs items : List Item} {rest : List Char} (h : Begins xs (textOf items) rest) :
    xs <+: items := by
  generalize ht : textOf items = s at h
  induction h generalizing items with
  | nil => exact List.nil_prefix
  | @cons i xs s rest hends _ ih =>
    cases items with
    | nil =>
      obtain ⟨c, r, hcons, -⟩ := i.exists_cons s
      rw [hcons] at ht
      cases ht
    | cons j items =>
      obtain ⟨rfl, rfl⟩ := Item.eq_of_append_eq (j.endsBefore_textOf items) hends ht
      exact (List.prefix_cons_inj j).2 (ih rfl)

theorem textOf_injective {items more : List Item} (h : textOf items = textOf more) : items = more := by
  have hmore : items <+: more := isPrefix_of_begins (h ▸ begins_textOf items)
  have hitems : more <+: items := isPrefix_of_begins (h ▸ begins_textOf more)
  exact hmore.eq_of_length_le hitems.length_le

/-- each text begins with as many items as it can -/
theorem exists_begins (s : List Char) : ∃ items rest, Begins items s rest ∧ ¬ AtItem rest := by
  induction hn : s.length using Nat.strong_induction_on generalizing s with
  | _ n ih =>
    by_cases hs : AtItem s
    · -- an item holds a digit at least, so what is behind it is shorter
      obtain ⟨i, r, hends, rfl⟩ := hs
      obtain ⟨c, t, hcons, -⟩ := i.exists_cons []
      have hlen : r.length < n := by
        rw [List.append_nil] at hcons
        rw [← hn, hcons, List.length_append, List.length_cons]
        omega
      obtain ⟨items, rest, hbegins, hrest⟩ := ih r.length hlen r rfl
      exact ⟨i :: items, rest, .cons hends hbegins, hrest⟩
    · exact ⟨[], s, .nil, hs⟩

/-! ## Reading -/

/-- the numbers of items fit in 64 bits -/
def NumbersFit (items : List Item) : Prop := ∀ i ∈ items, i.number ≤ maxNumber

/-- the items that an interval was read from, after `n` nanoseconds -/
theorem exists_of_readFrom {n : Nat} (hn : n < limit) {s : List Char} {d : Interval}
    (h : readFrom (ofNanos n) s = .interval d) :
    ∃ items, s = textOf items ∧ NumbersFit items ∧ n + nanosOf items ≠ 0 ∧ n + nanosOf items < limit ∧
      d = ofNanos (n + nanosOf items) := by
  -- by the items that stand at the front, with the sum so far as the state
  obtain ⟨items, rest, hbegins, hrest⟩ := exists_begins s
  induction hbegins generalizing n with
  | @nil rest =>
    rw [readFrom_of_not_atItem hrest] at h
    split at h
    · next hend =>
      cases h
      exact ⟨[], hend.1, by simp [NumbersFit], hend.2, hn, rfl⟩
    · cases h
  | @cons i items s rest hends _ ih =>
    rw [readFrom_item hends] at h
    split at h
    · next hfit =>
      split at h
      · next hsum =>
        obtain ⟨more, rfl, hmore, hpos, hlt, rfl⟩ := ih hsum h hrest
        rw [Nat.add_assoc] at hpos hlt ⊢
        exact ⟨i :: more, rfl, List.forall_mem_cons.2 ⟨hfit, hmore⟩, hpos, hlt, rfl⟩
      · cases h
    · cases h

/-- the items are read, and the reader goes on behind them -/
theorem readFrom_begins {items : List Item} {s rest : List Char} (h : Begins items s rest) (hfit : NumbersFit items)
    {n : Nat} (hsum : n + nanosOf items < limit) :
    readFrom (ofNanos n) s = readFrom (ofNanos (n + nanosOf items)) rest := by
  induction h generalizing n with
  | nil => rfl
  | @cons i items s rest hends _ ih =>
    obtain ⟨hi, hitems⟩ := List.forall_mem_cons.1 hfit
    rw [nanosOf_cons, ← Nat.add_assoc] at hsum ⊢
    rw [readFrom_item hends, if_pos hi, if_pos (by omega), ih hitems hsum]

/-- the numbers of the items at the front of a text fit, and the last of these is too much behind the others -/
structure TooMuch (s : List Char) (items : List Item) (last : Item) : Prop where
  begins : ∃ rest, Begins (items ++ [last]) s rest
  fit : NumbersFit (items ++ [last])
  below : nanosOf items < limit
  reached : limit ≤ nanosOf items + last.nanos

/-- the item that could not be counted, after `n` nanoseconds -/
theorem exists_of_readFrom_overflow {n : Nat} (hn : n < limit) {s : List Char} {cause : Overflow}
    (h : readFrom (ofNanos n) s = .overflow cause) :
    ∃ items last rest, Begins (items ++ [last]) s rest ∧ NumbersFit (items ++ [last]) ∧
      n + nanosOf items < limit ∧ limit ≤ n + nanosOf items + last.nanos ∧ last.cause = cause := by
  obtain ⟨items, rest, hbegins, hrest⟩ := exists_begins s
  induction hbegins generalizing n with
  | @nil rest =>
    rw [readFrom_of_not_atItem hrest] at h
    split at h <;> cases h
  | @cons i items s rest hends _ ih =>
    rw [readFrom_item hends] at h
    split at h
    · next hfit =>
      split at h
      · next hsum =>
        obtain ⟨more, last, rest', hbegins, hmore, hbelow, hreached, hcause⟩ := ih hsum h hrest
        rw [Nat.add_assoc n] at hbelow hreached
        exact ⟨i :: more, last, rest', .cons hends hbegins, List.forall_mem_cons.2 ⟨hfit, hmore⟩, hbelow, hreached,
          hcause⟩
      · next hsum =>
        -- the reader stops here, whatever the text goes on with
        cases h
        exact ⟨[], i, s, .cons hends .nil, List.forall_mem_singleton.2 hfit, hn, Nat.not_lt.1 hsum, rfl⟩
    · cases h

theorem readFrom_tooMuch {items : List Item} {last : Item} {s rest : List Char}
    (h : Begins (items ++ [last]) s rest) (hfit : NumbersFit (items ++ [last])) {n : Nat}
    (hbelow : n + nanosOf items < limit) (hreached : limit ≤ n + nanosOf items + last.nanos) :
    readFrom (ofNanos n) s = .overflow last.cause := by
  induction items generalizing n s with
  | nil =>
    obtain ⟨hlast, -⟩ := List.forall_mem_cons.1 hfit
    have hreached : limit ≤ n + last.nanos := hreached
    cases h with
    | cons hends _ => rw [readFrom_item hends, if_pos hlast, if_neg (Nat.not_lt.2 hreached)]
  | cons i items ih =>
    obtain ⟨hi, hitems⟩ := List.forall_mem_cons.1 hfit
    cases h with
    | cons hends hbegins =>
      rw [nanosOf_cons, ← Nat.add_assoc] at hbelow hreached
      rw [readFrom_item hends, if_pos hi, if_pos (by omega)]
      exact ih hbegins hitems hbelow hreached

/-- **an interval is read from items whose numbers fit and whose sum is not zero and does not reach the limit; it is
    their sum** -/
theorem read_eq_interval_iff {s : List Char} {d : Interval} :
    read s = .interval d ↔ ∃ items, s = textOf items ∧ NumbersFit items ∧ nanosOf items ≠ 0 ∧
      nanosOf items < limit ∧ d = ofNanos (nanosOf items) := by
  constructor
  · intro h
    obtain ⟨items, hs, hfit, hpos, hlt, hd⟩ := exists_of_readFrom (n := 0) (by decide) h
    rw [Nat.zero_add] at hpos hlt hd
    exact ⟨items, hs, hfit, hpos, hlt, hd⟩
  · rintro ⟨items, rfl, hfit, hpos, hlt, rfl⟩
    have hread := readFrom_begins (begins_textOf items) hfit (n := 0) (by rwa [Nat.zero_add])
    rw [Nat.zero_add, readFrom_nil, if_neg hpos] at hread
    exact hread

/-- **reading stops with an overflow where an item at the front of the text is too much, and says what could not be
    counted: the item alone, or the sum** -/
theorem read_eq_overflow_iff {s : List Char} {cause : Overflow} :
    read s = .overflow cause ↔ ∃ items last, TooMuch s items last ∧ last.cause = cause := by
  constructor
  · intro h
    obtain ⟨items, last, rest, hbegins, hfit, hbelow, hreached, hcause⟩ :=
      exists_of_readFrom_overflow (n := 0) (by decide) h
    rw [Nat.zero_add] at hbelow hreached
    exact ⟨items, last, ⟨⟨rest, hbegins⟩, hfit, hbelow, hreached⟩, hcause⟩
  · intro h
    obtain ⟨items, last, h, rfl⟩ := h
    obtain ⟨rest, hbegins⟩ := h.begins
    exact readFrom_tooMuch hbegins h.fit (n := 0) (by simpa using h.below) (by simpa using h.reached)

end Interval

end SheetPost.Schedule
