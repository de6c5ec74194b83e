/-
Punycode: a label of any characters as letters, digits and hyphens. The ASCII characters come first; then each other
character, in the order of code points, as the distance from the last insertion. A distance is written in digits of
base 36 with thresholds that move with the distances seen.
-/

namespace SheetPost.Net.Punycode

/-- a digit of base 36: letters before figures -/
def digit (n : Nat) : Char :=
  if n < 26 then Char.ofNat (0x61 + n) else Char.ofNat (0x30 + (n - 26))

/-- the threshold of the digit at place `k` -/
def threshold (bias k : Nat) : Nat :=
  if k ≤ bias + 1 then 1 else if bias + 26 ≤ k then 26 else k - bias

theorem threshold_pos (bias k : Nat) : 1 ≤ threshold bias k := by
  unfold threshold
  repeat' split
  all_goals omega

/-- a distance divided by 35 until it is at most 455, and the place that goes with it -/
def reduce (distance place : Nat) : Nat × Nat :=
  if 455 < distance then reduce (distance / 35) (place + 36) else (distance, place)
termination_by distance
decreasing_by exact Nat.div_lt_self (by omega) (by omega)

/-- the bias after a distance that was the `count`th insertion -/
def adapt (distance count : Nat) (first : Bool) : Nat :=
  let scaled := if first then distance / 700 else distance / 2
  let (rest, place) := reduce (scaled + scaled / count) 0
  place + 36 * rest / (rest + 38)

/-- a distance in digits -/
def writeDistance (bias k q : Nat) : List Char :=
  let t := threshold bias k
  if q < t then [digit q] else digit (t + (q - t) % (36 - t)) :: writeDistance bias (k + 36) ((q - t) / (36 - t))
termination_by q
decreasing_by
  have h1 := threshold_pos bias k
  have h2 := Nat.div_le_self (q - threshold bias k) (36 - threshold bias k)
  omega

/-- what has been written, and the count of insertions behind it -/
structure Progress where
  out : List Char
  distance : Nat
  bias : Nat
  done : Nat

/-- one character of the label passes while those with code point `m` are inserted -/
def pass (basic m : Nat) (p : Progress) (c : Char) : Progress :=
  if c.toNat < m then { p with distance := p.distance + 1 }
  else if c.toNat = m then
    { out := p.out ++ writeDistance p.bias 36 p.distance, distance := 0,
      bias := adapt p.distance (p.done + 1) (p.done == basic), done := p.done + 1 }
  else p

/-- insertion of the code points in `todo`, of which the next possible one is `n` -/
def insertAll (label : List Char) (basic : Nat) : List Nat → Nat → Progress → Progress
  | [], _, p => p
  | m :: todo, n, p =>
    let p := label.foldl (pass basic m) { p with distance := p.distance + (m - n) * (p.done + 1) }
    insertAll label basic todo (m + 1) { p with distance := p.distance + 1 }

/-- a label without the mark in front -/
def encode (label : List Char) : List Char :=
  let basic := label.filter (·.toNat < 0x80)
  let others := ((label.filter (0x80 ≤ ·.toNat)).map Char.toNat).mergeSort.eraseDups
  let start := if basic.isEmpty then [] else basic ++ ['-']
  (insertAll label basic.length others 0x80 ⟨start, 0, 72, basic.length⟩).out

end SheetPost.Net.Punycode
