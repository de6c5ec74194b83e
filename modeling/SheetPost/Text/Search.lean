/-
Finding a text within a text: where it first stands, and the pieces around all its places.
-/
import SheetPost.Text.Blank

namespace SheetPost.Text

/-- the text before and after the first place where `needle` stands -/
def cutAtText (needle : List Char) : List Char → Option (List Char × List Char)
  | [] => if needle.isEmpty then some ([], []) else none
  | c :: r =>
    match after? needle (c :: r) with
    | some rest => some ([], rest)
    | none => (cutAtText needle r).map fun (a, b) => (c :: a, b)

/-- `needle` stands somewhere in the text -/
def occursIn (needle s : List Char) : Bool := (cutAtText needle s).isSome

/-- the pieces of a text between the places of `needle` -/
def splitAtText (needle s : List Char) : List (List Char) :=
  match cutAtText needle s with
  | none => [s]
  | some (a, b) => if b.length < s.length then a :: splitAtText needle b else [s]
termination_by s.length

theorem after?_eq_some {lead s r : List Char} (h : after? lead s = some r) : s = lead ++ r := by
  fun_induction after? lead s with
  | case1 s => simp_all
  | case2 => simp at h
  | case3 x lead c s hc ih =>
    have hc : x = c := by simpa using hc
    simp [hc, ih h]
  | case4 => simp at h

end SheetPost.Text
