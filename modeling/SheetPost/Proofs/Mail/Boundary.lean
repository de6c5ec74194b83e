/-
Where the boundary of a message can stand. Neither encoding of a body ever writes an underscore right behind an equals
sign: quoted-printable writes a digit or a line break there, and base64 has no underscore at all. Every boundary begins
with these two characters, so none stands in a body, whatever the text and the attachments are.

Main statement: a boundary is only ever turned down for the value of a header field (`boundary_not_in_bodies`).
-/
import Mathlib.Data.List.Chain
import SheetPost.Proofs.Mail.Base64
import SheetPost.Proofs.Mail.Refusal
import SheetPost.Proofs.Mail.RoundTrip

namespace SheetPost.Mail

open SheetPost.Text

/-! ## Adjacent characters -/

/-- no underscore stands right behind an equals sign -/
def Unmarked (s : List Char) : Prop := s.IsChain fun c d => ¬ (c = '=' ∧ d = '_')

namespace Unmarked

variable {s t : List Char} {c d : Char}

theorem not_marked (h : Unmarked s) : ¬ ['=', '_'] <:+: s := by
  intro hmark
  have hpair := List.IsChain.infix h hmark
  exact List.isChain_pair.1 hpair ⟨rfl, rfl⟩

theorem cons (hc : c ≠ '=') (hs : Unmarked s) : Unmarked (c :: s) :=
  List.isChain_cons.2 ⟨fun _ _ hmark => hc hmark.1, hs⟩

/-- what stands behind an equals sign decides -/
theorem equals (hd : d ≠ '_') (hs : Unmarked (d :: s)) : Unmarked ('=' :: d :: s) :=
  List.isChain_cons_cons.2 ⟨fun hmark => hd hmark.2, hs⟩

/-- a line break parts what stands before it from what follows -/
theorem append_crlf (hs : Unmarked s) (ht : Unmarked t) : Unmarked (s ++ (crlf ++ t)) := by
  have hbreak : Unmarked (crlf ++ t) := .cons (by decide) (.cons (by decide) ht)
  refine List.isChain_append.2 ⟨hs, hbreak, fun c _ d hd hmark => ?_⟩
  obtain rfl : '\r' = d := Option.some.inj hd
  exact absurd hmark.2 (by decide)

theorem joinLines {lines : List (List Char)} (h : ∀ l ∈ lines, Unmarked l) : Unmarked (joinLines lines) := by
  fun_induction join crlf lines with
  | case1 => exact List.isChain_nil
  | case2 l => exact h l List.mem_cons_self
  | case3 l next more ih =>
    rw [List.forall_mem_cons] at h
    rw [Mail.joinLines, join, List.append_assoc]
    exact h.1.append_crlf (ih h.2)

theorem of_not_mem (h : '_' ∉ s) : Unmarked s := by
  induction s with
  | nil => exact List.isChain_nil
  | cons c s ih =>
    rw [List.mem_cons, not_or] at h
    refine List.isChain_cons.2 ⟨fun d hd hmark => h.2 ?_, ih h.2⟩
    rw [← hmark.2]
    exact List.mem_of_mem_head? hd

end Unmarked

/-! ## Quoted-printable -/

namespace QuotedPrintable

theorem hexDigit_ne_mark {n : Nat} (h : n < 16) : hexDigit n ≠ '=' ∧ hexDigit n ≠ '_' := by
  have : ∀ m : Fin 16, hexDigit m ≠ '=' ∧ hexDigit m ≠ '_' := by decide
  exact this ⟨n, h⟩

/-- a byte written as itself is no equals sign, and one that is escaped ends in a digit -/
theorem unmarked_token_append (last : Bool) (b : UInt8) {s : List Char} (hs : Unmarked s) :
    Unmarked (token last b ++ s) := by
  unfold token
  split
  · next h =>
    obtain ⟨c, hc, -, -, hne, -⟩ := char_of_literal h
    rw [hc]
    exact hs.cons hne
  · have hb := b.toNat_lt
    have hhigh := hexDigit_ne_mark (n := b.toNat / 16) (by omega)
    have hlow := hexDigit_ne_mark (n := b.toNat % 16) (by omega)
    exact .equals hhigh.2 (.cons hhigh.1 (.cons hlow.1 hs))

/-- the tokens of a line one after the other, with a soft break in front of some -/
theorem unmarked_encodeLineFrom (width : Nat) (bytes : List UInt8) : Unmarked (encodeLineFrom width bytes) := by
  fun_induction encodeLineFrom width bytes with
  | case1 => exact List.isChain_nil
  | case2 width b r _ _ ih =>
    exact .equals (by decide) (.cons (by decide) (.cons (by decide) (unmarked_token_append _ b ih)))
  | case3 width b r _ _ ih => exact unmarked_token_append _ b ih

theorem unmarked_encode (text : List Char) : Unmarked (encode text) := by
  refine .joinLines fun l hl => ?_
  obtain ⟨line, -, rfl⟩ := List.mem_map.1 hl
  exact unmarked_encodeLineFrom 0 _

end QuotedPrintable

/-! ## Base64 -/

namespace Base64

theorem IsDigit.ne_underscore {c : Char} (h : IsDigit c) : c ≠ '_' := by
  rcases h with rfl | ⟨n, hn, rfl⟩
  · decide
  · have : ∀ m : Fin 64, digit m ≠ '_' := by decide
    exact this ⟨n, hn⟩

theorem unmarked_wrapped (bytes : List UInt8) : Unmarked (wrapped bytes) := by
  refine .of_not_mem fun hmem => ?_
  obtain ⟨l, hl, hc⟩ := List.mem_flatMap.1 hmem
  rcases List.mem_append.1 hc with hc | hc
  · exact (isDigit_of_mem_pieces hl _ hc).ne_underscore rfl
  · exact absurd hc (by decide)

end Base64

/-! ## Boundaries -/

namespace Message

/-- the delimiter of a boundary stands in the value of a field of some part -/
def StandsInValue (parts : List Part) (boundary : List Char) : Prop :=
  ∃ p ∈ parts, ∃ f ∈ p.fields, '-' :: '-' :: boundary <:+: f.2

theorem unmarked_body {text : String} {attachments : List Attachment} {p : Part} (hp : p ∈ partsOf text attachments) :
    Unmarked p.body := by
  rcases List.mem_cons.1 hp with rfl | hp
  · exact QuotedPrintable.unmarked_encode text.toList
  · obtain ⟨a, -, rfl⟩ := List.mem_map.1 hp
    exact Base64.unmarked_wrapped a.payload

theorem IsToken.marked {b : List Char} (h : IsToken b) : ['=', '_'] <:+: b := by
  obtain ⟨digits, rfl, -⟩ := h
  exact (List.prefix_append ['=', '_'] digits).isInfix

theorem IsToken.not_within_of_unmarked {b s : List Char} (h : IsToken b) (hs : Unmarked s) : ¬ b <:+: s :=
  fun hb => hs.not_marked (h.marked.trans hb)

theorem clashes_partsOf_iff {b : List Char} (hb : IsToken b) (text : String) (attachments : List Attachment) :
    clashes (partsOf text attachments) b = true ↔ StandsInValue (partsOf text attachments) b := by
  rw [clashes_iff]
  constructor
  · rintro ⟨p, hp, hbody | hvalue⟩
    · have hwithin : b <:+: '-' :: '-' :: b := (List.suffix_append ['-', '-'] b).isInfix
      exact absurd (hwithin.trans hbody) (hb.not_within_of_unmarked (unmarked_body hp))
    · exact ⟨p, hp, hvalue⟩
  · rintro ⟨p, hp, hvalue⟩
    exact ⟨p, hp, .inr hvalue⟩

/-- **A boundary is only turned down for a header value.** The two characters that every boundary begins with are
nowhere side by side in what quoted-printable makes of a text, nor in the base64 of any bytes. So no boundary stands in
a body of a message; and of the boundaries that are drawn, at most three, the first is taken that stands, behind its two
hyphens, in no value of a field of a part: all before it stand in such a value, and if none is taken, all do. -/
theorem boundary_not_in_bodies :
    (∀ text, ¬ ['=', '_'] <:+: QuotedPrintable.encode text) ∧ (∀ payload, ¬ ['=', '_'] <:+: Base64.wrapped payload) ∧
    ∀ text attachments drawn, (∀ b ∈ drawn, IsToken b) →
      (∀ b ∈ drawn, ∀ p ∈ partsOf text attachments, ¬ b <:+: p.body) ∧
      (∀ b, pickBoundary? (partsOf text attachments) drawn = some b ↔ ∃ before after,
        drawn.take 3 = before ++ b :: after ∧ ¬ StandsInValue (partsOf text attachments) b ∧
          ∀ r ∈ before, StandsInValue (partsOf text attachments) r) ∧
      (pickBoundary? (partsOf text attachments) drawn = none ↔
        ∀ b ∈ drawn.take 3, StandsInValue (partsOf text attachments) b) := by
  refine ⟨fun text => (QuotedPrintable.unmarked_encode text).not_marked,
    fun payload => (Base64.unmarked_wrapped payload).not_marked, fun text attachments drawn hdrawn => ?_⟩
  have hclash {b : List Char} (hb : b ∈ drawn.take 3) :
      clashes (partsOf text attachments) b = true ↔ StandsInValue (partsOf text attachments) b :=
    clashes_partsOf_iff (hdrawn b (List.mem_of_mem_take hb)) text attachments
  have hattempts : boundaryAttempts = 3 := rfl
  refine ⟨fun b hb p hp => (hdrawn b hb).not_within_of_unmarked (unmarked_body hp), fun b => ?_, ?_⟩
  · rw [pickBoundary?, hattempts, List.find?_eq_some_iff_append]
    constructor
    · rintro ⟨hb, before, after, htake, hbefore⟩
      have hmem {r : List Char} (hr : r ∈ before ++ b :: after) : r ∈ drawn.take 3 := htake ▸ hr
      refine ⟨before, after, htake, fun hvalue => ?_, fun r hr => ?_⟩
      · rw [(hclash (hmem (by simp))).2 hvalue] at hb
        cases hb
      · exact (hclash (hmem (List.mem_append_left _ hr))).1 (by simpa using hbefore r hr)
    · rintro ⟨before, after, htake, hb, hbefore⟩
      have hmem {r : List Char} (hr : r ∈ before ++ b :: after) : r ∈ drawn.take 3 := htake ▸ hr
      refine ⟨?_, before, after, htake, fun r hr => ?_⟩
      · rw [Bool.not_eq_true', ← Bool.not_eq_true, hclash (hmem (by simp))]
        exact hb
      · simpa using (hclash (hmem (List.mem_append_left _ hr))).2 (hbefore r hr)
  · rw [pickBoundary?, hattempts, List.find?_eq_none]
    refine forall₂_congr fun b hb => ?_
    rw [← hclash hb]
    simp

/-- a boundary that stands in the kind of an attachment is turned down, and the next one is taken -/
theorem boundary_not_in_bodies_kind :
    (∀ b ∈ ["=_0123456789abcdef0123456789abcdef".toList, "=_00000000000000000000000000000000".toList], IsToken b) ∧
    pickBoundary? (partsOf "=_ --=_0123456789abcdef0123456789abcdef"
        [⟨"a.bin", "text/x--=_0123456789abcdef0123456789abcdef", [0xFB, 0xFF]⟩])
      ["=_0123456789abcdef0123456789abcdef".toList, "=_00000000000000000000000000000000".toList] =
      some "=_00000000000000000000000000000000".toList ∧
    StandsInValue (partsOf "=_ --=_0123456789abcdef0123456789abcdef"
        [⟨"a.bin", "text/x--=_0123456789abcdef0123456789abcdef", [0xFB, 0xFF]⟩])
      "=_0123456789abcdef0123456789abcdef".toList := by
  have htoken : ∀ b ∈ ["=_0123456789abcdef0123456789abcdef".toList, "=_00000000000000000000000000000000".toList],
      IsToken b := by decide
  have hpick : pickBoundary? (partsOf "=_ --=_0123456789abcdef0123456789abcdef"
        [⟨"a.bin", "text/x--=_0123456789abcdef0123456789abcdef", [0xFB, 0xFF]⟩])
      ["=_0123456789abcdef0123456789abcdef".toList, "=_00000000000000000000000000000000".toList] =
      some "=_00000000000000000000000000000000".toList := by decide +kernel
  obtain ⟨-, hpicked, -⟩ := boundary_not_in_bodies.2.2 _ _ _ htoken
  obtain ⟨before, after, htake, -, hbefore⟩ := (hpicked _).1 hpick
  refine ⟨htoken, hpick, hbefore _ ?_⟩
  cases before with
  | nil => exact absurd (List.cons.inj htake).1 (by decide)
  | cons r before => exact (List.cons.inj htake).1 ▸ List.mem_cons_self

end Message

end SheetPost.Mail
