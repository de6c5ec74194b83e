/-
What stands in an escaped part of a URL. Each of the sets of bytes that are escaped somewhere holds the control
characters, and none of them the percent sign or a hexadecimal digit (`IsEscapeSet`). So an escape stays an escape, and
a part that was escaped is escaped again without a change.

Main statement: `escape_escape`.
-/
import SheetPost.Proofs.Text.Percent
import SheetPost.Url.Basic

namespace SheetPost.Url

open SheetPost.Text

/-! ## The sets -/

/-- a set of bytes from the control characters up to what a user name cannot hold -/
structure IsEscapeSet (outside : UInt8 → Bool) : Prop where
  control : ∀ b, isControl b = true → outside b = true
  userinfo : ∀ b, outside b = true → isOutsideUserinfo b = true

theorem isEscapeSet_userinfo : IsEscapeSet isOutsideUserinfo where
  control b hb := by simp [isOutsideUserinfo, isOutsidePath, isOutsideFragment, hb]
  userinfo _ hb := hb

theorem isEscapeSet_path : IsEscapeSet isOutsidePath where
  control b hb := by simp [isOutsidePath, isOutsideFragment, hb]
  userinfo b hb := by simp [isOutsideUserinfo, hb]

theorem isEscapeSet_control : IsEscapeSet isControl where
  control _ hb := hb
  userinfo b hb := isEscapeSet_userinfo.control b hb

variable {outside : UInt8 → Bool}

theorem IsEscapeSet.keepsEscapes (h : IsEscapeSet outside) : Percent.KeepsEscapes fun b => !outside b where
  ascii b hb := by
    have hcontrol : ¬ isControl b = true := fun hc => by simp [h.control b hc] at hb
    rw [isControl, Bool.or_eq_true, not_or, decide_eq_true_eq, decide_eq_true_eq, UInt8.le_iff_toNat_le] at hcontrol
    have h7F : (0x7F : UInt8).toNat = 0x7F := rfl
    omega
  percent := by
    rw [Bool.not_eq_true', ← Bool.not_eq_true]
    intro hp
    exact absurd (h.userinfo _ hp) (by decide)
  hex c hc := by
    have key : ∀ n : Fin 128, Percent.isHex (Char.ofNat n) = true → isOutsideUserinfo (UInt8.ofNat n) = false := by
      decide +kernel
    have hlt := Percent.lt_of_isHex hc
    have hinside := key ⟨c.toNat, hlt⟩ (by rwa [Char.ofNat_toNat])
    rw [Bool.not_eq_true', ← Bool.not_eq_true]
    intro hout
    rw [h.userinfo _ hout] at hinside
    cases hinside

/-! ## Escaped texts -/

/-- behind the control characters, the blank comes first -/
theorem lt_of_ne_blank {c : Char} (h : 0x20 ≤ c.toNat) (hne : c ≠ ' ') : 0x20 < c.toNat :=
  Nat.lt_of_le_of_ne h fun heq => hne (Char.toNat_inj.1 heq.symm)

theorem escape_append (s t : List Char) : escape outside (s ++ t) = escape outside s ++ escape outside t := by
  rw [escape, Utf8.encode_append, Percent.encode_append]
  rfl

theorem escape_of_isKept {s : List Char} (h : Percent.IsKept (fun b => !outside b) s) : escape outside s = s :=
  Percent.encode_of_isKept h

theorem escape_ne_nil {s : List Char} (h : s ≠ []) : escape outside s ≠ [] := by
  refine Percent.encode_ne_nil fun he => ?_
  obtain ⟨c, r, rfl⟩ := List.exists_cons_of_ne_nil h
  obtain ⟨b, t, hb, -⟩ := Utf8.front_encodeChar c []
  rw [Utf8.encode_cons, hb] at he
  cases he

/-- what is escaped does not stand in a text that is kept -/
theorem not_mem_of_isKept {s : List Char} (h : Percent.IsKept (fun b => !outside b) s) {c : Char}
    (hc : outside (UInt8.ofNat c.toNat) = true) : c ∉ s := by
  intro hmem
  have := (h c hmem).2
  simp only [hc] at this
  cases this

namespace IsEscapeSet

/-- no control character stands in a text that is kept -/
theorem le_of_isKept (hset : IsEscapeSet outside) {s : List Char} (h : Percent.IsKept (fun b => !outside b) s) :
    ∀ c ∈ s, 0x20 ≤ c.toNat := by
  intro c hc
  have hbyte : (UInt8.ofNat c.toNat).toNat = c.toNat := by
    rw [UInt8.toNat_ofNat', Nat.mod_eq_of_lt (by have := (h c hc).1; omega)]
  by_contra hlt
  refine not_mem_of_isKept h (hset.control _ (Bool.or_eq_true_iff.2 (.inl (decide_eq_true ?_)))) hc
  rw [UInt8.lt_iff_toNat_lt, hbyte]
  exact Nat.not_le.1 hlt

/-- a sign that no escape is written with stands in the text, and it is not escaped -/
theorem mem_of_mem_escape (h : IsEscapeSet outside) {c : Char} {s : List Char} (hc : c ∈ escape outside s)
    (hpercent : c ≠ '%') (hhex : Percent.isHex c = false) : c ∈ s ∧ outside (UInt8.ofNat c.toNat) = false := by
  have := Percent.mem_of_mem_encode h.keepsEscapes hc hpercent hhex
  rwa [Bool.not_eq_true'] at this

/-- ASCII that is not escaped is all that an escaped text holds -/
theorem isKept_escape (h : IsEscapeSet outside) (s : List Char) :
    Percent.IsKept (fun b => !outside b) (escape outside s) := Percent.isKept_encode h.keepsEscapes _

/-- **What was escaped is escaped again without a change** -/
theorem escape_escape (h : IsEscapeSet outside) (s : List Char) :
    escape outside (escape outside s) = escape outside s := escape_of_isKept (h.isKept_escape s)

theorem decode_escape (h : IsEscapeSet outside) (s : List Char) :
    Percent.decode (escape outside s) = Percent.unescape s := Percent.decode_encode_utf8 h.keepsEscapes s

end IsEscapeSet

end SheetPost.Url
