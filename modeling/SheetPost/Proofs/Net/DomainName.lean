/-
Names of hosts and their ASCII form: a sign that is ASCII before is ASCII behind. What is folded, dropped or written in
Punycode stands for characters beyond ASCII, so the form holds every sign that the name holds, and no name with a blank
beyond ASCII has one.

Main statements: `mem_of_toAscii?` and `lt_of_isBlank_of_toAscii?`.
-/
import SheetPost.Net.DomainName
import SheetPost.Proofs.Net.Ip

namespace SheetPost.Net

open SheetPost.Text

/-! ## Punycode -/

namespace Punycode

theorem prefix_pass (basic m : Nat) (p : Progress) (c : Char) : p.out <+: (pass basic m p c).out := by
  unfold pass
  split
  · exact List.prefix_rfl
  · split
    · exact List.prefix_append _ _
    · exact List.prefix_rfl

theorem prefix_foldl_pass (basic m : Nat) (label : List Char) (p : Progress) :
    p.out <+: (label.foldl (pass basic m) p).out := by
  induction label generalizing p with
  | nil => exact List.prefix_rfl
  | cons c label ih => exact (prefix_pass basic m p c).trans (ih _)

/-- insertions only write behind what is there -/
theorem prefix_insertAll (label : List Char) (basic : Nat) (todo : List Nat) (n : Nat) (p : Progress) :
    p.out <+: (insertAll label basic todo n p).out := by
  induction todo generalizing n p with
  | nil => exact List.prefix_rfl
  | cons m todo ih =>
    have hfold := prefix_foldl_pass basic m label { p with distance := p.distance + (m - n) * (p.done + 1) }
    rw [insertAll]
    generalize label.foldl (pass basic m) _ = q at hfold
    exact hfold.trans (ih (m + 1) { q with distance := q.distance + 1 })

/-- the ASCII characters of a label are written first -/
theorem mem_encode {label : List Char} {c : Char} (hc : c ∈ label) (hascii : c.toNat < 0x80) : c ∈ encode label := by
  have hbasic : c ∈ label.filter (·.toNat < 0x80) := List.mem_filter.2 ⟨hc, decide_eq_true hascii⟩
  refine (prefix_insertAll label _ _ 0x80 _).subset ?_
  rw [if_neg (by simpa using List.ne_nil_of_mem hbasic)]
  exact List.mem_append_left _ hbasic

end Punycode

/-! ## Names -/

namespace DomainName

theorem le_of_droppedRanges {n : Nat} (h : inRanges n droppedRanges = true) : 0x80 ≤ n := by
  obtain ⟨r, hr, hle, -⟩ := inRanges_eq_true h
  have hall : ∀ r ∈ droppedRanges, 0x80 ≤ r.1 := by decide
  exact Nat.le_trans (hall r hr) hle

/-- a character that names neither lose nor change -/
def Stays (c : Char) : Prop := inRanges c.toNat droppedRanges = false ∧ isDot c = false ∧ foldCase c = c

theorem stays_of_ascii {c : Char} (hascii : c.toNat < 0x80) (hlower : c.toLower = c) (hdot : c ≠ '.') : Stays c := by
  refine ⟨?_, ?_, ?_⟩
  · rw [← Bool.not_eq_true]
    intro h
    have := le_of_droppedRanges h
    omega
  · have hne : (c == '.') = false := by simpa using hdot
    rw [isDot, hne]
    simp only [Bool.false_or, Bool.or_eq_false_iff, beq_eq_false_iff_ne]
    omega
  · rw [foldCase, if_pos hascii, hlower]

/-- no blank beyond ASCII is dropped, changed or allowed -/
theorem stays_of_isBlank {c : Char} (hc : isBlank c = true) (hbeyond : 0x80 ≤ c.toNat) :
    Stays c ∧ isAllowed c = false := by
  refine forall_isBlank (P := fun c => 0x80 ≤ c.toNat → Stays c ∧ isAllowed c = false) ?_ hc hbeyond
  unfold Stays
  decide +kernel

theorem mem_normalize {s : List Char} {c : Char} (hc : c ∈ s) (h : Stays c) : c ∈ normalize s := by
  obtain ⟨hdropped, hdot, hfold⟩ := h
  refine List.mem_map.2 ⟨c, List.mem_filter.2 ⟨hc, by rw [hdropped]; rfl⟩, ?_⟩
  rw [hdot, if_neg Bool.false_ne_true, hfold]

/-- a character that stays is in a label of the name, which has a form in ASCII that stands in the one of the name -/
theorem exists_label {s ascii : List Char} (h : toAscii? s = some ascii) {c : Char} (hc : c ∈ s) (hstays : Stays c) :
    ∃ label form, c ∈ label ∧ labelToAscii? label = some form ∧ form ⊆ ascii := by
  obtain ⟨forms, hforms, rfl⟩ := Option.map_eq_some_iff.1 h
  have hmem := mem_normalize hc hstays
  rw [← join_split '.' (normalize s)] at hmem
  rcases mem_join hmem with hmem | ⟨label, hlabel, hmem⟩
  · rw [List.mem_singleton.1 hmem] at hstays
    exact absurd hstays.2.1 (by decide)
  · obtain ⟨form, hform, hin⟩ := (exists_of_mapM hforms).1 label hlabel
    exact ⟨label, form, hmem, hin, (infix_join hform).subset⟩

/-- **Signs stay**: what is ASCII, no dot and no letter of the upper case stands in the ASCII form as well -/
theorem mem_of_toAscii? {s ascii : List Char} (h : toAscii? s = some ascii) {c : Char} (hc : c ∈ s)
    (hascii : c.toNat < 0x80) (hlower : c.toLower = c) (hdot : c ≠ '.') : c ∈ ascii := by
  obtain ⟨label, form, hmem, hform, hsub⟩ := exists_label h hc (stays_of_ascii hascii hlower hdot)
  refine hsub ?_
  unfold labelToAscii? at hform
  split at hform
  · cases hform
    exact hmem
  · split at hform
    · cases hform
      exact List.mem_append_right _ (Punycode.mem_encode hmem hascii)
    · cases hform

/-- a name with a blank beyond ASCII has no ASCII form -/
theorem lt_of_isBlank_of_toAscii? {s ascii : List Char} (h : toAscii? s = some ascii) {c : Char} (hc : c ∈ s)
    (hblank : isBlank c = true) : c.toNat < 0x80 := by
  rw [← Nat.not_le]
  intro hbeyond
  obtain ⟨hstays, hallowed⟩ := stays_of_isBlank hblank hbeyond
  obtain ⟨label, form, hmem, hform, -⟩ := exists_label h hc hstays
  unfold labelToAscii? at hform
  split at hform
  · next hall => exact absurd (of_decide_eq_true (List.all_eq_true.1 hall c hmem)) (Nat.not_lt.2 hbeyond)
  · split at hform
    · next hall =>
      rw [Bool.and_eq_true] at hall
      rw [List.all_eq_true.1 hall.1 c hmem] at hallowed
      cases hallowed
    · cases hform

end DomainName

end SheetPost.Net
