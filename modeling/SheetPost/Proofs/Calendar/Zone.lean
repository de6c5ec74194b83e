/-
What the clocks of a zone show, and when. A clock that is put back shows some seconds again. A search that goes by what
it shows then goes back in time if it takes the earlier of two, and it does not if it takes none of them.

Main statements: clocks that are never put back are forward (`forward_fixed`), and clocks that are put back are if what
they show twice is not taken (`forward_once`); others may not be (`not_forward_earlier`).
-/
import SheetPost.Calendar.Zone
import SheetPost.Proofs.Calendar.Moment

namespace SheetPost.Calendar.Zone

variable {z : Zone} {m : Moment} {date : Date} {time : Time}

/-! ## Moments -/

theorem localSeconds_atUtc (z : Zone) (seconds : Int) (nanos : Nat) :
    (z.atUtc seconds nanos).localSeconds = seconds + z.offsetAt seconds := Moment.localSeconds_ofLocalSeconds _ _ _

theorem utcSeconds_atUtc (z : Zone) (seconds : Int) (nanos : Nat) : (z.atUtc seconds nanos).utcSeconds = seconds := by
  have hoffset : (z.atUtc seconds nanos).offset = z.offsetAt seconds := rfl
  rw [Moment.utcSeconds, localSeconds_atUtc, hoffset]
  omega

theorem atUtc_valid (z : Zone) (seconds : Int) (nanos : Nat) : (z.atUtc seconds nanos).IsValid :=
  Moment.ofLocalSeconds_valid _ _ _

/-- the moment is one that is taken for what the clocks show then -/
def Takes (z : Zone) (m : Moment) : Prop := m.nanos = 0 ∧ z.offsetOf? m.localSeconds = some m.offset

theorem moment?_eq_some_iff : z.moment? date time = some m ↔ z.Takes m ∧ m.date = date ∧ m.time = time := by
  obtain ⟨d, t, n, o⟩ := m
  unfold moment? Takes Moment.localSeconds
  rw [Option.map_eq_some_iff]
  constructor
  · intro h
    obtain ⟨offset, ho, he⟩ := h
    cases he
    exact ⟨⟨rfl, ho⟩, rfl, rfl⟩
  · intro h
    obtain ⟨⟨rfl, ho⟩, rfl, rfl⟩ := h
    exact ⟨o, ho, rfl⟩

theorem takes_fixed_iff {offset : Int} : (fixed offset).Takes m ↔ m.nanos = 0 ∧ m.offset = offset := by
  unfold Takes fixed
  rw [Option.some.injEq, eq_comm (a := offset)]

/-! ## Forward and back -/

/-- what is taken for a second never lies before a moment at which the clocks show no later one -/
def Forward (z : Zone) : Prop :=
  ∀ now seconds offset : Int, now + z.offsetAt now ≤ seconds → z.offsetOf? seconds = some offset →
    now ≤ seconds - offset

theorem forward_fixed (offset : Int) : (fixed offset).Forward := by
  intro now seconds o hle ho
  cases ho
  unfold fixed at hle
  simp only at hle
  omega

/-- what clocks show before they are put back they show again -/
def Repeats (z : Zone) : Prop :=
  ∀ earlier later : Int, earlier < later → later + z.offsetAt later ≤ earlier + z.offsetAt earlier →
    ∃ again, later ≤ again ∧ again + z.offsetAt again = earlier + z.offsetAt earlier

theorem offsetOf?_once {offsetAt : Int → Int} {offsets : List Int} {seconds offset : Int}
    (hall : ∀ u, offsetAt u ∈ offsets) (h : (once offsetAt offsets).offsetOf? seconds = some offset) {u : Int}
    (hu : u + offsetAt u = seconds) : u = seconds - offset := by
  simp only [once] at h
  split at h
  · next only he =>
    cases h
    have hmem : offsetAt u ∈ offsets.filter fun offset => offsetAt (seconds - offset) == offset := by
      refine List.mem_filter.2 ⟨hall u, ?_⟩
      have hback : seconds - offsetAt u = u := by omega
      rw [hback, beq_self_eq_true]
    rw [he, List.mem_singleton] at hmem
    omega
  · cases h

/-- a search that takes nothing of what clocks show twice does not go back with them -/
theorem forward_once {offsetAt : Int → Int} {offsets : List Int} (hall : ∀ u, offsetAt u ∈ offsets)
    (h : (once offsetAt offsets).Repeats) : (once offsetAt offsets).Forward := by
  intro now seconds offset hle ho
  have hshown := (once offsetAt offsets).shown ho
  by_contra hlt
  -- the second is shown once before `now`, and once more since the clocks were put back
  obtain ⟨again, hagain, hsame⟩ := h (seconds - offset) now (Int.not_le.1 hlt) (by omega)
  have hu : again + offsetAt again = seconds := by
    have hsame : again + offsetAt again = seconds - offset + (once offsetAt offsets).offsetAt (seconds - offset) := hsame
    omega
  have := offsetOf?_once hall ho hu
  omega

/-- the distance of clocks that are put back by an hour at 01:00 UTC on 25 October 2026 -/
def autumn (seconds : Int) : Int := if seconds < 1792890000 then 7200 else 3600

theorem forward_autumn : (once autumn [7200, 3600]).Forward := by
  refine forward_once (fun u => ?_) fun earlier later hlt hle => ?_
  · unfold autumn
    split <;> simp
  · simp only [once, autumn] at hle ⊢
    refine ⟨earlier + 3600, ?_⟩
    split_ifs at * <;> omega

/-- the same clocks, where the earlier of two seconds is taken -/
def earlier : Zone where
  offsetAt := autumn
  offsetOf? seconds := if seconds < 1792897200 then some 7200 else some 3600
  shown {seconds offset} h := by
    unfold autumn
    split at h <;> cases h <;> split <;> omega

/-- half past two is taken for the first one, also when it is ten past two for the second time -/
theorem not_forward_earlier : ¬ earlier.Forward := by
  intro h
  have hback : (1792890600 : Int) ≤ 1792895400 - 7200 := h _ _ _ (by decide) (by decide)
  exact absurd hback (by decide)

end SheetPost.Calendar.Zone
