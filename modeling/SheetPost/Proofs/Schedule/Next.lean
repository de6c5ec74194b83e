/-
The moments of a schedule, one after the other. From a trigger on, the search passes nothing over, so repeated use goes
through all triggers that are left; only the first use can leave some out.

Main statement: the next moment is the first trigger after `now` just if none is passed over, and repeated use lists
what is not passed over, each trigger once and in order (`next?_isNext_iff`).
-/
import SheetPost.Proofs.Cron.Trigger

namespace SheetPost.Schedule

open SheetPost.Calendar SheetPost.Cron SheetPost.Cron.Fields

/-- the moments of a schedule after `now`, each found from the one before -/
def nth? (s : Schedule) (now : Moment) : Nat → Option Moment
  | 0 => s.next? now
  | n + 1 => (s.nth? now n).bind s.next?

variable {source : String} {f : Fields} {now : Moment}

theorem isTrigger_of_nth? (hf : f.WellFormed) (hy : 0 ≤ (start now).date.year) {k : Nat} {a : Moment}
    (ha : (cron source f).nth? now k = some a) :
    f.IsTrigger now.offset a ∧ now.before a ∧ ¬ f.PassedOver now a := by
  induction k generalizing a with
  | zero =>
    have hfirst := isFirst_next? hf hy
    have ha : f.next? now = some a := ha
    rw [ha] at hfirst
    exact hfirst.1
  | succ k ih =>
    obtain ⟨b, hb, hnext⟩ := Option.bind_eq_some_iff.1 ha
    obtain ⟨hbt, hbbefore, hbnot⟩ := ih hb
    have hfirst := hbt.isFirst_next? hf
    have hnext : f.next? b = some a := hnext
    rw [hnext] at hfirst
    obtain ⟨⟨hat, hba⟩, -⟩ := hfirst
    have hlt := (hbt.before_iff hat).1 hba
    refine ⟨hat, ?_, fun hp => hbnot (hp.of_le hbt hat hbbefore (Int.le_of_lt hlt))⟩
    rw [Fields.before_iff hat.offset hat.nanos]
    have := (Fields.before_iff hbt.offset hbt.nanos).1 hbbefore
    omega

/-- repeated use goes forward in time -/
theorem nth?_lt (hf : f.WellFormed) (hy : 0 ≤ (start now).date.year) {j k : Nat} {a b : Moment} (hjk : j < k)
    (ha : (cron source f).nth? now j = some a) (hb : (cron source f).nth? now k = some b) :
    a.localSeconds < b.localSeconds := by
  induction k generalizing b with
  | zero => exact absurd hjk (Nat.not_lt_zero j)
  | succ k ih =>
    obtain ⟨c, hc, hnext⟩ := Option.bind_eq_some_iff.1 hb
    obtain ⟨hct, -, -⟩ := isTrigger_of_nth? hf hy hc
    have hfirst := hct.isFirst_next? hf
    have hnext : f.next? c = some b := hnext
    rw [hnext] at hfirst
    have hcb := (hct.before_iff hfirst.1.1).1 hfirst.1.2
    rcases Nat.lt_or_eq_of_le (Nat.le_of_lt_succ hjk) with hlt | rfl
    · exact Int.lt_trans (ih hlt hc) hcb
    · rw [ha] at hc
      cases hc
      exact hcb

/-- a search for the first of some triggers answers each of them, or one before it -/
theorem eq_or_lt_of_isFirst {offset : Int} {P : Moment → Prop} {r : Option Moment} {m : Moment}
    (hr : IsFirst Moment.localSeconds P r) (hp : ∀ a, P a → f.IsTrigger offset a) (hm : P m) :
    ∃ a, r = some a ∧ P a ∧ (a = m ∨ a.localSeconds < m.localSeconds) := by
  cases r with
  | none => exact absurd hm (hr m)
  | some a =>
    obtain ⟨ha, hleast⟩ := hr
    have hta := hp a ha
    have htm := hp m hm
    refine ⟨a, rfl, ha, ?_⟩
    rcases Int.lt_or_eq_of_le (hleast m hm) with hlt | heq
    · exact .inr hlt
    · exact .inl (Moment.eq_of_localSeconds_eq hta.valid htm.valid (hta.nanos.trans htm.nanos.symm)
        (hta.offset.trans htm.offset.symm) heq)

/-- repeated use comes to every trigger that is not passed over: as long as it has not, it comes nearer by a second at
least with each use -/
theorem exists_nth?_eq (hf : f.WellFormed) (hy : 0 ≤ (start now).date.year) {m : Moment}
    (hm : f.IsTrigger now.offset m) (hbefore : now.before m) (hnot : ¬ f.PassedOver now m) :
    ∃ k, (cron source f).nth? now k = some m := by
  by_contra hno
  have hnear (k : Nat) : ∃ a, (cron source f).nth? now k = some a ∧ a.localSeconds < m.localSeconds ∧
      now.localSeconds + k ≤ a.localSeconds := by
    induction k with
    | zero =>
      obtain ⟨a, ha, ⟨hat, habefore, -⟩, hcase⟩ :=
        eq_or_lt_of_isFirst (isFirst_next? hf hy) (fun _ h => h.1) ⟨hm, hbefore, hnot⟩
      rcases hcase with rfl | hlt
      · exact absurd ⟨0, ha⟩ hno
      · have := (Fields.before_iff hat.offset hat.nanos).1 habefore
        have := localSeconds_start now
        exact ⟨a, ha, hlt, by omega⟩
    | succ k ih =>
      obtain ⟨a, ha, hlt, hk⟩ := ih
      obtain ⟨hat, -, -⟩ := isTrigger_of_nth? hf hy ha
      obtain ⟨b, hb, ⟨hbt, hab⟩, hcase⟩ :=
        eq_or_lt_of_isFirst (hat.isFirst_next? hf) (fun _ h => h.1) ⟨hm, (hat.before_iff hm).2 hlt⟩
      have hb : (cron source f).nth? now (k + 1) = some b := Option.bind_eq_some_iff.2 ⟨a, ha, hb⟩
      rcases hcase with rfl | hlt
      · exact absurd ⟨k + 1, hb⟩ hno
      · have := (hat.before_iff hbt).1 hab
        exact ⟨b, hb, hlt, by omega⟩
  obtain ⟨a, -, hlt, hk⟩ := hnear (m.localSeconds - now.localSeconds).toNat
  omega

/-- **The next moment of a schedule is the first trigger after `now` just if no trigger is passed over.** Repeated use
lists the triggers after `now` that are not passed over, each once and in order. -/
theorem next?_isNext_iff {text : String} (h : parse text = .ok (cron source f)) (hv : now.IsValid)
    (hy : 0 ≤ now.date.year) :
    (f.IsNext now ((cron source f).next? now) ↔ ∀ m, f.IsTrigger now.offset m → ¬ f.PassedOver now m) ∧
    (∀ m, (∃ k, (cron source f).nth? now k = some m) ↔
      f.IsTrigger now.offset m ∧ now.before m ∧ ¬ f.PassedOver now m) ∧
    ∀ j k a b, j < k → (cron source f).nth? now j = some a → (cron source f).nth? now k = some b → a.before b := by
  obtain ⟨s, hs⟩ := exists_of_parse h
  have hf := wellFormed_of_parse? hs
  have hstart := start_year_nonneg hv hy
  refine ⟨isNext_next?_iff hf hstart, fun m => ⟨?_, ?_⟩, fun j k a b hjk ha hb => ?_⟩
  · intro h
    obtain ⟨k, hk⟩ := h
    exact isTrigger_of_nth? hf hstart hk
  · intro h
    obtain ⟨hm, hbefore, hnot⟩ := h
    exact exists_nth?_eq hf hstart hm hbefore hnot
  · obtain ⟨hat, -, -⟩ := isTrigger_of_nth? hf hstart ha
    obtain ⟨hbt, -, -⟩ := isTrigger_of_nth? hf hstart hb
    exact (hat.before_iff hbt).2 (nth?_lt hf hstart hjk ha hb)

/-- in the last second of the year before, the first of January is found -/
theorem next?_isNext_newYear :
    parse "0 0 0 1 1 * 2027" = .ok (.cron "0 0 0 1 1 * 2027" ⟨[0], [0], [0], [1], [1], [1, 2, 3, 4, 5, 6, 7], [2027]⟩) ∧
    Moment.IsValid ⟨⟨2026, 12, 31⟩, ⟨23, 59, 59⟩, 0, 0⟩ ∧ (0 : Int) ≤ 2026 ∧
    Fields.IsNext ⟨[0], [0], [0], [1], [1], [1, 2, 3, 4, 5, 6, 7], [2027]⟩ ⟨⟨2026, 12, 31⟩, ⟨23, 59, 59⟩, 0, 0⟩
      (some ⟨⟨2027, 1, 1⟩, .midnight, 0, 0⟩) := by
  have hparse : parse "0 0 0 1 1 * 2027" =
      .ok (.cron "0 0 0 1 1 * 2027" ⟨[0], [0], [0], [1], [1], [1, 2, 3, 4, 5, 6, 7], [2027]⟩) := by decide +kernel
  have hvalid : Moment.IsValid ⟨⟨2026, 12, 31⟩, ⟨23, 59, 59⟩, 0, 0⟩ := ⟨by decide, by decide, by decide, by decide⟩
  have hyear : (0 : Int) ≤ 2026 := by decide
  have hstart : (2027 : Int) = (start ⟨⟨2026, 12, 31⟩, ⟨23, 59, 59⟩, 0, 0⟩).date.year := by decide +kernel
  refine ⟨hparse, hvalid, hyear, ?_⟩
  exact (next?_isNext_iff hparse hvalid hyear).1.2 fun m _ => not_passedOver_of_mem_years List.mem_cons_self hstart

/-- in October, the first of January is passed over: the floor of October is spent in the new year -/
theorem next?_newYear_eq_none :
    parse "0 0 0 1 1 * 2027" = .ok (.cron "0 0 0 1 1 * 2027" ⟨[0], [0], [0], [1], [1], [1, 2, 3, 4, 5, 6, 7], [2027]⟩) ∧
    Moment.IsValid ⟨⟨2026, 10, 18⟩, ⟨10, 0, 0⟩, 0, 0⟩ ∧
    (cron "0 0 0 1 1 * 2027" ⟨[0], [0], [0], [1], [1], [1, 2, 3, 4, 5, 6, 7], [2027]⟩).next?
      ⟨⟨2026, 10, 18⟩, ⟨10, 0, 0⟩, 0, 0⟩ = none ∧
    Fields.IsTrigger ⟨[0], [0], [0], [1], [1], [1, 2, 3, 4, 5, 6, 7], [2027]⟩ 0 ⟨⟨2027, 1, 1⟩, .midnight, 0, 0⟩ ∧
    Moment.before ⟨⟨2026, 10, 18⟩, ⟨10, 0, 0⟩, 0, 0⟩ ⟨⟨2027, 1, 1⟩, .midnight, 0, 0⟩ ∧
    ¬ Fields.IsNext ⟨[0], [0], [0], [1], [1], [1, 2, 3, 4, 5, 6, 7], [2027]⟩ ⟨⟨2026, 10, 18⟩, ⟨10, 0, 0⟩, 0, 0⟩
      none := by
  have htrigger : Fields.IsTrigger ⟨[0], [0], [0], [1], [1], [1, 2, 3, 4, 5, 6, 7], [2027]⟩ 0
      ⟨⟨2027, 1, 1⟩, .midnight, 0, 0⟩ := ⟨⟨by decide, by decide, by decide, by decide⟩, by decide +kernel, rfl, rfl⟩
  have hbefore : Moment.before ⟨⟨2026, 10, 18⟩, ⟨10, 0, 0⟩, 0, 0⟩ ⟨⟨2027, 1, 1⟩, .midnight, 0, 0⟩ := by decide +kernel
  exact ⟨by decide +kernel, ⟨by decide, by decide, by decide, by decide⟩, by decide +kernel, htrigger, hbefore,
    fun hnone => hnone _ htrigger hbefore⟩

end SheetPost.Schedule
