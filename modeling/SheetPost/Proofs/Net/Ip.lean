/-
IPv6 addresses, read and written. An address is written with `::` for one run of zeros at most, so the groups around it
say where the zeros go and how many they are.

Main statements: an address that was read has eight groups of sixteen bits, and its text no foreign character
(`of_readIpv6?`); the shortest text of such groups is read back (`readIpv6?_writeIpv6`).
-/
import Mathlib.Data.List.Basic
import SheetPost.Net.Ip
import SheetPost.Proofs.Text.Numeral
import SheetPost.Proofs.Text.Search
import SheetPost.Proofs.Text.Words

namespace SheetPost.Net

open SheetPost.Text

/-- a character that addresses are written with -/
def isAddressChar (c : Char) : Bool := (digitValue? 16 c).isSome || c == ':' || c == '.'

/-- groups of sixteen bits -/
def AreGroups (gs : Groups) : Prop := ∀ g ∈ gs, g < 65536

/-! ## What is read -/

theorem isAddressChar_of_digit {base : Nat} (hbase : base ≤ 16) {c : Char} (h : (digitValue? base c).isSome = true) :
    isAddressChar c = true := by
  rw [isAddressChar, isSome_digitValue?_mono hbase h]
  rfl

theorem lt_of_isAddressChar {c : Char} (h : isAddressChar c = true) : 0x20 < c.toNat := by
  rw [isAddressChar, Bool.or_eq_true, Bool.or_eq_true, beq_iff_eq, beq_iff_eq] at h
  rcases h with (h | rfl) | rfl
  · simp only [digitValue?, Option.isSome_ite] at h
    split_ifs at h <;> omega
  · decide
  · decide

theorem readGroup?_lt {s : List Char} {g : Nat} (h : readGroup? s = some g) : g < 65536 := by
  unfold readGroup? at h
  split at h
  · cases h
  · next hlength =>
    unfold readDigits? at h
    split at h
    · cases h
    · calc g < (0 + 1) * 16 ^ s.length := readDigitsFrom?_lt h
        _ ≤ 16 ^ 4 := by
          rw [Nat.zero_add, Nat.one_mul]
          exact Nat.pow_le_pow_right (by decide) (Nat.not_lt.1 hlength)

theorem isAddressChar_of_readGroup? {s : List Char} {g : Nat} (h : readGroup? s = some g) :
    ∀ c ∈ s, isAddressChar c = true := by
  unfold readGroup? at h
  split at h
  · cases h
  · exact fun c hc => isAddressChar_of_digit (by decide) (isSome_digitValue?_of_readDigits? h c hc)

theorem of_readOctet? {s : List Char} {n : Nat} (h : readOctet? s = some n) :
    (∀ c ∈ s, isAddressChar c = true) ∧ n ≤ 255 := by
  unfold readOctet? at h
  split at h
  · cases h
  · obtain ⟨hread, hle⟩ := Option.filter_eq_some_iff.1 h
    exact ⟨fun c hc => isAddressChar_of_digit (by decide) (isSome_digitValue?_of_readDigits? hread c hc),
      of_decide_eq_true hle⟩

theorem of_readIpv4? {s : List Char} {octets : List Nat} (h : readIpv4? s = some octets) :
    (∀ c ∈ s, isAddressChar c = true) ∧ ∀ n ∈ octets, n ≤ 255 := by
  unfold readIpv4? at h
  simp only at h
  split at h
  · obtain ⟨hparts, hoctets⟩ := exists_of_mapM h
    constructor
    · intro c hc
      rw [← join_split '.' s] at hc
      rcases mem_join hc with hc | ⟨part, hpart, hc⟩
      · rw [List.mem_singleton.1 hc]
        rfl
      · obtain ⟨n, -, hn⟩ := hparts part hpart
        exact (of_readOctet? hn).1 c hc
    · intro n hn
      obtain ⟨part, -, hpart⟩ := hoctets n hn
      exact (of_readOctet? hpart).2
  · cases h

/-- groups as they stand in a text: none of its characters is foreign to addresses, and the groups are of sixteen bits -/
structure StandIn (gs : Groups) (s : List Char) : Prop where
  chars : ∀ c ∈ s, isAddressChar c = true
  groups : AreGroups gs

theorem of_readGroups? {withIpv4 : Bool} {parts : List (List Char)} {gs : Groups}
    (h : readGroups? withIpv4 parts = some gs) : StandIn gs parts.flatten := by
  fun_induction readGroups? withIpv4 parts generalizing gs with
  | case1 =>
    cases h
    exact ⟨List.forall_mem_nil _, List.forall_mem_nil _⟩
  | case2 s hdot a b c d hread =>
    cases h
    obtain ⟨hchars, hoctets⟩ := of_readIpv4? hread
    refine ⟨by simpa using hchars, ?_⟩
    intro g hg
    have ha := hoctets a (by simp)
    have hb := hoctets b (by simp)
    have hc := hoctets c (by simp)
    have hd := hoctets d (by simp)
    simp only [List.mem_cons, List.not_mem_nil, or_false] at hg
    omega
  | case3 s hdot hread => cases h
  | case4 s hdot =>
    obtain ⟨g, hg, rfl⟩ := Option.map_eq_some_iff.1 h
    exact ⟨by simpa using isAddressChar_of_readGroup? hg, List.forall_mem_singleton.2 (readGroup?_lt hg)⟩
  | case5 s r hr g gs' hgs hg ih =>
    cases h
    have ih := ih hgs
    refine ⟨?_, List.forall_mem_cons.2 ⟨readGroup?_lt hg, ih.groups⟩⟩
    intro c hc
    rcases List.mem_append.1 hc with hc | hc
    · exact isAddressChar_of_readGroup? hg c hc
    · exact ih.chars c hc
  | case6 => cases h

theorem of_readSide? {withIpv4 : Bool} {s : List Char} {gs : Groups} (h : readSide? withIpv4 s = some gs) :
    StandIn gs s := by
  unfold readSide? at h
  split at h
  · next hempty =>
    cases h
    rw [List.isEmpty_iff.1 hempty]
    exact ⟨List.forall_mem_nil _, List.forall_mem_nil _⟩
  · have hread := of_readGroups? h
    refine ⟨fun c hc => ?_, hread.groups⟩
    rw [← join_split ':' s] at hc
    rcases mem_join hc with hc | ⟨part, hpart, hc⟩
    · rw [List.mem_singleton.1 hc]
      rfl
    · exact hread.chars c (List.mem_flatten.2 ⟨part, hpart, hc⟩)

theorem cutAtDoubleColon_eq_some {s a b : List Char} (h : cutAtDoubleColon s = some (a, b)) :
    s = a ++ ':' :: ':' :: b := by
  fun_induction cutAtDoubleColon s generalizing a with
  | case1 r =>
    cases h
    rfl
  | case2 c r hno ih =>
    obtain ⟨⟨a', b'⟩, hr, he⟩ := Option.map_eq_some_iff.1 h
    cases he
    rw [ih hr, List.cons_append]
  | case3 => cases h

/-- **An address that was read** has eight groups of sixteen bits, in a text without foreign characters -/
theorem of_readIpv6? {s : List Char} {gs : Groups} (h : readIpv6? s = some gs) : StandIn gs s ∧ gs.length = 8 := by
  unfold readIpv6? at h
  split at h
  · obtain ⟨hread, hlength⟩ := Option.filter_eq_some_iff.1 h
    exact ⟨of_readSide? hread, of_decide_eq_true hlength⟩
  · next a b hcut =>
    split at h
    · next head tail hhead htail =>
      split at h
      · next hle =>
        cases h
        have hhead := of_readSide? hhead
        have htail := of_readSide? htail
        refine ⟨⟨fun c hc => ?_, fun g hg => ?_⟩, ?_⟩
        · rw [cutAtDoubleColon_eq_some hcut, List.mem_append, List.mem_cons, List.mem_cons] at hc
          rcases hc with hc | rfl | rfl | hc
          · exact hhead.chars c hc
          · rfl
          · rfl
          · exact htail.chars c hc
        · rw [List.mem_append, List.mem_append, List.mem_replicate] at hg
          rcases hg with hg | ⟨-, rfl⟩ | hg
          · exact hhead.groups g hg
          · decide
          · exact htail.groups g hg
        · simp only [List.length_append, List.length_replicate]
          omega
      · cases h
    · cases h

/-! ## What is written -/

theorem not_mem_toDigits {c : Char} (hc : digitValue? 16 c = none) (n : Nat) : c ∉ Nat.toDigits 16 n := by
  intro h
  have hdigit := isSome_digitValue?_of_readDigits? (readDigits?_toDigits (by decide) (by decide) n) c h
  rw [hc] at hdigit
  cases hdigit

theorem readGroup?_toDigits {g : Nat} (h : g < 65536) : readGroup? (Nat.toDigits 16 g) = some g := by
  have hlength : (Nat.toDigits 16 g).length ≤ 4 := (Nat.length_toDigits_le_iff (by decide) (by decide)).2 h
  rw [readGroup?, if_neg (Nat.not_lt.2 hlength), readDigits?_toDigits (by decide) (by decide)]

theorem readGroups?_toDigits (withIpv4 : Bool) {gs : Groups} (h : AreGroups gs) :
    readGroups? withIpv4 (gs.map (Nat.toDigits 16)) = some gs := by
  induction gs with
  | nil => rfl
  | cons g gs ih =>
    have hg := readGroup?_toDigits (h g List.mem_cons_self)
    have ih := ih fun k hk => h k (List.mem_cons_of_mem g hk)
    cases gs with
    | nil =>
      have hdot : (Nat.toDigits 16 g).contains '.' = false := by simpa using not_mem_toDigits rfl g
      rw [List.map_cons, List.map_nil, readGroups?, hdot, Bool.and_false, if_neg Bool.false_ne_true, hg]
      rfl
    | cons k gs =>
      rw [List.map_cons, readGroups?, hg, ih]
      simp

/-- written groups begin with a digit -/
theorem exists_writeGroups_cons (g : Nat) (gs : Groups) : ∃ c t, writeGroups (g :: gs) = c :: t ∧ c ≠ ':' := by
  obtain ⟨c, t, ht⟩ := List.exists_cons_of_ne_nil (Nat.toDigits_ne_nil (n := g) (b := 16))
  have hc : c ≠ ':' := by
    intro heq
    refine not_mem_toDigits (c := ':') rfl g ?_
    rw [ht, heq]
    exact List.mem_cons_self
  cases gs with
  | nil => exact ⟨c, t, ht, hc⟩
  | cons k gs => exact ⟨c, t ++ ':' :: writeGroups (k :: gs), by simp [writeGroups, join, ht], hc⟩

theorem readSide?_writeGroups (withIpv4 : Bool) {gs : Groups} (h : AreGroups gs) :
    readSide? withIpv4 (writeGroups gs) = some gs := by
  unfold readSide?
  split
  · next hempty =>
    cases gs with
    | nil => rfl
    | cons g gs =>
      obtain ⟨c, t, ht, -⟩ := exists_writeGroups_cons g gs
      rw [ht] at hempty
      cases hempty
  · next hfull =>
    have hne : gs.map (Nat.toDigits 16) ≠ [] := by
      intro hnil
      rw [List.map_eq_nil_iff.1 hnil] at hfull
      exact hfull rfl
    rw [writeGroups, split_join hne, readGroups?_toDigits withIpv4 h]
    intro t ht
    obtain ⟨g, -, rfl⟩ := List.mem_map.1 ht
    exact not_mem_toDigits rfl g

theorem cutAtDoubleColon_append {t : List Char} (ht : ':' ∉ t) (s : List Char) :
    cutAtDoubleColon (t ++ s) = (cutAtDoubleColon s).map fun (a, b) => (t ++ a, b) := by
  induction t with
  | nil => simp
  | cons c t ih =>
    rw [List.mem_cons, not_or] at ht
    rw [List.cons_append, cutAtDoubleColon, ih ht.2, Option.map_map]
    · rfl
    · intro r h
      exact absurd h.symm ht.1

/-- no colons stand side by side in written groups, nor over the end of them -/
theorem cutAtDoubleColon_writeGroups (gs : Groups) (s : List Char) :
    cutAtDoubleColon (writeGroups gs ++ s) = (cutAtDoubleColon s).map fun (a, b) => (writeGroups gs ++ a, b) := by
  induction gs with
  | nil => simp [writeGroups, join]
  | cons g gs ih =>
    cases gs with
    | nil => exact cutAtDoubleColon_append (not_mem_toDigits rfl g) s
    | cons k gs =>
      have hwrite : writeGroups (g :: k :: gs) = Nat.toDigits 16 g ++ ':' :: writeGroups (k :: gs) := by
        simp [writeGroups, join]
      obtain ⟨c, t, ht, hc⟩ := exists_writeGroups_cons k gs
      have hcolon : cutAtDoubleColon (':' :: (writeGroups (k :: gs) ++ s)) =
          (cutAtDoubleColon (writeGroups (k :: gs) ++ s)).map fun (a, b) => (':' :: a, b) := by
        rw [ht, List.cons_append, cutAtDoubleColon]
        intro r _ h
        exact hc (List.cons.inj h).1
      rw [hwrite, List.append_assoc, List.cons_append, cutAtDoubleColon_append (not_mem_toDigits rfl g), hcolon, ih,
        Option.map_map, Option.map_map]
      refine congrArg (Option.map · (cutAtDoubleColon s)) (funext fun p => ?_)
      simp

/-! ## Runs of zeros -/

/-- a run of zeros stands where it is said to, and is not a single group -/
theorem zeroRun_spec {gs : Groups} {i n : Nat} (h : zeroRun gs = some (i, n)) :
    n = leadingZeros (gs.drop i) ∧ 2 ≤ n := by
  -- the best run so far is a run, whatever it is compared with
  have hfold (is : List Nat) (best : Option (Nat × Nat))
      (hbest : ∀ i n, best = some (i, n) → n = leadingZeros (gs.drop i) ∧ 2 ≤ n) :
      ∀ i n, is.foldl (fun best i =>
        let n := leadingZeros (gs.drop i)
        if n ≥ 2 && (best.map (·.2)).getD 1 < n then some (i, n) else best) best = some (i, n) →
        n = leadingZeros (gs.drop i) ∧ 2 ≤ n := by
    induction is generalizing best with
    | nil => exact hbest
    | cons j is ih =>
      rw [List.foldl_cons]
      refine ih _ fun i n h => ?_
      simp only at h
      split at h
      · next hlong =>
        cases h
        rw [Bool.and_eq_true, decide_eq_true_eq] at hlong
        exact ⟨rfl, hlong.1⟩
      · exact hbest i n h
  exact hfold _ none (fun _ _ h => by cases h) i n h

theorem drop_eq_of_leadingZeros (gs : Groups) (i : Nat) :
    gs.drop i = List.replicate (leadingZeros (gs.drop i)) 0 ++ gs.drop (i + leadingZeros (gs.drop i)) := by
  have hzeros : (gs.drop i).takeWhile (· == 0) = List.replicate (leadingZeros (gs.drop i)) 0 := by
    refine List.eq_replicate_iff.2 ⟨rfl, fun g hg => ?_⟩
    simpa using List.mem_takeWhile_imp hg
  have hrest : gs.drop (i + leadingZeros (gs.drop i)) = (gs.drop i).dropWhile (· == 0) := by
    have hdrop := @List.drop_left _ ((gs.drop i).takeWhile (· == 0)) ((gs.drop i).dropWhile (· == 0))
    rwa [List.takeWhile_append_dropWhile, List.drop_drop] at hdrop
  rw [hrest, ← hzeros, List.takeWhile_append_dropWhile]

/-- **The shortest text of an address is read back** -/
theorem readIpv6?_writeIpv6 {gs : Groups} (h : AreGroups gs) (hlength : gs.length = 8) :
    readIpv6? (writeIpv6 gs) = some gs := by
  unfold writeIpv6
  split
  · have hcut : cutAtDoubleColon (writeGroups gs) = none := by
      have := cutAtDoubleColon_writeGroups gs []
      rwa [List.append_nil] at this
    rw [readIpv6?, hcut, readSide?_writeGroups true h]
    simp [hlength]
  · next i n hrun =>
    obtain ⟨hn, hlong⟩ := zeroRun_spec hrun
    have hcut : cutAtDoubleColon (writeGroups (gs.take i) ++ ':' :: ':' :: writeGroups (gs.drop (i + n))) =
        some (writeGroups (gs.take i), writeGroups (gs.drop (i + n))) := by
      rw [cutAtDoubleColon_writeGroups, cutAtDoubleColon, Option.map_some]
      simp only [List.append_nil]
    have hzeros : gs.drop i = List.replicate n 0 ++ gs.drop (i + n) := by
      rw [hn]
      exact drop_eq_of_leadingZeros gs i
    have hcount := congrArg List.length hzeros
    rw [List.length_append, List.length_replicate, List.length_drop, List.length_drop, hlength] at hcount
    rw [readIpv6?, hcut]
    simp only
    rw [readSide?_writeGroups false fun g hg => h g (List.mem_of_mem_take hg),
      readSide?_writeGroups true fun g hg => h g (List.mem_of_mem_drop hg)]
    simp only [List.length_take, List.length_drop, hlength]
    rw [if_pos (by omega), show 8 - (min i 8 + (8 - (i + n))) = n by omega, ← hzeros, List.take_append_drop]

end SheetPost.Net
