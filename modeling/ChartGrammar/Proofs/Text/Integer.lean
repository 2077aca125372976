import ChartGrammar.Number.Shortest
import ChartGrammar.Text.Integer
import Mathlib.Algebra.Group.Nat.Defs
import Mathlib.Data.Option.Basic

/-! Integers written and read. An integer is written in decimal digits after its sign and is read back from them, as
long as there are no more digits than are read; and no number that is read needs more digits than that, whatever
script, zeros and underscores it was written with. -/

namespace ChartGrammar

/-- The digits of an integer, after its sign. -/
theorem Number.toList_text_whole (n : Int) : (Number.whole n).text.toList =
    if 0 ≤ n then Nat.toDigits 10 n.toNat else '-' :: Nat.toDigits 10 (-n).toNat := by
  rw [Number.text, Int.toString_eq_repr, Int.repr_eq_if]
  split <;> simp [Nat.repr]

namespace Text

variable {c : Char} {cs : List Char} {d n : Nat} {ds : List Nat}

/-! ### Digits -/

/-- The digits of ASCII come before those of all other scripts. -/
theorem decimalDigit?_of_isDigit (h : c.isDigit = true) : decimalDigit? c = some (c.toNat - '0'.toNat) := by
  have hrange : 0x30 ≤ c.toNat ∧ c.toNat < 0x30 + 10 := by
    simp only [Char.isDigit, Bool.and_eq_true, decide_eq_true_eq, ge_iff_le, UInt32.le_iff_toNat_le] at h
    exact ⟨h.1, Nat.lt_succ_of_le h.2⟩
  rw [decimalDigit?, digitZeros, List.find?_cons_of_pos (by simpa using hrange)]
  rfl

/-- Before the digits of other scripts there are only the ten digits. -/
theorem decimalDigit?_eq_none (hlow : c.toNat < 0x660) (hdigit : ¬(0x30 ≤ c.toNat ∧ c.toNat ≤ 0x39)) :
    decimalDigit? c = none := by
  have hzeros : ∀ z ∈ digitZeros, z = 0x30 ∨ 0x660 ≤ z := by decide
  rw [decimalDigit?, Option.map_eq_none_iff, List.find?_eq_none]
  intro z hz
  simp only [Bool.and_eq_true, decide_eq_true_eq]
  have hz := hzeros z hz
  omega

theorem lt_of_decimalDigit? (h : decimalDigit? c = some d) : d < 10 := by
  obtain ⟨first, hfind, rfl⟩ := Option.map_eq_some_iff.mp h
  have hrange : first ≤ c.toNat ∧ c.toNat < first + 10 := by simpa using List.find?_some hfind
  omega

/-- A run of ASCII digits holds the values of the digits. -/
theorem digitRun?_of_digits (hne : cs ≠ []) (h : ∀ c ∈ cs, c.isDigit = true) :
    digitRun? cs = some (cs.map fun c => c.toNat - '0'.toNat) := by
  induction cs using digitRun?.induct with
  | case1 => exact absurd rfl hne
  | case2 c =>
      rw [digitRun?, decimalDigit?_of_isDigit (h c List.mem_cons_self)]
      rfl
  | case3 c rest _ =>
      -- An underscore is no digit.
      exact absurd (h '_' (List.mem_cons_of_mem c List.mem_cons_self)) (by decide)
  | case4 c rest hone hunderscore ih =>
      rw [List.forall_mem_cons] at h
      rw [digitRun?.eq_4 c rest hone hunderscore, decimalDigit?_of_isDigit h.1, ih hone h.2]
      rfl

theorem lt_of_mem_digitRun? (h : digitRun? cs = some ds) : ∀ d ∈ ds, d < 10 := by
  induction cs using digitRun?.induct generalizing ds with
  | case1 => cases h
  | case2 c =>
      obtain ⟨d, hd, rfl⟩ := Option.map_eq_some_iff.mp h
      exact List.forall_mem_singleton.mpr (lt_of_decimalDigit? hd)
  | case3 c rest ih =>
      rw [digitRun?] at h
      obtain ⟨d, hd, h⟩ := Option.bind_eq_some_iff.mp h
      obtain ⟨others, hothers, h⟩ := Option.bind_eq_some_iff.mp h
      cases h
      exact List.forall_mem_cons.mpr ⟨lt_of_decimalDigit? hd, ih hothers⟩
  | case4 c rest hone hunderscore ih =>
      rw [digitRun?.eq_4 c rest hone hunderscore] at h
      obtain ⟨d, hd, h⟩ := Option.bind_eq_some_iff.mp h
      obtain ⟨others, hothers, h⟩ := Option.bind_eq_some_iff.mp h
      cases h
      exact List.forall_mem_cons.mpr ⟨lt_of_decimalDigit? hd, ih hothers⟩

/-! ### Numbers -/

/-- The number that some digits write, the first digit first. -/
theorem foldl_digits_lt (h : ∀ d ∈ ds, d < 10) (start : Nat) :
    ds.foldl (fun n d => 10 * n + d) start < (start + 1) * 10 ^ ds.length := by
  induction ds generalizing start with
  | nil => simp
  | cons d ds ih =>
      rw [List.forall_mem_cons] at h
      calc (d :: ds).foldl (fun n d => 10 * n + d) start
        _ < (10 * start + d + 1) * 10 ^ ds.length := ih h.2 (10 * start + d)
        _ ≤ ((start + 1) * 10) * 10 ^ ds.length := Nat.mul_le_mul_right _ (by omega)
        _ = (start + 1) * 10 ^ (d :: ds).length := by rw [List.length_cons, Nat.pow_succ, Nat.mul_assoc, Nat.mul_comm 10]

/-- A number that is read takes no more digits than are read at most. -/
theorem length_toDigits_of_natural? (h : natural? cs = some n) : (Nat.toDigits 10 n).length ≤ maxDigits := by
  rw [natural?] at h
  obtain ⟨ds, hds, h⟩ := Option.bind_eq_some_iff.mp h
  obtain ⟨_, hguard, h⟩ := Option.bind_eq_some_iff.mp h
  cases h
  have hlength : ds.length ≤ maxDigits := (Option.guard_eq_some' _).mp hguard
  have hlt := foldl_digits_lt (lt_of_mem_digitRun? hds) 0
  rw [Nat.zero_add, Nat.one_mul] at hlt
  refine (Nat.length_toDigits_le_iff (by decide) (by decide)).mpr (Nat.lt_of_lt_of_le hlt ?_)
  exact Nat.pow_le_pow_right (by decide) hlength

/-- The decimal digits of a number are read as the number. -/
theorem natural?_toDigits (h : (Nat.toDigits 10 n).length ≤ maxDigits) : natural? (Nat.toDigits 10 n) = some n := by
  have hdigits : ∀ c ∈ Nat.toDigits 10 n, c.isDigit = true :=
    fun c hc => Nat.isDigit_of_mem_toDigits (by decide) (by decide) hc
  have hvalue : ((Nat.toDigits 10 n).map fun c => c.toNat - '0'.toNat).foldl (fun n d => 10 * n + d) 0 = n := by
    rw [List.foldl_map, ← Nat.ofDigitChars_eq_foldl, Nat.ofDigitChars_ten_toDigits]
  rw [natural?, digitRun?_of_digits Nat.toDigits_ne_nil hdigits]
  simp only [Option.bind_eq_bind, Option.bind_some, List.length_map, hvalue, (Option.guard_eq_some' ()).mpr h]
  rfl

/-- Nothing is dropped from the ends of a text of which no character is to be dropped. -/
theorem dropEnds_eq_self {p : Char → Bool} (h : ∀ c ∈ cs, p c = false) : dropEnds p cs = cs := by
  have hstart {cs : List Char} (h : ∀ c ∈ cs, p c = false) : cs.dropWhile p = cs :=
    dropWhile_eq_self fun c hc => h c (List.mem_of_mem_head? hc)
  rw [dropEnds, hstart h, hstart fun c hc => h c (List.mem_reverse.mp hc), List.reverse_reverse]

/-- An integer is read back from its text, if it has no more digits than are read. -/
theorem integer?_text {n : Int} (h : (Nat.toDigits 10 n.natAbs).length ≤ maxDigits) :
    integer? (Number.whole n).text = some n := by
  have hdigit {m : Nat} {c : Char} (hc : c ∈ Nat.toDigits 10 m) : c.isDigit = true :=
    Nat.isDigit_of_mem_toDigits (by decide) (by decide) hc
  -- Neither a digit nor the sign is a blank.
  have hblank {m : Nat} : ∀ c ∈ '-' :: Nat.toDigits 10 m, isIntegerBlank c = false := by
    rw [List.forall_mem_cons]
    refine ⟨by decide, fun c hc => ?_⟩
    have hrange := hdigit hc
    simp only [Char.isDigit, Bool.and_eq_true, decide_eq_true_eq, ge_iff_le, UInt32.le_iff_toNat_le] at hrange
    have hrange : 0x30 ≤ c.toNat ∧ c.toNat ≤ 0x39 := hrange
    simp [isIntegerBlank, isBlank]
    omega
  rw [integer?, Number.toList_text_whole]
  by_cases hn : 0 ≤ n
  · rw [if_pos hn]
    obtain ⟨m, rfl⟩ := Int.eq_ofNat_of_zero_le hn
    rw [Int.natAbs_natCast] at h
    rw [Int.toNat_natCast, dropEnds_eq_self fun c hc => hblank c (List.mem_cons_of_mem _ hc)]
    have hsign {sign : Char} (hsign : sign.isDigit = false) : ∀ rest, Nat.toDigits 10 m ≠ sign :: rest := by
      intro rest heq
      have hmem : sign ∈ Nat.toDigits 10 m := heq ▸ List.mem_cons_self
      rw [hdigit hmem] at hsign
      cases hsign
    split
    · next heq => exact absurd heq (hsign (by decide) _)
    · next heq => exact absurd heq (hsign (by decide) _)
    · rw [natural?_toDigits h, Option.map_some]
      rfl
  · rw [if_neg hn, dropEnds_eq_self hblank]
    have habs : (-n).toNat = n.natAbs := by omega
    simp only [habs, natural?_toDigits h, Option.map_some, Option.some.injEq, Int.ofNat_eq_natCast]
    omega

/-- A character that can stand in the text of an integer: a digit of any script, a sign, an underscore, or a blank. -/
def IsNumeral (c : Char) : Prop :=
  (decimalDigit? c).isSome = true ∨ c ∈ ['+', '-', '_'] ∨ isIntegerBlank c = true

theorem isNumeral_of_mem_digitRun (h : digitRun? cs = some ds) : ∀ c ∈ cs, IsNumeral c := by
  induction cs using digitRun?.induct generalizing ds with
  | case1 => cases h
  | case2 c =>
      obtain ⟨d, hd, rfl⟩ := Option.map_eq_some_iff.mp h
      exact List.forall_mem_singleton.mpr (.inl (by rw [hd]; rfl))
  | case3 c rest ih =>
      rw [digitRun?] at h
      obtain ⟨d, hd, h⟩ := Option.bind_eq_some_iff.mp h
      obtain ⟨others, hothers, -⟩ := Option.bind_eq_some_iff.mp h
      rw [List.forall_mem_cons, List.forall_mem_cons]
      exact ⟨.inl (by rw [hd]; rfl), .inr (.inl (by decide)), ih hothers⟩
  | case4 c rest hone hunderscore ih =>
      rw [digitRun?.eq_4 c rest hone hunderscore] at h
      obtain ⟨d, hd, h⟩ := Option.bind_eq_some_iff.mp h
      obtain ⟨others, hothers, -⟩ := Option.bind_eq_some_iff.mp h
      exact List.forall_mem_cons.mpr ⟨.inl (by rw [hd]; rfl), ih hothers⟩

theorem isNumeral_of_mem_natural (h : natural? cs = some n) : ∀ c ∈ cs, IsNumeral c := by
  rw [natural?] at h
  obtain ⟨ds, hds, -⟩ := Option.bind_eq_some_iff.mp h
  exact isNumeral_of_mem_digitRun hds

/-- Only what is to be dropped is dropped from the ends. -/
theorem mem_dropEnds_or {p : Char → Bool} (h : c ∈ cs) : c ∈ dropEnds p cs ∨ p c = true := by
  have hone {cs : List Char} (h : c ∈ cs) : c ∈ cs.dropWhile p ∨ p c = true := by
    rw [← List.takeWhile_append_dropWhile (p := p) (l := cs), List.mem_append] at h
    exact h.symm.imp_right fun hstart => List.all_eq_true.mp List.all_takeWhile c hstart
  rcases hone h with hstart | hp
  · rw [dropEnds, List.mem_reverse]
    exact hone (List.mem_reverse.mpr hstart)
  · exact .inr hp

/-- A text that is read as an integer has no other characters than those of integers. -/
theorem isNumeral_of_mem_integer {s : String} {m : Int} (h : integer? s = some m) : ∀ c ∈ s.toList, IsNumeral c := by
  have hinner : ∀ c ∈ dropEnds isIntegerBlank s.toList, IsNumeral c := by
    unfold integer? at h
    split at h
    · next digits heq =>
        obtain ⟨k, hk, -⟩ := Option.map_eq_some_iff.mp h
        rw [heq]
        exact List.forall_mem_cons.mpr ⟨.inr (.inl (by decide)), isNumeral_of_mem_natural hk⟩
    · next digits heq =>
        obtain ⟨k, hk, -⟩ := Option.map_eq_some_iff.mp h
        rw [heq]
        exact List.forall_mem_cons.mpr ⟨.inr (.inl (by decide)), isNumeral_of_mem_natural hk⟩
    · obtain ⟨k, hk, -⟩ := Option.map_eq_some_iff.mp h
      exact isNumeral_of_mem_natural hk
  intro c hc
  exact (mem_dropEnds_or hc).elim (hinner c) fun hblank => .inr (.inr hblank)

/-- An integer that is read has no more digits than are read at most. -/
theorem length_toDigits_of_integer? {s : String} {n : Int} (h : integer? s = some n) :
    (Nat.toDigits 10 n.natAbs).length ≤ maxDigits := by
  unfold integer? at h
  split at h
  all_goals
    obtain ⟨m, hm, rfl⟩ := Option.map_eq_some_iff.mp h
    simpa using length_toDigits_of_natural? hm

end Text

end ChartGrammar
