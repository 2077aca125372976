/-! Quotients of natural numbers to the nearest integer. Of two integers that are equally near the even one is
taken. -/

namespace ChartGrammar

/-- The integer nearest to `num / den`; a half goes to the even neighbour. -/
def roundHalfEven (num den : Nat) : Nat :=
  let above := 2 * (num % den)
  num / den + (if above < den then 0 else if den < above then 1 else num / den % 2)

/-- The nearest integer is at most half a unit away. -/
theorem roundHalfEven_near {num den : Nat} (positive : 0 < den) :
    2 * (roundHalfEven num den * den) ≤ 2 * num + den ∧ 2 * num ≤ 2 * (roundHalfEven num den * den) + den := by
  have split := Nat.div_add_mod' num den
  have short := Nat.mod_lt num positive
  simp only [roundHalfEven, Nat.add_mul]
  split
  · omega
  · split
    · omega
    · rcases Nat.mod_two_eq_zero_or_one (num / den) with even | odd
      · rw [even]; omega
      · rw [odd]; omega

/-- Halfway between two integers the nearest one is even. -/
theorem roundHalfEven_half {num den : Nat} (half : 2 * (num % den) = den) : roundHalfEven num den % 2 = 0 := by
  simp only [roundHalfEven, half, Nat.lt_irrefl, if_false]
  omega

end ChartGrammar
