/-
# `TextGrammar.Proofs.Number.Rounding` — what rounding keeps

To round is to take the nearest number, and that keeps the order: where two
quotients were rounded past each other, each would have been nearer to the
other's number.  Hence a number that can be written is never passed
(`le_nearest`, `nearest_le`), and everything below follows from that.

    mulNat_ofRatio     k / 2 ^ 53 times n is the quotient k * n / 2 ^ 53,
                       rounded once
    floor?_ofRatio     the integer below such a quotient after rounding

A quotient by `2 ^ 53` whose numerator has the length `l + 1` is rounded in the
unit `2 ^ (l - 105)`.  It may be rounded up to an integer, and then the integer
below it is another one than before: for `k = 6004799503160661` the quotient
`k * 3 / 2 ^ 53` is below two by less than half a unit.
-/
import TextGrammar.Proofs.Number.Binary64

namespace TextGrammar.Binary64

/-! ## The nearest integer -/

/-- The nearest integer is the one below, if that is not more than a half away,
or else the one above. -/
theorem nearest_cases (n d : Nat) :
    nearest n d = n / d ∧ 2 * (n % d) ≤ d ∨ nearest n d = n / d + 1 ∧ d ≤ 2 * (n % d) := by
  simp only [nearest]
  split
  · next hlt => exact .inl ⟨rfl, Nat.le_of_lt hlt⟩
  · next hge =>
    split
    · next hgt => exact .inr ⟨rfl, Nat.le_of_lt hgt⟩
    · next hle =>
      -- a half goes to the even one
      rcases Nat.mod_two_eq_zero_or_one (n / d) with h | h
      · exact .inl ⟨by rw [h, Nat.add_zero], Nat.le_of_not_lt hle⟩
      · exact .inr ⟨by rw [h], Nat.le_of_not_lt hge⟩

theorem two_nearest_le (n d : Nat) : 2 * (nearest n d * d) ≤ 2 * n + d := by
  have hn := Nat.div_add_mod' n d
  rcases nearest_cases n d with ⟨h, hr⟩ | ⟨h, hr⟩
  · rw [h]
    omega
  · rw [h, Nat.succ_mul (n / d)]
    omega

theorem two_mul_le_nearest {d : Nat} (hd : 0 < d) (n : Nat) :
    2 * n ≤ 2 * (nearest n d * d) + d := by
  have hn := Nat.div_add_mod' n d
  have hlt := Nat.mod_lt n hd
  rcases nearest_cases n d with ⟨h, hr⟩ | ⟨h, hr⟩
  · rw [h]
    omega
  · rw [h, Nat.succ_mul (n / d)]
    omega

/-- Rounding keeps the order. -/
theorem nearest_mono {d : Nat} (hd : 0 < d) {n n' : Nat} (h : n ≤ n') :
    nearest n d ≤ nearest n' d := by
  rcases Nat.lt_or_ge (nearest n' d) (nearest n d) with hlt | hle
  case inr => exact hle
  have hmul := Nat.mul_le_mul_right d (Nat.succ_le_of_lt hlt)
  rw [Nat.succ_mul] at hmul
  have hupper := two_nearest_le n d
  have hlower := two_mul_le_nearest hd n'
  -- each of them is half a unit from both results, so that they are the same
  have heq : n = n' := by omega
  exact Nat.le_of_eq (congrArg (nearest · d) heq)

theorem le_nearest {d m n : Nat} (hd : 0 < d) (h : m * d ≤ n) : m ≤ nearest n d := by
  rw [← nearest_mul hd m]
  exact nearest_mono hd h

theorem nearest_le {d m n : Nat} (hd : 0 < d) (h : n ≤ m * d) : nearest n d ≤ m := by
  rw [← nearest_mul hd m]
  exact nearest_mono hd h

/-- A quotient may be reduced before it is rounded. -/
theorem nearest_mul_right {c : Nat} (hc : 0 < c) (n d : Nat) :
    nearest (n * c) (d * c) = nearest n d := by
  have hlt : ∀ a b : Nat, a * c < b * c ↔ a < b := fun a b => Nat.mul_lt_mul_right hc
  simp only [nearest, Nat.mul_div_mul_right n d hc, Nat.mul_mod_mul_right, ← Nat.mul_assoc, hlt]

/-! ## Quotients by powers of two -/

theorem ofRatio_zero (s : Bool) (den : Nat) : ofRatio s 0 den = .finite s 0 minExponent :=
  if_pos rfl

theorem ratio_zero (e : Int) : (ratio (0 : Nat) e).1.natAbs = 0 := by
  rw [ratio]
  split
  · rw [Int.natCast_zero, Int.zero_mul, Int.natAbs_zero]
  · rfl

/-- A quotient is rounded as it is worth, however it is written. -/
theorem ofRatio_mul_twoPow (s : Bool) (num a j : Nat) :
    ofRatio s (num * Nat.pow 2 j) (Nat.pow 2 (a + j)) = ofRatio s num (Nat.pow 2 a) := by
  have hpos : 0 < Nat.pow 2 j := Nat.two_pow_pos j
  have hsplit : Nat.pow 2 (a + j) = Nat.pow 2 a * Nat.pow 2 j := Nat.pow_add 2 a j
  by_cases hnum : num = 0
  · rw [hnum, Nat.zero_mul, ofRatio, ofRatio]
    rfl
  have hnum' : num * Nat.pow 2 j ≠ 0 := Nat.mul_ne_zero hnum (Nat.ne_of_gt hpos)
  have hbinade : binade (num * Nat.pow 2 j) (Nat.pow 2 (a + j)) = binade num (Nat.pow 2 a) := by
    rw [binade_twoPow (Nat.pos_of_ne_zero hnum'), binade_twoPow (Nat.pos_of_ne_zero hnum),
      log2_mul_twoPow (Nat.pos_of_ne_zero hnum)]
    omega
  have hsignificand : ∀ e, significandAt e (num * Nat.pow 2 j) (Nat.pow 2 (a + j)) =
      significandAt e num (Nat.pow 2 a) := by
    intro e
    rw [significandAt, significandAt, hsplit, Nat.mul_right_comm (Nat.pow 2 a),
      Nat.mul_right_comm num, nearest_mul_right hpos, nearest_mul_right hpos]
  simp only [ofRatio, if_neg hnum, if_neg hnum', unitExponent, hbinade, hsignificand]

/-- A fraction of `2 ^ 53` is a number, and is multiplied by rounding the
product. -/
theorem mulNat_ofRatio {k : Nat} (hk : k < Nat.pow 2 53) (n : Nat) :
    (ofRatio false k (Nat.pow 2 53)).mulNat n = ofRatio false (k * n) (Nat.pow 2 53) := by
  by_cases hzero : k = 0
  · rw [hzero, Nat.zero_mul, ofRatio_zero]
    show ofRatio false (ratio (0 * n : Nat) minExponent).1.natAbs _ = _
    rw [Nat.zero_mul, ratio_zero]
    exact ofRatio_zero false _
  have hlog : k.log2 < 53 := (Nat.log2_lt hzero).mpr hk
  rw [ofRatio_exact (inForm_shift hzero hlog) (exactly_shift hlog)]
  have hneg : ¬ (0 : Int) ≤ k.log2 - 105 := by omega
  have hpow : (-((k.log2 : Int) - 105)).toNat = 53 + (52 - k.log2) := by omega
  rw [mulNat, ratio, if_neg hneg, hpow, Nat.mul_right_comm]
  exact ofRatio_mul_twoPow false (k * n) 53 (52 - k.log2)

/-! ## The integer below a rounded quotient -/

/-- The places behind the binary point that a quotient by `2 ^ 53` is rounded
to, for a numerator below `2 ^ 105`. -/
def placesOf (num : Nat) : Nat := 105 - num.log2

/-- The quotient in the unit that it is rounded in. -/
def unitsOf (num : Nat) : Nat := nearest (num * Nat.pow 2 (placesOf num)) (Nat.pow 2 53)

/-- The integer below the rounded quotient. -/
def floorOf (num : Nat) : Nat := unitsOf num / Nat.pow 2 (placesOf num)

variable {num num' : Nat}

theorem log2_le_of_lt (h : num < Nat.pow 2 105) : num.log2 ≤ 104 := by
  by_cases hzero : num = 0
  · rw [hzero]
    decide
  · exact Nat.le_of_lt_succ ((Nat.log2_lt hzero).mpr h)

theorem log2_add_placesOf (h : num < Nat.pow 2 105) : num.log2 + placesOf num = 105 := by
  have hlog := log2_le_of_lt h
  rw [placesOf]
  omega

theorem twoPow_le_scaled (hzero : num ≠ 0) (h : num < Nat.pow 2 105) :
    Nat.pow 2 105 ≤ num * Nat.pow 2 (placesOf num) := by
  have hself : Nat.pow 2 num.log2 ≤ num := Nat.log2_self_le hzero
  calc Nat.pow 2 105 = Nat.pow 2 (num.log2 + placesOf num) := by rw [log2_add_placesOf h]
    _ = Nat.pow 2 num.log2 * Nat.pow 2 (placesOf num) := Nat.pow_add 2 _ _
    _ ≤ num * Nat.pow 2 (placesOf num) := Nat.mul_le_mul_right _ hself

theorem scaled_le_twoPow (h : num < Nat.pow 2 105) :
    num * Nat.pow 2 (placesOf num) ≤ Nat.pow 2 106 := by
  have hnext : num ≤ Nat.pow 2 (num.log2 + 1) := Nat.le_of_lt Nat.lt_log2_self
  calc num * Nat.pow 2 (placesOf num) ≤ Nat.pow 2 (num.log2 + 1) * Nat.pow 2 (placesOf num) :=
      Nat.mul_le_mul_right _ hnext
    _ = Nat.pow 2 (num.log2 + 1 + placesOf num) := (Nat.pow_add 2 _ _).symm
    _ = Nat.pow 2 106 := by rw [Nat.add_right_comm, log2_add_placesOf h]

/-- The significand is full, or becomes full by rounding. -/
theorem unitsOf_bounds (hzero : num ≠ 0) (h : num < Nat.pow 2 105) :
    Nat.pow 2 52 ≤ unitsOf num ∧ unitsOf num ≤ Nat.pow 2 53 := by
  constructor
  · apply le_nearest (Nat.two_pow_pos 53)
    exact Nat.le_trans (Nat.le_of_eq (Nat.pow_add 2 52 53).symm) (twoPow_le_scaled hzero h)
  · apply nearest_le (Nat.two_pow_pos 53)
    exact Nat.le_trans (scaled_le_twoPow h) (Nat.le_of_eq (Nat.pow_add 2 53 53))

theorem floor?_settle (m : Nat) {places : Nat} (hpos : 1 ≤ places) :
    (settle false m (-(places : Int))).floor? = some ((m / Nat.pow 2 places : Nat) : Int) := by
  have hmax : ∀ e : Int, e ≤ 0 → ¬ maxExponent < e := by
    intro e he
    show ¬ (971 : Int) < e
    omega
  have hfloor : ∀ a b : Nat, Int.fdiv a b = ((a / b : Nat) : Int) := by
    intro a b
    rw [Int.fdiv_eq_ediv_of_nonneg _ (Int.natCast_nonneg b), Int.natCast_ediv]
  rw [settle]
  split
  · next hfull =>
    -- the significand of the next exponent is half as great
    obtain ⟨p, rfl⟩ : ∃ p, places = p + 1 := ⟨places - 1, by omega⟩
    have hhalf : m / Nat.pow 2 (p + 1) = Nat.pow 2 52 / Nat.pow 2 p := by
      rw [hfull]
      exact Nat.mul_div_mul_right _ _ (by decide)
    rw [if_neg (hmax _ (by omega)), hhalf]
    simp only [floor?, signed, ratio, Bool.false_eq_true, if_false]
    split
    · next he =>
      obtain rfl : p = 0 := by omega
      rfl
    · next he =>
      have hp : (-(-((p + 1 : Nat) : Int) + 1)).toNat = p := by omega
      rw [hp]
      exact congrArg some (hfloor _ _)
  · next hfull =>
    rw [if_neg (hmax _ (by omega))]
    have hneg : ¬ (0 : Int) ≤ -(places : Int) := by omega
    have hp : (-(-(places : Int))).toNat = places := by omega
    simp only [floor?, signed, ratio, Bool.false_eq_true, if_false, if_neg hneg, hp]
    exact congrArg some (hfloor _ _)

theorem floor?_ofRatio (h : num < Nat.pow 2 105) :
    (ofRatio false num (Nat.pow 2 53)).floor? = some (floorOf num : Int) := by
  by_cases hzero : num = 0
  · subst hzero
    rfl
  have hlog := log2_le_of_lt h
  have hplaces := log2_add_placesOf h
  have hunit : unitExponent num (Nat.pow 2 53) = -(placesOf num : Int) := by
    rw [unitExponent, binade_twoPow (Nat.pos_of_ne_zero hzero), minExponent]
    omega
  have hneg : ¬ (0 : Int) ≤ -(placesOf num : Int) := by omega
  have hto : (-(-(placesOf num : Int))).toNat = placesOf num := by omega
  have hunits : significandAt (-(placesOf num : Int)) num (Nat.pow 2 53) = unitsOf num := by
    rw [significandAt, if_neg hneg, hto, unitsOf]
  simp only [ofRatio, if_neg hzero, hunit, hunits]
  exact floor?_settle _ (by omega)

/-! ## Order of floors -/

theorem log2_mono (hzero : num ≠ 0) (h : num ≤ num') : num.log2 ≤ num'.log2 :=
  (Nat.le_log2 (by omega)).mpr (Nat.le_trans (Nat.log2_self_le hzero) h)

/-- Floors of rounded quotients are in order.  In one binade rounding keeps the
order; between two of them lies a power of two, which is not passed. -/
theorem floorOf_mono (hle : num ≤ num') (h : num' < Nat.pow 2 105) :
    floorOf num ≤ floorOf num' := by
  by_cases hzero : num = 0
  · subst hzero
    exact Nat.zero_le _
  have hzero' : num' ≠ 0 := by omega
  have hlt := Nat.lt_of_le_of_lt hle h
  have hplaces := log2_add_placesOf hlt
  have hplaces' := log2_add_placesOf h
  rcases Nat.eq_or_lt_of_le (log2_mono hzero hle) with heq | hless
  · have hsame : placesOf num' = placesOf num := by omega
    rw [floorOf, floorOf, unitsOf, unitsOf, hsame]
    exact Nat.div_le_div_right
      (nearest_mono (Nat.two_pow_pos 53) (Nat.mul_le_mul_right _ hle))
  · obtain ⟨p, hp, hp'⟩ : ∃ p, placesOf num = p + 1 ∧ placesOf num' ≤ p :=
      ⟨placesOf num - 1, by omega, by omega⟩
    have hupper := (unitsOf_bounds hzero hlt).2
    have hlower := (unitsOf_bounds hzero' h).1
    calc floorOf num ≤ Nat.pow 2 53 / Nat.pow 2 (p + 1) := by
          rw [floorOf, hp]
          exact Nat.div_le_div_right hupper
      _ = Nat.pow 2 52 / Nat.pow 2 p := Nat.mul_div_mul_right _ _ (by decide)
      _ ≤ Nat.pow 2 52 / Nat.pow 2 (placesOf num') :=
        Nat.div_le_div_left (Nat.pow_le_pow_right (by decide) hp') (Nat.two_pow_pos _)
      _ ≤ floorOf num' := Nat.div_le_div_right hlower

/-- A quotient that is less than half above an integer stays above it, and
does not reach the next one. -/
theorem floorOf_eq {i : Nat} (hle : i * Nat.pow 2 53 ≤ num)
    (hlt : num < i * Nat.pow 2 53 + Nat.pow 2 52) : floorOf num = i := by
  have hpos : 0 < Nat.pow 2 (placesOf num) := Nat.two_pow_pos _
  have hlower : i * Nat.pow 2 (placesOf num) ≤ unitsOf num := by
    apply le_nearest (Nat.two_pow_pos 53)
    rw [Nat.mul_right_comm]
    exact Nat.mul_le_mul_right _ hle
  have hupper : unitsOf num < (i + 1) * Nat.pow 2 (placesOf num) := by
    have hround : 2 * (unitsOf num * Nat.pow 2 53) ≤
        2 * (num * Nat.pow 2 (placesOf num)) + Nat.pow 2 53 :=
      two_nearest_le _ _
    have hmul : num * Nat.pow 2 (placesOf num) <
        (i * Nat.pow 2 53 + Nat.pow 2 52) * Nat.pow 2 (placesOf num) :=
      Nat.mul_lt_mul_of_pos_right hlt hpos
    rw [Nat.add_mul, Nat.mul_right_comm, Nat.mul_comm (Nat.pow 2 52)] at hmul
    rw [Nat.succ_mul]
    simp only [Nat.pow_eq] at *
    omega
  exact Nat.div_eq_of_lt_le hlower hupper

theorem mul_lt_twoPow {k n : Nat} (hk : k < Nat.pow 2 53) (hle : n ≤ Nat.pow 2 52) :
    k * n < Nat.pow 2 105 := by
  calc k * n < Nat.pow 2 53 * Nat.pow 2 52 :=
      Nat.mul_lt_mul_of_lt_of_le hk hle (Nat.two_pow_pos 52)
    _ = Nat.pow 2 105 := (Nat.pow_add 2 53 52).symm

/-- Rounding a fraction below one times `n` does not reach `n`: in units of the
quotient `n` is more than `2 ^ 52`, and the quotient is more than half a unit
below it. -/
theorem floorOf_mul_lt {k n : Nat} (hk : k < Nat.pow 2 53) (hn : 1 ≤ n)
    (hle : n ≤ Nat.pow 2 52) : floorOf (k * n) < n := by
  by_cases hzero : k * n = 0
  · rw [hzero]
    exact hn
  have hgreat := twoPow_le_scaled hzero (mul_lt_twoPow hk hle)
  have hless : k * (n * Nat.pow 2 (placesOf (k * n))) + n * Nat.pow 2 (placesOf (k * n)) ≤
      Nat.pow 2 53 * (n * Nat.pow 2 (placesOf (k * n))) := by
    rw [← Nat.succ_mul]
    exact Nat.mul_le_mul_right _ hk
  have hround : 2 * (unitsOf (k * n) * Nat.pow 2 53) ≤
      2 * (k * n * Nat.pow 2 (placesOf (k * n))) + Nat.pow 2 53 :=
    two_nearest_le _ _
  have hlt : unitsOf (k * n) < n * Nat.pow 2 (placesOf (k * n)) := by
    rw [Nat.mul_assoc k] at hround hgreat
    simp only [Nat.pow_eq] at *
    omega
  exact (Nat.div_lt_iff_lt_mul (Nat.two_pow_pos _)).mpr hlt

end TextGrammar.Binary64
