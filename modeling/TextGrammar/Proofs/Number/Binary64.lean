/-
# `TextGrammar.Proofs.Number.Binary64` — rounding what needs no rounding

A number of double precision has one form: a full significand, or the least
exponent (`InForm`).  A quotient with the value of such a number is rounded to
it (`ofRatio_exact`), for the unit in which it is rounded is the unit of the
number: the binade of a quotient by a power of two is told by the length of
its numerator.

    mulNat_one     x.mulNat 1 = x
    inUnit_draw    what a generator draws is a number of [0, 1)
-/
import TextGrammar.Number.Binary64
import TextGrammar.Random.Twister

namespace TextGrammar.Binary64

/-! ## Lengths of numbers -/

theorem log2_mul_twoPow {n : Nat} (h : 0 < n) (j : Nat) : (n * Nat.pow 2 j).log2 = n.log2 + j := by
  have hn : n ≠ 0 := Nat.ne_of_gt h
  have hpos : 0 < 2 ^ j := Nat.two_pow_pos j
  rw [Nat.pow_eq, Nat.log2_eq_iff (Nat.mul_ne_zero hn (Nat.ne_of_gt hpos))]
  constructor
  · rw [Nat.pow_add]
    exact Nat.mul_le_mul_right _ (Nat.log2_self_le hn)
  · rw [Nat.add_right_comm, Nat.pow_add]
    exact Nat.mul_lt_mul_of_pos_right Nat.lt_log2_self hpos

theorem log2_twoPow (j : Nat) : (Nat.pow 2 j).log2 = j := Nat.log2_two_pow

/-- The binade of a quotient by a power of two. -/
theorem binade_twoPow {num : Nat} (h : 0 < num) (a : Nat) :
    binade num (Nat.pow 2 a) = (num.log2 : Int) - a := by
  have hself : 2 ^ num.log2 ≤ num := Nat.log2_self_le (Nat.ne_of_gt h)
  have hle : powLe ((num.log2 : Int) - a) num (Nat.pow 2 a) = true := by
    rw [powLe]
    split
    · next he =>
      have hlog : num.log2 = a + ((num.log2 : Int) - a).toNat := by omega
      rw [decide_eq_true_iff, Nat.pow_eq, Nat.pow_eq, ← Nat.pow_add, ← hlog]
      exact hself
    · next he =>
      have hlog : a = num.log2 + (-((num.log2 : Int) - a)).toNat := by omega
      rw [decide_eq_true_iff, Nat.pow_eq, Nat.pow_eq]
      conv => lhs; rw [hlog, Nat.pow_add]
      exact Nat.mul_le_mul_right _ hself
  rw [binade, log2_twoPow]
  exact if_pos hle

/-! ## Exact quotients -/

/-- The significand and the exponent of a number in its one form. -/
structure InForm (m : Nat) (e : Int) : Prop where
  lt : m < Nat.pow 2 53
  ge : minExponent ≤ e
  le : e ≤ maxExponent
  full : Nat.pow 2 52 ≤ m ∨ e = minExponent

theorem nearest_mul {d : Nat} (hd : 0 < d) (m : Nat) : nearest (m * d) d = m := by
  rw [nearest, Nat.mul_div_cancel m hd, Nat.mul_mod_left, if_pos hd]

/-- The quotient by `2 ^ a` has the value `m * 2 ^ e`. -/
def Exactly (m : Nat) (e : Int) (num a : Nat) : Prop :=
  num * Nat.pow 2 (-e).toNat = m * Nat.pow 2 (a + e.toNat)

variable {m num a : Nat} {e : Int}

theorem significandAt_exact (h : Exactly m e num a) : significandAt e num (Nat.pow 2 a) = m := by
  simp only [Exactly, Nat.pow_eq, Nat.pow_add] at h
  simp only [significandAt, Nat.pow_eq]
  split
  · next he =>
    have hzero : (-e).toNat = 0 := by omega
    rw [hzero, Nat.pow_zero, Nat.mul_one] at h
    rw [h]
    exact nearest_mul (Nat.mul_pos (Nat.two_pow_pos _) (Nat.two_pow_pos _)) m
  · next he =>
    have hzero : e.toNat = 0 := by omega
    rw [hzero, Nat.pow_zero, Nat.mul_one] at h
    rw [h]
    exact nearest_mul (Nat.two_pow_pos _) m

theorem log2_exact (hm : 0 < m) (hnum : 0 < num) (h : Exactly m e num a) :
    (num.log2 : Int) - a = m.log2 + e := by
  have hlog := congrArg Nat.log2 h
  rw [log2_mul_twoPow hnum, log2_mul_twoPow hm] at hlog
  omega

/-- The unit of a quotient that is a number is the unit of that number. -/
theorem unitExponent_exact (hform : InForm m e) (hm : 0 < m) (hnum : 0 < num)
    (h : Exactly m e num a) : unitExponent num (Nat.pow 2 a) = e := by
  have hlt : m.log2 < 53 := (Nat.log2_lt (Nat.ne_of_gt hm)).mpr hform.lt
  rw [unitExponent, binade_twoPow hnum, log2_exact hm hnum h]
  rcases hform.full with hfull | rfl
  · have hle : 52 ≤ m.log2 := (Nat.le_log2 (Nat.ne_of_gt hm)).mpr hfull
    have := hform.ge
    omega
  · omega

/-- A quotient that is a number is rounded to it. -/
theorem ofRatio_exact (hform : InForm m e) (h : Exactly m e num a) (s : Bool) :
    ofRatio s num (Nat.pow 2 a) = .finite s m e := by
  by_cases hm : m = 0
  · subst hm
    rw [Exactly, Nat.zero_mul] at h
    have hnum : num = 0 :=
      (Nat.mul_eq_zero.mp h).resolve_right (Nat.ne_of_gt (Nat.two_pow_pos _))
    have he : e = minExponent := hform.full.resolve_left (by decide)
    rw [ofRatio, if_pos hnum, he]
  · have hnum : num ≠ 0 := by
      rintro rfl
      rw [Exactly, Nat.zero_mul] at h
      have hpow : Nat.pow 2 (a + e.toNat) ≠ 0 := Nat.ne_of_gt (Nat.two_pow_pos _)
      exact (Nat.mul_ne_zero hm hpow) h.symm
    rw [ofRatio, if_neg hnum]
    simp only [unitExponent_exact hform (Nat.pos_of_ne_zero hm) (Nat.pos_of_ne_zero hnum) h,
      significandAt_exact h]
    rw [settle, if_neg (Nat.ne_of_lt hform.lt), if_neg (Int.not_lt.mpr hform.le)]

/-! ## Numbers -/

/-- A number is in its one form. -/
def Canonical : Binary64 → Prop
  | .finite _ m e => InForm m e
  | _ => True

theorem exactly_ratio (m : Nat) (e : Int) :
    ∃ a, (ratio m e).2 = Nat.pow 2 a ∧ Exactly m e (ratio m e).1.natAbs a := by
  rw [ratio]
  split
  · next he =>
    have hzero : (-e).toNat = 0 := by omega
    refine ⟨0, rfl, ?_⟩
    rw [Exactly, hzero, Nat.zero_add, Int.natAbs_mul]
    exact Nat.mul_one _
  · next he =>
    have hzero : e.toNat = 0 := by omega
    refine ⟨(-e).toNat, rfl, ?_⟩
    rw [Exactly, hzero]
    rfl

/-- A number times one is the number. -/
theorem mulNat_one {x : Binary64} (h : x.Canonical) : x.mulNat 1 = x := by
  cases x with
  | nan => rfl
  | infinity s => rfl
  | finite s m e =>
    obtain ⟨a, hden, hexact⟩ := exactly_ratio m e
    show ofRatio s (ratio (m * 1 : Nat) e).1.natAbs (ratio (m * 1 : Nat) e).2 = _
    rw [Nat.mul_one, hden]
    exact ofRatio_exact h hexact s

/-! ## Numbers of [0, 1) -/

/-- The number is not negative and below one. -/
def InUnit : Binary64 → Prop
  | .finite s m e =>
    InForm m e ∧ 0 ≤ (ratio (signed s m) e).1 ∧
      (ratio (signed s m) e).1 < ((ratio (signed s m) e).2 : Int)
  | _ => False

theorem InUnit.canonical {x : Binary64} (h : x.InUnit) : x.Canonical := by
  cases x with
  | nan => exact trivial
  | infinity s => exact trivial
  | finite s m e => exact h.1

/-- A positive number of at most 53 digits has a full significand in the unit
of its 53rd one. -/
theorem inForm_shift {n : Nat} (hzero : n ≠ 0) (hn : n.log2 < 53) :
    InForm (n * Nat.pow 2 (52 - n.log2)) (n.log2 - 105) where
  lt := by
    have hpow : 2 ^ (n.log2 + 1) * 2 ^ (52 - n.log2) = Nat.pow 2 53 := by
      rw [← Nat.pow_add, Nat.pow_eq]
      congr 1
      omega
    rw [← hpow]
    exact Nat.mul_lt_mul_of_pos_right Nat.lt_log2_self (Nat.two_pow_pos _)
  ge := by
    show (-1074 : Int) ≤ n.log2 - 105
    omega
  le := by
    show (n.log2 - 105 : Int) ≤ 971
    omega
  full := by
    have hpow : 2 ^ n.log2 * 2 ^ (52 - n.log2) = Nat.pow 2 52 := by
      rw [← Nat.pow_add, Nat.pow_eq]
      congr 1
      omega
    left
    rw [← hpow]
    exact Nat.mul_le_mul_right _ (Nat.log2_self_le hzero)

/-- A fraction of `2 ^ 53` is a number in that form. -/
theorem exactly_shift {n : Nat} (hn : n.log2 < 53) :
    Exactly (n * Nat.pow 2 (52 - n.log2)) (n.log2 - 105) n 53 := by
  have hneg : (-((n.log2 : Int) - 105)).toNat = (52 - n.log2) + 53 := by omega
  have hpos : ((n.log2 : Int) - 105).toNat = 0 := by omega
  rw [Exactly, hneg, hpos]
  simp only [Nat.pow_eq, Nat.pow_add, Nat.mul_assoc]

theorem inUnit_of_exactly (hform : InForm m e) (he : e < 0) (h : Exactly m e num a)
    (hnum : num < Nat.pow 2 a) : (ofRatio false num (Nat.pow 2 a)).InUnit := by
  have hratio : ratio (signed false m) e = ((m : Int), Nat.pow 2 (-e).toNat) :=
    if_neg (Int.not_le.mpr he)
  have hzero : e.toNat = 0 := by omega
  rw [Exactly, hzero, Nat.add_zero] at h
  have hlt : m < Nat.pow 2 (-e).toNat := by
    have hmul : num * Nat.pow 2 (-e).toNat < Nat.pow 2 a * Nat.pow 2 (-e).toNat :=
      Nat.mul_lt_mul_of_pos_right hnum (Nat.two_pow_pos _)
    rw [h, Nat.mul_comm (Nat.pow 2 a)] at hmul
    exact Nat.lt_of_mul_lt_mul_right hmul
  rw [ofRatio_exact hform (by rw [Exactly, hzero, Nat.add_zero]; exact h), InUnit, hratio]
  exact ⟨hform, Int.natCast_nonneg m, Int.ofNat_lt.mpr hlt⟩

/-- A fraction of `2 ^ 53`. -/
theorem inUnit_ofRatio {n : Nat} (hn : n < Nat.pow 2 53) :
    (ofRatio false n (Nat.pow 2 53)).InUnit := by
  by_cases hzero : n = 0
  · subst hzero
    exact ⟨⟨by decide, by decide, by decide, .inr rfl⟩, by decide, by decide +kernel⟩
  have hlog : n.log2 < 53 := (Nat.log2_lt hzero).mpr hn
  exact inUnit_of_exactly (inForm_shift hzero hlog) (by omega) (exactly_shift hlog) hn

/-- A generator gives 53 bits at a time. -/
theorem nextBits_lt (g : Twister) : g.nextBits.1 < Nat.pow 2 53 := by
  have hword : ∀ (w : UInt32) (k : UInt32), (w >>> k).toNat = w.toNat / 2 ^ (k.toNat % 32) := by
    intro w k
    rw [UInt32.toNat_shiftRight, Nat.shiftRight_eq_div_pow]
  have ha := g.nextWord.1.toNat_lt
  have hb := g.nextWord.2.nextWord.1.toNat_lt
  show (g.nextWord.1 >>> 5).toNat * 67108864 + (g.nextWord.2.nextWord.1 >>> 6).toNat < _
  rw [hword, hword]
  have h5 : (5 : UInt32).toNat % 32 = 5 := rfl
  have h6 : (6 : UInt32).toNat % 32 = 6 := rfl
  rw [h5, h6, Nat.pow_eq]
  omega

/-- What a generator draws is a number of [0, 1). -/
theorem inUnit_draw (g : Twister) : (Twister.draw g).1.InUnit := inUnit_ofRatio (nextBits_lt g)

theorem inUnit_of_mem_take {σ : Type} {draw : Source σ} (h : ∀ s, (draw s).1.InUnit) :
    ∀ (n : Nat) (s : σ), ∀ x ∈ Source.take draw n s, x.InUnit
  | 0, _, _, hx => absurd hx List.not_mem_nil
  | n + 1, s, x, hx => by
    rcases List.mem_cons.mp hx with rfl | hx
    · exact h s
    · exact inUnit_of_mem_take h n (draw s).2 x hx

end TextGrammar.Binary64
