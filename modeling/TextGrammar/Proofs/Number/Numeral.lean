/-
# `TextGrammar.Proofs.Number.Numeral` — numerals are read back

A numeral is made from its end: the last digit is what is left over by the base,
and in front of it stands the numeral of the quotient (`toDigits_of_le`).  Its
value is read from the front.  Both agree by induction on the number, in every
base that has digits.

    readNat_toDigits    the value of the numeral of n is n
    readInt_ofNat       so is the integer that the decimal numeral writes,
                        unless it has more digits than are read
-/
import TextGrammar.Number.Numeral

namespace TextGrammar.Numeral

variable {base n : Nat}

/-! ## Digits -/

theorem digitValue?_digitChar : ∀ d < 16, Text.digitValue? (Nat.digitChar d) = some d := by
  decide

theorem toDigits_of_le (hbase : 1 < base) (h : base ≤ n) :
    Nat.toDigits base n = Nat.toDigits base (n / base) ++ [Nat.digitChar (n % base)] := by
  rw [Nat.toDigits_eq_if hbase, if_neg (Nat.not_lt.mpr h)]

theorem isDigitOf_of_mem_toDigits (hbase : 1 < base) (hdigits : base ≤ 16) {c : Char}
    (h : c ∈ Nat.toDigits base n) : isDigitOf base c = true := by
  have hdigit : ∀ d < base, isDigitOf base (Nat.digitChar d) = true := by
    intro d hd
    rw [isDigitOf, digitValue?_digitChar d (by omega)]
    exact decide_eq_true hd
  induction n using Nat.strongRecOn with
  | _ n ih =>
    by_cases hn : n < base
    · rw [Nat.toDigits_of_lt_base hn, List.mem_singleton] at h
      rw [h]
      exact hdigit n hn
    · rw [toDigits_of_le hbase (by omega), List.mem_append, List.mem_singleton] at h
      rcases h with h | rfl
      · exact ih (n / base) (Nat.div_lt_self (by omega) hbase) h
      · exact hdigit _ (Nat.mod_lt n (by omega))

/-- A numeral starts with a zero for zero only. -/
theorem head?_toDigits (h : n ≠ 0) : (Nat.toDigits 10 n).head? ≠ some '0' := by
  induction n using Nat.strongRecOn with
  | _ n ih =>
    by_cases hn : n < 10
    · have hdigit : ∀ d < 10, d ≠ 0 → Nat.digitChar d ≠ '0' := by decide
      rw [Nat.toDigits_of_lt_base hn, List.head?_cons]
      exact fun he => hdigit n hn h (Option.some.inj he)
    · have hquotient := ih (n / 10) (by omega) (by omega)
      rw [toDigits_of_le (by decide) (by omega)]
      cases hcons : Nat.toDigits 10 (n / 10) with
      | nil => exact absurd hcons Nat.toDigits_ne_nil
      | cons c cs =>
        rw [hcons] at hquotient
        exact hquotient

/-! ## Values -/

theorem readNat_append_singleton (base : Nat) (ds : Text) (c : Char) :
    Text.readNat base (ds ++ [c]) =
      Text.readNat base ds * base + (Text.digitValue? c).getD 0 := by
  rw [Text.readNat, List.foldl_append]
  rfl

theorem readNat_toDigits (hbase : 1 < base) (hdigits : base ≤ 16) (n : Nat) :
    Text.readNat base (Nat.toDigits base n) = n := by
  induction n using Nat.strongRecOn with
  | _ n ih =>
    by_cases h : n < base
    · rw [Nat.toDigits_of_lt_base h, Text.readNat, List.foldl_cons,
        digitValue?_digitChar n (by omega), List.foldl_nil, Nat.zero_mul, Nat.zero_add]
      rfl
    · have hlt : n % base < base := Nat.mod_lt n (by omega)
      have hquotient := ih (n / base) (Nat.div_lt_self (by omega) hbase)
      rw [toDigits_of_le hbase (by omega), readNat_append_singleton, hquotient,
        digitValue?_digitChar _ (by omega)]
      exact Nat.div_add_mod' n base

theorem readNat_replicate_zero (base k : Nat) (ds : Text) :
    Text.readNat base (List.replicate k '0' ++ ds) = Text.readNat base ds := by
  induction k with
  | zero => rfl
  | succ k ih =>
    have hzero : 0 * base + (Text.digitValue? '0').getD 0 = 0 := by
      rw [Nat.zero_mul]
      rfl
    rw [List.replicate_succ, List.cons_append, ← ih, Text.readNat, List.foldl_cons, hzero]
    rfl

/-! ## Decimal integers -/

/-- A decimal digit stands for itself. -/
theorem plain_of_isDigit {c : Char} (h : c.isDigit = true) :
    Text.isBlank c = false ∧ asciiDigit c = c ∧ isDigitOf 10 c = true ∧ c ≠ '_' := by
  have hall : ∀ n < 58, 48 ≤ n → Text.isBlank (Char.ofNat n) = false ∧
      asciiDigit (Char.ofNat n) = Char.ofNat n ∧ isDigitOf 10 (Char.ofNat n) = true ∧
      Char.ofNat n ≠ '_' := by decide
  have hbounds : 48 ≤ c.toNat ∧ c.toNat ≤ 57 := by
    simpa [Char.isDigit, UInt32.le_iff_toNat_le] using h
  have hc := hall c.toNat (by omega) hbounds.1
  rwa [Char.ofNat_toNat] at hc

theorem dropWhile_of_forall {p : Char → Bool} {t : Text} (h : ∀ c ∈ t, p c = false) :
    t.dropWhile p = t := by
  cases t with
  | nil => rfl
  | cons c t => rw [List.dropWhile_cons, if_neg (by rw [h c List.mem_cons_self]; decide)]

theorem strip_of_forall {t : Text} (h : ∀ c ∈ t, Text.isBlank c = false) : Text.strip t = t := by
  rw [Text.strip, dropWhile_of_forall h, dropWhile_of_forall, List.reverse_reverse]
  intro c hc
  exact h c (List.mem_reverse.mp hc)

theorem digitsOf_of_forall {ds : Text} (hne : ds ≠ []) (hds : ∀ c ∈ ds, c.isDigit = true) :
    digitsOf 10 ds = some ds := by
  induction ds with
  | nil => exact absurd rfl hne
  | cons c ds ih =>
    have hc := (plain_of_isDigit (hds c List.mem_cons_self)).2.2.1
    cases ds with
    | nil => rw [digitsOf, if_pos hc]
    | cons d ds =>
      have hd := (plain_of_isDigit (hds d (List.mem_cons_of_mem c List.mem_cons_self))).2.2.2
      have hrest := ih (List.cons_ne_nil d ds) fun x hx => hds x (List.mem_cons_of_mem c hx)
      rw [digitsOf, if_pos hc, hrest]
      · rfl
      · intro he
        cases he
      · intro rest he
        exact hd (List.cons.inj he).1

theorem cutSign_of_isDigit {c : Char} (h : c.isDigit = true) (cs : Text) :
    cutSign (c :: cs) = (false, c :: cs) := by
  rw [cutSign]
  · intro rest he
    obtain ⟨rfl, -⟩ := List.cons.inj he
    cases h
  · intro rest he
    obtain ⟨rfl, -⟩ := List.cons.inj he
    cases h

/-- An integer is read back from its numeral. -/
theorem readInt_ofNat (h : (Text.ofNat n).length ≤ maxDecimalDigits) :
    readInt 10 (Text.ofNat n) = .ok n := by
  have hne : Text.ofNat n ≠ [] := Nat.toDigits_ne_nil
  have hds : ∀ c ∈ Text.ofNat n, c.isDigit = true := fun c hc =>
    Nat.isDigit_of_mem_toDigits (by decide) (by decide) hc
  have hstrip : (Text.strip (Text.ofNat n)).map asciiDigit = Text.ofNat n := by
    rw [strip_of_forall fun c hc => (plain_of_isDigit (hds c hc)).1]
    exact (List.map_congr_left fun c hc => (plain_of_isDigit (hds c hc)).2.1).trans (List.map_id _)
  have hsign : cutSign (Text.ofNat n) = (false, Text.ofNat n) := by
    obtain ⟨c, cs, hcons⟩ := List.exists_cons_of_ne_nil hne
    rw [hcons]
    exact cutSign_of_isDigit (hds c (hcons ▸ List.mem_cons_self)) cs
  have hmark : cutBaseMark 10 (Text.ofNat n) = Text.ofNat n := rfl
  have hvalue : Text.readNat 10 (Text.ofNat n) = n := readNat_toDigits (by decide) (by decide) n
  rw [readInt, hstrip, hsign]
  simp only [hmark, digitsOf_of_forall hne hds, hvalue]
  exact if_neg fun hlong => Nat.not_lt.mpr h hlong.2

end TextGrammar.Numeral
