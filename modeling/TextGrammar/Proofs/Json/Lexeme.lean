/-
# `TextGrammar.Proofs.Json.Lexeme` — how the tokens of a JSON text are written

A token can be written in several ways: a character of a text as it is, behind
a backslash or by its code, a number with zeros at its end.  The relations here
say which ways there are, without the lexer.

    map_tokens_of_written    the lexer reads what is written

Between tokens there may be white space, and nothing else is needed to tell
them apart, as long as no number or word is followed by another one: a number
goes on as far as it can.
-/
import TextGrammar.Json.Token

namespace TextGrammar.Json

/-! ## Texts -/

/-- Four hexadecimal digits write a code. -/
def IsCode (digits : Text) (n : Nat) : Prop :=
  digits.length = 4 ∧ (∀ c ∈ digits, Numeral.isDigitOf 16 c = true) ∧ Text.readNat 16 digits = n

/-- What stands between quotes, and the text that it spells.  One half of a pair
spells nothing without the other. -/
inductive Spells : Text → Text → Prop
  | nil : Spells [] []
  | plain {c : Char} {w t : Text} : c ≠ '"' → c ≠ '\\' → 0x20 ≤ c.toNat → Spells w t →
      Spells (c :: w) (c :: t)
  | escape {e c : Char} {w t : Text} : escaped? e = some c → Spells w t →
      Spells ('\\' :: e :: w) (c :: t)
  | code {digits : Text} {n : Nat} {w t : Text} : IsCode digits n → isHigh n = false →
      isLow n = false → Spells w t → Spells ('\\' :: 'u' :: (digits ++ w)) (Char.ofNat n :: t)
  | pair {digits digits' : Text} {high low : Nat} {w t : Text} : IsCode digits high →
      isHigh high = true → IsCode digits' low → isLow low = true → Spells w t →
      Spells ('\\' :: 'u' :: (digits ++ '\\' :: 'u' :: (digits' ++ w)))
        (Char.ofNat (joinHalves high low) :: t)

theorem code?_of_isCode {digits : Text} {n : Nat} (h : IsCode digits n) (rest : Text) :
    code? (digits ++ rest) = some n := by
  obtain ⟨hlength, hdigits, rfl⟩ := h
  rw [code?, List.take_left' hlength]
  exact if_pos ⟨hlength, List.all_eq_true.mpr hdigits⟩

theorem drop_of_isCode {digits : Text} {n : Nat} (h : IsCode digits n) (rest : Text) :
    (digits ++ rest).drop 4 = rest := List.drop_left' h.1

theorem readEscape_of_escaped {e c : Char} (h : escaped? e = some c) (at' : Nat) (rest : Text) :
    readEscape at' (e :: rest) = .ok (c.toNat, 1) := by
  have hu : e ≠ 'u' := by
    rintro rfl
    cases h
  rw [readEscape]
  · rw [h]
  · exact hu

/-- A code that is no first half stands for itself, whatever comes behind it. -/
theorem readEscape_of_isCode {digits : Text} {n : Nat} (h : IsCode digits n)
    (hhigh : isHigh n = false) {rest : Text} (hrest : rest ≠ []) (at' : Nat) :
    readEscape at' ('u' :: (digits ++ rest)) = .ok (n, 5) := by
  rw [readEscape, code?_of_isCode h, drop_of_isCode h]
  split
  · next hnone => cases hnone
  · next hnil => exact absurd rfl hrest
  · next hsome =>
    cases hsome
    rw [hhigh]
    rfl
  · next hsome _ _ =>
    cases hsome
    rfl

theorem readEscape_of_pair {digits digits' : Text} {high low : Nat} (h : IsCode digits high)
    (hhigh : isHigh high = true) (h' : IsCode digits' low) (hlow : isLow low = true)
    {rest : Text} (hrest : rest ≠ []) (at' : Nat) :
    readEscape at' ('u' :: (digits ++ '\\' :: 'u' :: (digits' ++ rest))) =
      .ok (joinHalves high low, 11) := by
  have hlength : 4 < (digits' ++ rest).length := by
    have := List.length_pos_iff.mpr hrest
    rw [List.length_append, h'.1]
    omega
  rw [readEscape, code?_of_isCode h, drop_of_isCode h]
  simp only [hhigh, hlength, decide_true, Bool.and_self, ↓reduceIte, code?_of_isCode h', hlow]

/-- What is spelled between quotes is read up to the closing quote. -/
theorem readText_of_spells {w t : Text} (h : Spells w t) (start at' : Nat) (rest : Text) :
    readText start at' (w ++ '"' :: rest) = .ok (t, at' + w.length + 1) := by
  induction h generalizing at' with
  | nil =>
    rw [List.nil_append, readText, if_pos rfl]
    rfl
  | @plain c w t hquote hslash hspace _ ih =>
    rw [List.cons_append, readText, if_neg hquote, if_neg hslash, if_neg (by omega), ih, prepend,
      Char.ofNat_toNat, List.length_cons]
    exact congrArg (fun n => Except.ok (c :: t, n)) (by omega)
  | @escape e c w t hc _ ih =>
    rw [List.cons_append, List.cons_append, readText, if_neg (by decide), if_pos rfl,
      readEscape_of_escaped hc]
    simp only [List.isEmpty_cons, Bool.false_eq_true, ↓reduceIte, List.drop_succ_cons,
      List.drop_zero]
    rw [ih, prepend, Char.ofNat_toNat, List.length_cons, List.length_cons]
    exact congrArg (fun n => Except.ok (c :: t, n)) (by omega)
  | @code digits n w t hcode hhigh _ _ ih =>
    rw [List.cons_append, List.cons_append, List.append_assoc, readText, if_neg (by decide),
      if_pos rfl, readEscape_of_isCode hcode hhigh (by simp)]
    simp only [List.isEmpty_cons, Bool.false_eq_true, ↓reduceIte, List.drop_succ_cons]
    rw [drop_of_isCode hcode, ih, prepend]
    simp only [List.length_cons, List.length_append, hcode.1]
    exact congrArg (fun m => Except.ok (Char.ofNat n :: t, m)) (by omega)
  | @pair digits digits' high low w t hcode hhigh hcode' hlow _ ih =>
    have hassoc : ('\\' :: 'u' :: (digits ++ '\\' :: 'u' :: (digits' ++ w))) ++ '"' :: rest =
        '\\' :: 'u' :: (digits ++ '\\' :: 'u' :: (digits' ++ (w ++ '"' :: rest))) := by simp
    have hdrop : ('u' :: (digits ++ '\\' :: 'u' :: (digits' ++ (w ++ '"' :: rest)))).drop 11 =
        w ++ '"' :: rest := by
      have hlength : ('u' :: (digits ++ '\\' :: 'u' :: digits')).length = 11 := by
        simp [hcode.1, hcode'.1]
      have hsplit : 'u' :: (digits ++ '\\' :: 'u' :: (digits' ++ (w ++ '"' :: rest))) =
          ('u' :: (digits ++ '\\' :: 'u' :: digits')) ++ (w ++ '"' :: rest) := by simp
      rw [hsplit, List.drop_left' hlength]
    rw [hassoc, readText, if_neg (by decide), if_pos rfl,
      readEscape_of_pair hcode hhigh hcode' hlow (by simp)]
    simp only [List.isEmpty_cons, Bool.false_eq_true, ↓reduceIte]
    rw [hdrop, ih, prepend]
    simp only [List.length_cons, List.length_append, hcode.1, hcode'.1]
    exact congrArg (fun m => Except.ok (Char.ofNat (joinHalves high low) :: t, m)) (by omega)

/-! ## Numbers and words -/

/-- A value that is no text and holds no other values. -/
inductive Scalar where
  | null
  | bool (b : Bool)
  | int (n : Int)
  | float (x : Binary64)

/-- A scalar as a value. -/
def Scalar.value : Scalar → Value
  | .null => .null
  | .bool b => .bool b
  | .int n => .int n
  | .float x => .float x

/-- A digit or more. -/
def Digits (ds : Text) : Prop := ds ≠ [] ∧ ∀ c ∈ ds, c.isDigit = true

/-- The digits in front of the point: a zero stands there alone. -/
def Whole (ds : Text) : Prop := ds = ['0'] ∨ Digits ds ∧ ds.head? ≠ some '0'

/-- A point with digits, which may be missing. -/
def Fraction (t : Text) : Prop := t = [] ∨ ∃ ds, Digits ds ∧ t = '.' :: ds

/-- A power of ten, which may be missing. -/
def Power (t : Text) : Prop :=
  t = [] ∨ ∃ e sign ds, (e = 'e' ∨ e = 'E') ∧ (sign = [] ∨ sign = ['+'] ∨ sign = ['-']) ∧
    Digits ds ∧ t = e :: (sign ++ ds)

/-- The parts of a number as they are written, one behind the other. -/
structure Figures (sign whole fraction power : Text) : Prop where
  sign : sign = [] ∨ sign = ['-']
  whole : Whole whole
  fraction : Fraction fraction
  power : Power power

/-- A number and how it is written. -/
inductive WritesNumber : Text → Scalar → Prop
  | int {sign whole : Text} {n : Int} : Figures sign whole [] [] →
      Numeral.readInt 10 (sign ++ whole) = .ok n → WritesNumber (sign ++ whole) (.int n)
  | float {sign whole fraction power : Text} {x : Binary64} :
      Figures sign whole fraction power → (fraction ≠ [] ∨ power ≠ []) →
      Numeral.readFloat? (sign ++ whole ++ fraction ++ power) = some x →
      WritesNumber (sign ++ whole ++ fraction ++ power) (.float x)

/-- A number does not go on in a text. -/
def Ends (t : Text) : Prop :=
  ∀ c ∈ t.head?, c.isDigit = false ∧ c ≠ '.' ∧ c ≠ 'e' ∧ c ≠ 'E'

theorem digits_append {ds rest : Text} (h : ∀ c ∈ ds, c.isDigit = true)
    (hrest : ∀ c ∈ rest.head?, c.isDigit = false) : digits (ds ++ rest) = ds := by
  rw [digits, List.takeWhile_append_of_pos h]
  cases rest with
  | nil => simp
  | cons c rest =>
    have hc := hrest c rfl
    simp [hc]

theorem fractionLength_append {fraction rest : Text} (h : Fraction fraction)
    (hrest : ∀ c ∈ rest.head?, c.isDigit = false ∧ c ≠ '.') :
    fractionLength (fraction ++ rest) = fraction.length := by
  rcases h with rfl | ⟨ds, ⟨hne, hds⟩, rfl⟩
  · cases rest with
    | nil => rfl
    | cons c rest =>
      rw [List.nil_append, fractionLength]
      · rfl
      · intro _ he
        exact (hrest c rfl).2 (List.cons.inj he).1
  · have hdigits : digits (ds ++ rest) = ds := digits_append hds fun c hc => (hrest c hc).1
    rw [List.cons_append, fractionLength, hdigits, if_neg hne]
    rfl

/-- Digits are no sign. -/
theorem digit_ne_sign {c : Char} (h : c.isDigit = true) : c ≠ '+' ∧ c ≠ '-' := by
  constructor
  · rintro rfl
    cases h
  · rintro rfl
    cases h

theorem powerSignLength_append {sign ds rest : Text}
    (h : sign = [] ∨ sign = ['+'] ∨ sign = ['-']) (hds : Digits ds) :
    powerSignLength (sign ++ (ds ++ rest)) = sign.length := by
  rcases h with rfl | rfl | rfl
  · obtain ⟨d, ds, rfl⟩ := List.exists_cons_of_ne_nil hds.1
    have hd := digit_ne_sign (hds.2 d List.mem_cons_self)
    rw [List.nil_append, List.cons_append, powerSignLength, if_neg (not_or.mpr hd)]
    rfl
  · rfl
  · rfl

theorem powerLength_append {power rest : Text} (h : Power power) (hrest : Ends rest) :
    powerLength (power ++ rest) = power.length := by
  rcases h with rfl | ⟨e, sign, ds, he, hsign, hds, rfl⟩
  · cases rest with
    | nil => rfl
    | cons c rest =>
      obtain ⟨-, -, hc, hc'⟩ := hrest c rfl
      rw [List.nil_append, powerLength, if_neg (not_or.mpr ⟨hc, hc'⟩)]
      rfl
  · have hdigits : digits (ds ++ rest) = ds := digits_append hds.2 fun c hc => (hrest c hc).1
    have hlength : ds.length ≠ 0 := fun h => hds.1 (List.eq_nil_of_length_eq_zero h)
    rw [List.cons_append, List.append_assoc, powerLength, if_pos he]
    simp only [powerSignLength_append hsign hds, List.drop_left, hdigits, if_neg hlength,
      List.length_cons, List.length_append]
    omega

theorem Whole.exists_cons {whole : Text} (h : Whole whole) :
    ∃ c cs, whole = c :: cs ∧ c.isDigit = true := by
  rcases h with rfl | ⟨⟨hne, hds⟩, -⟩
  · exact ⟨'0', [], rfl, rfl⟩
  · obtain ⟨c, cs, rfl⟩ := List.exists_cons_of_ne_nil hne
    exact ⟨c, cs, rfl, hds c List.mem_cons_self⟩

theorem Whole.length_ne_zero {whole : Text} (h : Whole whole) : whole.length ≠ 0 := by
  obtain ⟨c, cs, rfl, -⟩ := h.exists_cons
  exact Nat.succ_ne_zero _

theorem wholeLength_append {whole rest : Text} (h : Whole whole)
    (hrest : ∀ c ∈ rest.head?, c.isDigit = false) :
    wholeLength (whole ++ rest) = whole.length := by
  rcases h with rfl | ⟨⟨hne, hds⟩, hzero⟩
  · rfl
  · obtain ⟨d, ds, rfl⟩ := List.exists_cons_of_ne_nil hne
    have hd : d ≠ '0' := fun he => hzero (congrArg some he)
    rw [List.cons_append, wholeLength, ← List.cons_append, digits_append hds hrest]
    intro _ he
    exact hd (List.cons.inj he).1

theorem signLength_append {sign whole rest : Text} (h : sign = [] ∨ sign = ['-'])
    (hwhole : Whole whole) : signLength (sign ++ (whole ++ rest)) = sign.length := by
  rcases h with rfl | rfl
  · obtain ⟨c, cs, rfl, hc⟩ := hwhole.exists_cons
    rw [List.nil_append, List.cons_append, signLength]
    · rfl
    · intro _ he
      exact (digit_ne_sign hc).2 (List.cons.inj he).1
  · rfl

/-- What follows the whole part of a number is no digit. -/
theorem Figures.head_rest {sign whole fraction power rest : Text}
    (h : Figures sign whole fraction power) (hrest : Ends rest) :
    ∀ c ∈ (fraction ++ (power ++ rest)).head?, c.isDigit = false := by
  have hpower : ∀ c ∈ (power ++ rest).head?, c.isDigit = false := by
    rcases h.power with rfl | ⟨e, s, ds, he, -, -, rfl⟩
    · exact fun c hc => (hrest c hc).1
    · rintro c ⟨⟩
      rcases he with rfl | rfl <;> rfl
  rcases h.fraction with rfl | ⟨ds, -, rfl⟩
  · exact hpower
  · rintro c ⟨⟩
    rfl

/-- The parts of a number are found behind each other, up to its end. -/
theorem lengths_of_figures {sign whole fraction power rest : Text}
    (h : Figures sign whole fraction power) (hrest : Ends rest) :
    let t := sign ++ whole ++ fraction ++ power ++ rest
    signLength t = sign.length ∧ wholeLength (t.drop sign.length) = whole.length ∧
      fractionLength (t.drop (sign.length + whole.length)) = fraction.length ∧
      powerLength (t.drop (sign.length + whole.length + fraction.length)) = power.length := by
  intro t
  have hassoc : t = sign ++ (whole ++ (fraction ++ (power ++ rest))) := by
    simp only [t, List.append_assoc]
  rw [hassoc]
  refine ⟨signLength_append h.sign h.whole, ?_, ?_, ?_⟩
  · rw [List.drop_left, wholeLength_append h.whole (h.head_rest hrest)]
  · rw [← List.append_assoc sign, ← List.length_append, List.drop_left,
      fractionLength_append h.fraction]
    rcases h.power with rfl | ⟨e, s, ds, he, -, -, rfl⟩
    · exact fun c hc => ⟨(hrest c hc).1, (hrest c hc).2.1⟩
    · rintro c ⟨⟩
      rcases he with rfl | rfl <;> exact ⟨rfl, by decide⟩
  · rw [← List.append_assoc sign, ← List.append_assoc (sign ++ whole), ← List.length_append,
      ← List.length_append, List.drop_left, powerLength_append h.power hrest]

/-- A number is read up to its end. -/
theorem number?_of_writesNumber {w rest : Text} {s : Scalar} (h : WritesNumber w s)
    (hrest : Ends rest) : number? (w ++ rest) = some (.ok s.value, w.length) := by
  cases h with
  | @int sign whole n hfigures hread =>
    obtain ⟨hsign, hwhole, hfraction, hpower⟩ := lengths_of_figures hfigures hrest
    simp only [List.append_nil, List.length_nil, Nat.add_zero] at hsign hwhole hfraction hpower
    simp only [number?, hsign, hwhole, hfraction, hpower, if_neg hfigures.whole.length_ne_zero,
      Nat.add_zero, and_self, ↓reduceIte]
    rw [← List.length_append, List.take_left, hread]
    rfl
  | @float sign whole fraction power x hfigures hne hread =>
    obtain ⟨hsign, hwhole, hfraction, hpower⟩ := lengths_of_figures hfigures hrest
    have hnot : ¬ (fraction.length = 0 ∧ power.length = 0) := by
      rintro ⟨hf, hp⟩
      rcases hne with hne | hne
      · exact hne (List.eq_nil_of_length_eq_zero hf)
      · exact hne (List.eq_nil_of_length_eq_zero hp)
    simp only [number?, hsign, hwhole, hfraction, hpower, if_neg hfigures.whole.length_ne_zero,
      if_neg hnot]
    rw [← List.length_append, ← List.length_append, ← List.length_append, List.take_left, hread]
    rfl

/-- A number starts with a digit, behind a sign if there is one. -/
theorem WritesNumber.exists_digit {w : Text} {s : Scalar} (h : WritesNumber w s) :
    ∃ c cs, c.isDigit = true ∧ (w = c :: cs ∨ w = '-' :: c :: cs) := by
  have hparts : ∀ {sign whole fraction power : Text}, Figures sign whole fraction power →
      ∃ c cs, c.isDigit = true ∧ (sign ++ whole ++ fraction ++ power = c :: cs ∨
        sign ++ whole ++ fraction ++ power = '-' :: c :: cs) := by
    intro sign whole fraction power h
    obtain ⟨c, cs, rfl, hc⟩ := h.whole.exists_cons
    refine ⟨c, cs ++ fraction ++ power, hc, ?_⟩
    rcases h.sign with rfl | rfl
    · exact .inl rfl
    · exact .inr rfl
  cases h with
  | int hfigures _ =>
    have hcons := hparts hfigures
    rwa [List.append_nil, List.append_nil] at hcons
  | float hfigures _ _ => exact hparts hfigures

/-! ## Tokens -/

/-- A token and how it is written. -/
inductive Lexeme : Token → Text → Prop
  | openArray : Lexeme .openArray ['[']
  | closeArray : Lexeme .closeArray [']']
  | openObject : Lexeme .openObject ['\x7b']
  | closeObject : Lexeme .closeObject ['\x7d']
  | comma : Lexeme .comma [',']
  | colon : Lexeme .colon [':']
  | text {w t : Text} : Spells w t → Lexeme (.text (.ok t)) ('"' :: (w ++ ['"']))
  | word {w : Text} {s : Scalar} : (w, s.value) ∈ words → Lexeme (.scalar (.ok s.value)) w
  | number {w : Text} {s : Scalar} : WritesNumber w s → Lexeme (.scalar (.ok s.value)) w

/-- Whether a token is a scalar, which could run into another one. -/
def Token.isScalar : Token → Bool
  | .scalar _ => true
  | _ => false

theorem word?_of_digit {c : Char} (h : c.isDigit = true) (t : Text) :
    word? (c :: t) = none ∧ word? ('-' :: c :: t) = none := by
  have hne : ∀ x : Char, x.isDigit = false → (x == c) = false := by
    intro x hx
    rw [beq_eq_false_iff_ne]
    rintro rfl
    rw [h] at hx
    cases hx
  constructor
  · simp [word?, words, List.isPrefixOf, hne]
  · simp [word?, words, List.isPrefixOf, hne]

theorem first_of_number {w rest : Text} {s : Scalar} (h : WritesNumber w s) (hrest : Ends rest)
    (position : Nat) : first position (w ++ rest) = (.scalar (.ok s.value), w.length) := by
  have hnumber := number?_of_writesNumber h hrest
  obtain ⟨c, cs, hc, rfl | rfl⟩ := h.exists_digit
  · rw [List.cons_append] at hnumber ⊢
    rw [first, (word?_of_digit hc _).1, hnumber]
    · exact List.cons_ne_nil _ _
    all_goals
      intro t ht
      obtain ⟨rfl, -⟩ := List.cons.inj ht
      cases hc
  · rw [List.cons_append, List.cons_append] at hnumber ⊢
    rw [first, (word?_of_digit hc _).2, hnumber]
    · exact List.cons_ne_nil _ _
    all_goals
      intro t ht
      exact absurd (List.cons.inj ht).1 (by decide)

theorem first_of_word {w : Text} {s : Scalar} (h : (w, s.value) ∈ words) (position : Nat)
    (rest : Text) : first position (w ++ rest) = (.scalar (.ok s.value), w.length) := by
  simp only [words, List.mem_cons, Prod.mk.injEq, List.not_mem_nil, or_false] at h
  rcases h with ⟨rfl, hs⟩ | ⟨rfl, hs⟩ | ⟨rfl, hs⟩ | ⟨rfl, hs⟩ | ⟨rfl, hs⟩ | ⟨rfl, hs⟩ <;>
    rw [hs] <;> rfl

/-- A token is read as it is written, and a scalar up to its end. -/
theorem first_of_lexeme {token : Token} {w rest : Text} (h : Lexeme token w)
    (hrest : token.isScalar = true → Ends rest) (position : Nat) :
    first position (w ++ rest) = (token, w.length) := by
  cases h with
  | text hspells =>
    rw [List.cons_append, List.append_assoc, List.singleton_append, first,
      readText_of_spells hspells]
    simp only [List.length_cons, List.length_append, List.length_nil, Prod.mk.injEq, true_and]
    omega
  | word hword => exact first_of_word hword position rest
  | number hnumber => exact first_of_number hnumber (hrest rfl) position
  | _ => rfl

/-- A token is not empty.  It starts neither with white space nor with a mark. -/
theorem Lexeme.exists_cons {token : Token} {w : Text} (h : Lexeme token w) :
    ∃ c cs, w = c :: cs ∧ isSpace c = false ∧ c ≠ '\ufeff' := by
  cases h with
  | text _ => exact ⟨'"', _, rfl, rfl, by decide⟩
  | word hword =>
    simp only [words, List.mem_cons, Prod.mk.injEq, List.not_mem_nil, or_false] at hword
    rcases hword with ⟨rfl, -⟩ | ⟨rfl, -⟩ | ⟨rfl, -⟩ | ⟨rfl, -⟩ | ⟨rfl, -⟩ | ⟨rfl, -⟩ <;>
      exact ⟨_, _, rfl, rfl, by decide⟩
  | number hnumber =>
    obtain ⟨c, cs, hc, rfl | rfl⟩ := hnumber.exists_digit
    · refine ⟨c, cs, rfl, ?_, ?_⟩
      · rw [← Bool.not_eq_true]
        intro hspace
        simp only [isSpace, Bool.or_eq_true, beq_iff_eq] at hspace
        rcases hspace with ((rfl | rfl) | rfl) | rfl <;> cases hc
      · rintro rfl
        cases hc
    · exact ⟨'-', _, rfl, rfl, by decide⟩
  | _ => exact ⟨_, [], rfl, rfl, by decide⟩

/-! ## Texts of tokens -/

/-- White space between tokens. -/
def Gap (t : Text) : Prop := ∀ c ∈ t, isSpace c = true

/-- A text of tokens, with white space before each and behind the last. -/
inductive Written : List Token → Text → Prop
  | nil {gap : Text} : Gap gap → Written [] gap
  | cons {gap w rest : Text} {token : Token} {tokens : List Token} : Gap gap → Lexeme token w →
      Written tokens rest → Written (token :: tokens) (gap ++ (w ++ rest))

theorem Gap.append {s t : Text} (hs : Gap s) (ht : Gap t) : Gap (s ++ t) :=
  List.forall_mem_append.mpr ⟨hs, ht⟩

/-- Texts of tokens can be written one behind the other. -/
theorem Written.append {ts us : List Token} {t u : Text} (ht : Written ts t) (hu : Written us u) :
    Written (ts ++ us) (t ++ u) := by
  induction ht with
  | nil hgap =>
    cases hu with
    | nil hgap' => exact .nil (hgap.append hgap')
    | cons hgap' hw hu =>
      rw [List.nil_append, ← List.append_assoc]
      exact .cons (hgap.append hgap') hw hu
  | cons hgap hw _ ih =>
    rw [List.cons_append, List.append_assoc, List.append_assoc]
    exact .cons hgap hw ih

theorem Written.behind_gap {ts : List Token} {gap t : Text} (hgap : Gap gap) (ht : Written ts t) :
    Written ts (gap ++ t) := (Written.nil hgap).append ht

theorem written_singleton {token : Token} {w : Text} (h : Lexeme token w) : Written [token] w := by
  have hgap : Gap [] := List.forall_mem_nil _
  have hw := Written.cons hgap h (.nil hgap)
  rwa [List.append_nil] at hw

theorem Written.behind_lexeme {token : Token} {ts : List Token} {w t : Text} (hw : Lexeme token w)
    (ht : Written ts t) : Written (token :: ts) (w ++ t) := (written_singleton hw).append ht

/-- Whether a token can follow a scalar. -/
def Token.closes : Token → Bool
  | .closeArray | .closeObject | .comma => true
  | _ => false

/-- Tokens in front of which a scalar can stand. -/
def Stops (tokens : List Token) : Prop := ∀ token ∈ tokens.head?, token.closes = true

/-- Every scalar stands where it ends. -/
inductive Separated : List Token → Prop
  | nil : Separated []
  | cons {token : Token} {tokens : List Token} : (token.isScalar = true → Stops tokens) →
      Separated tokens → Separated (token :: tokens)

theorem ends_of_space {c : Char} {t : Text} (h : isSpace c = true) : Ends (c :: t) := by
  rintro c ⟨⟩
  simp only [isSpace, Bool.or_eq_true, beq_iff_eq] at h
  rcases h with ((rfl | rfl) | rfl) | rfl <;> exact ⟨rfl, by decide, by decide, by decide⟩

theorem ends_of_written {tokens : List Token} {t : Text} (h : Written tokens t)
    (hstops : Stops tokens) : Ends t := by
  cases h with
  | nil hgap =>
    cases t with
    | nil => exact fun c hc => absurd hc (by simp)
    | cons c gap => exact ends_of_space (hgap c List.mem_cons_self)
  | @cons gap w rest token tokens hgap hw _ =>
    cases gap with
    | cons c gap => exact ends_of_space (hgap c List.mem_cons_self)
    | nil =>
      have hcloses : token.closes = true := hstops token rfl
      cases hw with
      | closeArray | closeObject | comma =>
        rintro c ⟨⟩
        exact ⟨rfl, by decide, by decide, by decide⟩
      | _ => cases hcloses

/-- A text of tokens has no mark at its front. -/
theorem Written.ne_mark {tokens : List Token} {t : Text} (h : Written tokens t) (rest : Text) :
    t ≠ '\ufeff' :: rest := by
  have hgap : ∀ {gap t : Text}, Gap gap → gap ++ t = '\ufeff' :: rest → t = '\ufeff' :: rest := by
    intro gap t hgap ht
    cases gap with
    | nil => exact ht
    | cons c gap =>
      obtain ⟨rfl, -⟩ := List.cons.inj ht
      cases hgap _ List.mem_cons_self
  cases h with
  | nil h =>
    intro ht
    cases hgap h (t := []) (by rw [List.append_nil, ht])
  | cons h hw _ =>
    intro ht
    obtain ⟨c, cs, rfl, -, hmark⟩ := hw.exists_cons
    exact hmark (List.cons.inj (hgap h ht)).1

theorem takeWhile_gap {gap : Text} (h : Gap gap) {t : Text}
    (ht : ∀ c ∈ t.head?, isSpace c = false) : (gap ++ t).takeWhile isSpace = gap := by
  rw [List.takeWhile_append_of_pos h]
  cases t with
  | nil => simp
  | cons c t => simp [ht c rfl]

/-- The lexer reads tokens that are written, one after the other.  The rounds
last, for each token takes a character. -/
theorem map_tokensFrom_of_written {tokens : List Token} {t : Text} (h : Written tokens t)
    (hsep : Separated tokens) {rounds : Nat} (hrounds : t.length < rounds) (position : Nat) :
    (tokensFrom rounds position t).map (·.2) = tokens ++ [.finish] := by
  induction h generalizing rounds position with
  | @nil gap hgap =>
    obtain ⟨rounds, rfl⟩ := Nat.exists_eq_add_of_lt hrounds
    have htake : gap.takeWhile isSpace = gap := by
      have hgap' := takeWhile_gap hgap (t := []) (fun c hc => absurd hc (by simp))
      rwa [List.append_nil] at hgap'
    rw [tokensFrom]
    simp only [htake, List.drop_length]
    rfl
  | @cons gap w rest token tokens hgap hw hwritten ih =>
    cases hsep with
    | cons hscalar hsep =>
      obtain ⟨c, cs, hcons, hspace, -⟩ := hw.exists_cons
      have htake : (gap ++ (w ++ rest)).takeWhile isSpace = gap := by
        refine takeWhile_gap hgap ?_
        rw [hcons]
        rintro c ⟨⟩
        exact hspace
      have hfirst := first_of_lexeme hw (fun hs => ends_of_written hwritten (hscalar hs))
      have hw0 : w.length ≠ 0 := by
        rw [hcons]
        exact Nat.succ_ne_zero _
      simp only [List.length_append] at hrounds
      obtain ⟨rounds, rfl⟩ : ∃ n, rounds = n + 1 := ⟨rounds - 1, by omega⟩
      have hlater := ih hsep (show rest.length < rounds by omega) (position + gap.length + w.length)
      rw [tokensFrom]
      simp only [htake, List.drop_left, hfirst, if_neg hw0]
      rw [← List.append_assoc, ← List.length_append, List.drop_left, List.map_cons, hlater]
      rfl

/-- The tokens of a text are those that it is written with. -/
theorem map_tokens_of_written {toks : List Token} {t : Text} (h : Written toks t)
    (hsep : Separated toks) : (tokens t).map (·.2) = toks ++ [.finish] :=
  map_tokensFrom_of_written h hsep (Nat.lt_succ_self _) 0

end TextGrammar.Json
