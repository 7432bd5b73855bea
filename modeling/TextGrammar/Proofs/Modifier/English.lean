/-
# `TextGrammar.Proofs.Modifier.English` — what the modifiers do to a text

Capitalising every word goes through a text once and carries along whether a
letter would start a word.  Told without that, place by place: a letter or
digit of ASCII is in upper case if it is the first character or the one before
it is neither letter nor digit, and every other character stays
(`startsWord`).

    capitalizeAll_spec    what stands at each place; twice is once; and words
                          on the two sides of a separator do not see each other

In general one character becomes several in upper case (`ß` becomes `SS`) and
the places would move.  Here they do not, since no character outside ASCII is
ever raised: that is the one thing to be known of the case tables
(`upperChar_of_isAlphanum`).

Putting the first word in the plural cuts the text at single spaces, so that
spaces in front, behind and side by side make empty words, and joins the words
again.  The cutting and the joining undo each other however many empty words
there are (`Text.join_fields`), and the plural of an empty word is empty.

    pluralFirst_keeps_rest    the first word in the plural, and the text behind
                              it character for character
-/
import TextGrammar.Modifier.English
import TextGrammar.Proofs.Text.Fields

namespace TextGrammar.English

/-! ## Letters and digits -/

theorem isAlnum_eq (c : Char) : Text.isAlnum c = c.isAlphanum := by
  show ((decide ('a' ≤ c) && decide (c ≤ 'z') || decide ('A' ≤ c) && decide (c ≤ 'Z')) || _) =
    ((decide ('A' ≤ c ∧ c ≤ 'Z') || decide ('a' ≤ c) && decide (c ≤ 'z')) || _)
  rw [Bool.decide_and, Bool.or_comm (decide ('a' ≤ c) && decide (c ≤ 'z'))]
  rfl

theorem toNat_lt_of_isAlphanum {c : Char} (h : c.isAlphanum = true) : c.toNat < 128 := by
  rw [← isAlnum_eq, Text.isAlnum] at h
  simp only [Bool.or_eq_true, Bool.and_eq_true, decide_eq_true_eq, Char.le_def,
    UInt32.le_iff_toNat_le] at h
  rcases h with (⟨-, hz⟩ | ⟨-, hZ⟩) | ⟨-, h9⟩
  · exact Nat.lt_of_le_of_lt hz (by decide)
  · exact Nat.lt_of_le_of_lt hZ (by decide)
  · exact Nat.lt_of_le_of_lt h9 (by decide)

theorem forall_ascii {P : Char → Prop} (h : ∀ n : Fin 128, P (Char.ofNat n)) {c : Char}
    (hc : c.toNat < 128) : P c := by
  have hn := h ⟨c.toNat, hc⟩
  rwa [Char.ofNat_toNat] at hn

/-- The upper case of a letter or digit is one character, and again a letter
or digit. -/
theorem upperChar_of_isAlphanum {c : Char} (h : c.isAlphanum = true) :
    Text.upperChar c = [c.toUpper] ∧ c.toUpper.isAlphanum = true ∧
      c.toUpper.toUpper = c.toUpper := by
  refine forall_ascii (P := fun c => c.isAlphanum = true → Text.upperChar c = [c.toUpper] ∧
    c.toUpper.isAlphanum = true ∧ c.toUpper.toUpper = c.toUpper) ?_ (toNat_lt_of_isAlphanum h) h
  decide +kernel

/-! ## One character -/

/-- The character in upper case if it is a letter or digit that starts a
word. -/
def raise (start : Bool) (c : Char) : Char := if start && c.isAlphanum then c.toUpper else c

theorem isAlphanum_raise (start : Bool) (c : Char) :
    (raise start c).isAlphanum = c.isAlphanum := by
  rw [raise]
  split
  · next h =>
    rw [Bool.and_eq_true] at h
    rw [h.2, (upperChar_of_isAlphanum h.2).2.1]
  · rfl

theorem raise_raise (start : Bool) (c : Char) : raise start (raise start c) = raise start c := by
  rw [raise, isAlphanum_raise, raise]
  split
  · next h =>
    rw [Bool.and_eq_true] at h
    exact (upperChar_of_isAlphanum h.2).2.2
  · rfl

/-- A character tells whether the next one may start a word, whatever stood
before it. -/
theorem capitalizeFrom_cons (start : Bool) (c : Char) (cs : Text) :
    capitalizeFrom start (c :: cs) = raise start c :: capitalizeFrom (!c.isAlphanum) cs := by
  rw [capitalizeFrom, isAlnum_eq, raise]
  cases hc : c.isAlphanum with
  | false => simp
  | true =>
    cases start with
    | false => simp
    | true => simp [(upperChar_of_isAlphanum hc).1]

/-! ## Texts -/

theorem length_capitalizeFrom (start : Bool) (t : Text) :
    (capitalizeFrom start t).length = t.length := by
  induction t generalizing start with
  | nil => rfl
  | cons c cs ih => rw [capitalizeFrom_cons, List.length_cons, List.length_cons, ih]

theorem capitalizeFrom_idem (start : Bool) (t : Text) :
    capitalizeFrom start (capitalizeFrom start t) = capitalizeFrom start t := by
  induction t generalizing start with
  | nil => rfl
  | cons c cs ih =>
    rw [capitalizeFrom_cons, capitalizeFrom_cons, isAlphanum_raise, raise_raise, ih]

/-- Behind a separator the text is capitalised as if it stood alone. -/
theorem capitalizeFrom_append_cons {c : Char} (hc : c.isAlphanum = false) (start : Bool)
    (u v : Text) :
    capitalizeFrom start (u ++ c :: v) = capitalizeFrom start u ++ c :: capitalizeAll v := by
  induction u generalizing start with
  | nil =>
    rw [List.nil_append, capitalizeFrom_cons, raise, hc]
    simp [capitalizeFrom, capitalizeAll]
  | cons b u ih => rw [List.cons_append, capitalizeFrom_cons, capitalizeFrom_cons, ih, List.cons_append]

/-- Whether a letter or digit at the place would start a word, when the
character before the text says so for the first place. -/
def mayStart (start : Bool) (t : Text) : Nat → Bool
  | 0 => start
  | i + 1 => !t[i]?.any Char.isAlphanum

theorem mayStart_cons_succ (start : Bool) (c : Char) (cs : Text) (i : Nat) :
    mayStart start (c :: cs) (i + 1) = mayStart (!c.isAlphanum) cs i := by
  cases i <;> rfl

theorem getElem?_capitalizeFrom (start : Bool) (t : Text) (i : Nat) :
    (capitalizeFrom start t)[i]? = t[i]?.map (raise (mayStart start t i)) := by
  induction t generalizing start i with
  | nil => rfl
  | cons c cs ih =>
    rw [capitalizeFrom_cons]
    cases i with
    | zero => rfl
    | succ i => rw [List.getElem?_cons_succ, List.getElem?_cons_succ, ih, mayStart_cons_succ]

/-- Whether a letter or digit stands at the place, and none right before
it. -/
def startsWord (t : Text) (i : Nat) : Bool :=
  t[i]?.any Char.isAlphanum && (i == 0 || !t[i - 1]?.any Char.isAlphanum)

theorem raise_mayStart {t : Text} {i : Nat} {c : Char} (h : t[i]? = some c) :
    raise (mayStart true t i) c = if startsWord t i then c.toUpper else c := by
  rw [raise, startsWord, h, Option.any_some, Bool.and_comm]
  cases i <;> rfl

/-- **Capitalising raises exactly the first letter or digit of every run of
them.** -/
theorem capitalizeAll_spec (t : Text) :
    (capitalizeAll t).length = t.length ∧
    (∀ i, (capitalizeAll t)[i]? = t[i]?.map fun c => if startsWord t i then c.toUpper else c) ∧
    capitalizeAll (capitalizeAll t) = capitalizeAll t ∧
    ∀ u c v, c.isAlphanum = false →
      capitalizeAll (u ++ c :: v) = capitalizeAll u ++ c :: capitalizeAll v := by
  refine ⟨length_capitalizeFrom true t, fun i => ?_, capitalizeFrom_idem true t,
    fun u c v hc => capitalizeFrom_append_cons hc true u v⟩
  rw [capitalizeAll, getElem?_capitalizeFrom]
  cases h : t[i]? with
  | none => rfl
  | some c => rw [Option.map_some, Option.map_some, raise_mayStart h]

/-- The `ß` in `aß2b` separates, and stays. -/
theorem capitalizeAll_spec_sharp :
    'ß'.isAlphanum = false ∧ capitalizeAll ['a', 'ß', '2', 'b'] = ['A', 'ß', '2', 'b'] := by
  have hseparates : 'ß'.isAlphanum = false := by decide
  exact ⟨hseparates, (capitalizeAll_spec []).2.2.2 ['a'] 'ß' ['2', 'b'] hseparates⟩

/-! ## The first word -/

theorem pluralFirst_of_not_mem {u : Text} (hu : ' ' ∉ u) : pluralFirst u = plural u := by
  rw [pluralFirst, Text.fields_of_not_mem hu]
  rfl

theorem pluralFirst_append_cons {u : Text} (hu : ' ' ∉ u) (v : Text) :
    pluralFirst (u ++ ' ' :: v) = plural u ++ ' ' :: v := by
  rw [pluralFirst, Text.fields_append_cons hu]
  show Text.join [' '] (plural u :: Text.fields ' ' v) = plural u ++ ' ' :: v
  rw [Text.join_cons (Text.fields_ne_nil ' ' v), Text.join_fields, List.append_assoc,
    List.singleton_append]

/-- **Only the first word is put in the plural**, and what follows it stays
character for character.  The plural of an empty word is empty, so a text that
starts with a space stays as it is. -/
theorem pluralFirst_keeps_rest :
    (∀ u, ' ' ∉ u → pluralFirst u = plural u ∧
      ∀ v, pluralFirst (u ++ ' ' :: v) = plural u ++ ' ' :: v) ∧
    (∀ v, pluralFirst (' ' :: v) = ' ' :: v) ∧
    pluralFirst [] = [] := by
  have hempty : ' ' ∉ ([] : Text) := List.not_mem_nil
  exact ⟨fun u hu => ⟨pluralFirst_of_not_mem hu, pluralFirst_append_cons hu⟩,
    pluralFirst_append_cons hempty, pluralFirst_of_not_mem hempty⟩

/-- A bare `y` in front of another one, of an empty word and of nothing. -/
theorem pluralFirst_keeps_rest_bare :
    ' ' ∉ ['y'] ∧ pluralFirst "y".toList = "ies".toList ∧
      pluralFirst "y y  ".toList = "ies y  ".toList := by
  have hword : ' ' ∉ ['y'] := by decide
  obtain ⟨halone, hrest⟩ := pluralFirst_keeps_rest.1 ['y'] hword
  exact ⟨hword, halone, hrest ['y', ' ', ' ']⟩

end TextGrammar.English
