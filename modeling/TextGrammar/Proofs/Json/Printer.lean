/-
# `TextGrammar.Proofs.Json.Printer` — reports are read back

What is printed of a report is a JSON text, and the parser reads it as the
report that was printed:

    parse_render    parse (render r) is the value of r

A report is a document whose objects have their members in the order of their
keys (`document`), and it is printed as that document is written
(`writtenAs_render`).  From there on what holds of every spelling of a document
holds of this one.  Two things can be in the way.  An object with a key twice
has no value, and a number can have more digits than the parser reads (`Short`).

The text is plain: it has no escape character (`escape_not_mem_render`), so that
nothing in it is taken for a control sequence.
-/
import TextGrammar.Json.Printer
import TextGrammar.Proofs.Json.Document
import TextGrammar.Proofs.Number.Numeral
import TextGrammar.Proofs.Text.Fields

namespace TextGrammar.Json

/-! ## Objects with their keys once -/

namespace Document

theorem keysOnce_scalar (s : Scalar) : (scalar s).KeysOnce := by
  rintro members ⟨⟩

theorem keysOnce_array {items : List Document} (h : ∀ d ∈ items, d.KeysOnce) :
    (array items).KeysOnce := by
  intro members hwithin
  cases hwithin with
  | item he hwithin => exact h _ he members hwithin

theorem keysOnce_object {ms : List (Text × Document)} (hkeys : (ms.map (·.1)).Nodup)
    (h : ∀ m ∈ ms, m.2.KeysOnce) : (object ms).KeysOnce := by
  intro members hwithin
  cases hwithin with
  | self => exact hkeys
  | member he hwithin => exact h _ he members hwithin

end Document

namespace Report

/-- What holds of an array when it holds of its items, and of an object when it
holds in its members, holds of every report. -/
theorem induction {P : Report → Prop} (null : P .null) (flag : ∀ b, P (.flag b))
    (count : ∀ n, P (.count n)) (text : ∀ t, P (.text t))
    (array : ∀ items, (∀ r ∈ items, P r) → P (.array items))
    (object : ∀ members, (∀ m ∈ members, P m.2) → P (.object members)) : ∀ r, P r
  | .null => null
  | .flag b => flag b
  | .count n => count n
  | .text t => text t
  | .array items => by
    refine array items ?_
    intro r hr
    have hsize := List.sizeOf_lt_of_mem hr
    exact induction null flag count text array object r
  | .object members => by
    refine object members ?_
    intro m hm
    have hsize := List.sizeOf_lt_of_mem hm
    exact induction null flag count text array object m.2
termination_by r => sizeOf r
decreasing_by
  · simp only [Report.array.sizeOf_spec]
    omega
  · obtain ⟨k, r⟩ := m
    simp only [Prod.mk.sizeOf_spec] at hsize
    simp only [Report.object.sizeOf_spec]
    omega

/-! ## Reports as documents -/

mutual

/-- The document that a report is. -/
def document : Report → Document
  | .null => .scalar .null
  | .flag b => .scalar (.bool b)
  | .count n => .scalar (.int n)
  | .text t => .text t
  | .array items => .array (itemDocuments items)
  | .object members =>
    .object ((memberDocuments members).mergeSort fun a b => Text.le a.1 b.1)

/-- The document of each item. -/
def itemDocuments : List Report → List Document
  | [] => []
  | r :: rs => document r :: itemDocuments rs

/-- The members with their documents. -/
def memberDocuments : List (Text × Report) → List (Text × Document)
  | [] => []
  | (k, r) :: rest => (k, document r) :: memberDocuments rest

end

theorem itemDocuments_eq_map (items : List Report) : itemDocuments items = items.map document := by
  induction items with
  | nil => rfl
  | cons r rs ih => rw [itemDocuments, ih, List.map_cons]

theorem memberDocuments_eq_map (members : List (Text × Report)) :
    memberDocuments members = members.map fun m => (m.1, m.2.document) := by
  induction members with
  | nil => rfl
  | cons m ms ih =>
    obtain ⟨k, r⟩ := m
    rw [memberDocuments, ih, List.map_cons]

theorem renderItems_eq_map (depth : Nat) (items : List Report) :
    renderItems depth items = items.map (render depth) := by
  induction items with
  | nil => rfl
  | cons r rs ih => rw [renderItems, ih, List.map_cons]

/-- The line of a member of an object. -/
def memberLine (depth : Nat) (m : Text × Report) : Text :=
  quote m.1 ++ ": ".toList ++ render depth m.2

theorem renderMembers_eq_map (depth : Nat) (members : List (Text × Report)) :
    renderMembers depth members = members.map fun m => (m.1, memberLine depth m) := by
  induction members with
  | nil => rfl
  | cons m ms ih =>
    obtain ⟨k, r⟩ := m
    rw [renderMembers, ih, List.map_cons]
    rfl

/-- The members of an object in the order of their keys. -/
def inOrder (members : List (Text × Report)) : List (Text × Report) :=
  members.mergeSort fun a b => Text.le a.1 b.1

theorem mem_inOrder {m : Text × Report} {members : List (Text × Report)} :
    m ∈ inOrder members ↔ m ∈ members := (List.mergeSort_perm _ _).mem_iff

theorem document_object (members : List (Text × Report)) :
    (object members).document = .object ((inOrder members).map fun m => (m.1, m.2.document)) := by
  rw [document, memberDocuments_eq_map, inOrder, List.map_mergeSort]
  exact fun _ _ _ _ => rfl

theorem render_object (depth : Nat) (members : List (Text × Report)) :
    render depth (object members) =
      bracketed '\x7b' '\x7d' depth ((inOrder members).map (memberLine (depth + 1))) := by
  rw [render, renderMembers_eq_map, inOrder, ← List.map_mergeSort (r := fun a b => Text.le a.1 b.1),
    List.map_map]
  · rfl
  · exact fun _ _ _ _ => rfl

theorem keysOnce_text (t : Text) : (text t).document.KeysOnce := by
  rintro members ⟨⟩

theorem keysOnce_array {items : List Report} (h : ∀ r ∈ items, r.document.KeysOnce) :
    (array items).document.KeysOnce := by
  rw [document, itemDocuments_eq_map]
  exact Document.keysOnce_array (List.forall_mem_map.mpr h)

theorem keysOnce_object {members : List (Text × Report)} (hkeys : (members.map (·.1)).Nodup)
    (h : ∀ m ∈ members, m.2.document.KeysOnce) : (object members).document.KeysOnce := by
  rw [document_object]
  refine Document.keysOnce_object ?_ ?_
  · rw [List.map_map]
    exact ((List.mergeSort_perm _ _).map _).nodup_iff.mpr hkeys
  · rw [List.forall_mem_map]
    exact fun m hm => h m (mem_inOrder.mp hm)

/-- No number in a report has more digits than are read of a number. -/
def Short (r : Report) : Prop :=
  ∀ n : Nat, Document.Within (.scalar (.int n)) r.document →
    (Text.ofNat n).length ≤ Numeral.maxDecimalDigits

theorem Short.item {items : List Report} (h : (array items).Short) {r : Report} (hr : r ∈ items) :
    r.Short := by
  intro n hn
  refine h n ?_
  rw [document, itemDocuments_eq_map]
  exact .item (List.mem_map_of_mem hr) hn

theorem Short.member {members : List (Text × Report)} (h : (object members).Short)
    {m : Text × Report} (hm : m ∈ members) : m.2.Short := by
  intro n hn
  refine h n ?_
  rw [document_object]
  exact .member (List.mem_map_of_mem (f := fun m => (m.1, m.2.document)) (mem_inOrder.mpr hm)) hn

/-! ## Texts and numbers -/

/-- A code in four digits is read as itself. -/
theorem isCode_ofNatHex {n : Nat} (h : n < 0x10000) : IsCode (Text.ofNatHex 4 n) n := by
  have hlength : (Nat.toDigits 16 n).length ≤ 4 :=
    (Nat.length_toDigits_le_iff (by decide) (by decide)).mpr h
  refine ⟨?_, ?_, ?_⟩
  · rw [Text.ofNatHex, List.length_append, List.length_replicate]
    omega
  · intro c hc
    rcases List.mem_append.mp hc with hc | hc
    · rw [List.eq_of_mem_replicate hc]
      rfl
    · exact Numeral.isDigitOf_of_mem_toDigits (by decide) (by decide) hc
  · rw [Text.ofNatHex, Numeral.readNat_replicate_zero]
    exact Numeral.readNat_toDigits (by decide) (by decide) n

theorem eq_ofNat {c : Char} {n : Nat} (h : c.toNat = n) : c = Char.ofNat n := by
  rw [← h, Char.ofNat_toNat]

/-- A character is no half of a pair. -/
theorem not_half (c : Char) : isHigh c.toNat = false ∧ isLow c.toNat = false := by
  have hvalid : c.toNat < 0xd800 ∨ 0xdfff < c.toNat ∧ c.toNat < 0x110000 := c.valid
  constructor
  · simp only [isHigh, Bool.and_eq_false_iff, decide_eq_false_iff_not]
    omega
  · simp only [isLow, Bool.and_eq_false_iff, decide_eq_false_iff_not]
    omega

/-- The halves of a code are halves of a pair, and are joined to it. -/
theorem halves {m : Nat} (h : m < 0x100000) :
    isHigh (0xd800 + m / 0x400) = true ∧ isLow (0xdc00 + m % 0x400) = true ∧
      joinHalves (0xd800 + m / 0x400) (0xdc00 + m % 0x400) = 0x10000 + m := by
  refine ⟨?_, ?_, ?_⟩
  · simp only [isHigh, Bool.and_eq_true, decide_eq_true_eq]
    omega
  · simp only [isLow, Bool.and_eq_true, decide_eq_true_eq]
    omega
  · unfold joinHalves
    omega

theorem spells_pair {w t : Text} (h : Spells w t) {c : Char} (hc : 0x10000 ≤ c.toNat) :
    Spells (escapeUnit (0xd800 + (c.toNat - 0x10000) / 0x400)
      ++ escapeUnit (0xdc00 + (c.toNat - 0x10000) % 0x400) ++ w) (c :: t) := by
  have hvalid : c.toNat < 0xd800 ∨ 0xdfff < c.toNat ∧ c.toNat < 0x110000 := c.valid
  obtain ⟨m, hm⟩ := Nat.exists_eq_add_of_le hc
  have hlt : m < 0x100000 := by omega
  rw [show c.toNat - 0x10000 = m by omega]
  obtain ⟨hhigh, hlow, hjoin⟩ := halves hlt
  have hcodes : 0xd800 + m / 0x400 < 0x10000 ∧ 0xdc00 + m % 0x400 < 0x10000 := by omega
  have hspells := Spells.pair (isCode_ofNatHex hcodes.1) hhigh (isCode_ofNatHex hcodes.2) hlow h
  rw [hjoin, ← hm, Char.ofNat_toNat] at hspells
  rw [escapeUnit, escapeUnit, List.append_assoc]
  exact hspells

theorem spells_letter {e x c : Char} {w t : Text} (he : escaped? e = some x) (hc : c = x)
    (h : Spells w t) : Spells ('\\' :: e :: w) (c :: t) := by
  subst hc
  exact .escape he h

/-- What is printed of a character spells it. -/
theorem spells_escapeChar {w t : Text} (h : Spells w t) (c : Char) :
    Spells (escapeChar c ++ w) (c :: t) := by
  rw [escapeChar]
  split
  · next hc => exact spells_letter rfl hc h
  split
  · next hc => exact spells_letter rfl hc h
  split
  · next hc => exact spells_letter rfl hc h
  split
  · next hc => exact spells_letter rfl hc h
  split
  · next hc => exact spells_letter rfl hc h
  split
  · next hc => exact spells_letter rfl (eq_ofNat hc) h
  split
  · next hc => exact spells_letter rfl (eq_ofNat hc) h
  split
  -- a character of ASCII that has no letter stands for itself
  · next hquote hslash _ _ _ _ _ hc => exact .plain hquote hslash hc.1 h
  split
  · next hc =>
    have hspells := Spells.code (isCode_ofNatHex hc) (not_half c).1 (not_half c).2 h
    rw [Char.ofNat_toNat] at hspells
    exact hspells
  · next hc => exact spells_pair h (Nat.not_lt.mp hc)

theorem spells_quoted (t : Text) : Spells (t.flatMap escapeChar) t := by
  induction t with
  | nil => exact .nil
  | cons c t ih =>
    rw [List.flatMap_cons]
    exact spells_escapeChar ih c

theorem lexeme_quote (t : Text) : Lexeme (.text (.ok t)) (quote t) := .text (spells_quoted t)

theorem lexeme_ofNat {n : Nat} (h : (Text.ofNat n).length ≤ Numeral.maxDecimalDigits) :
    Lexeme (.scalar (.ok (.int n))) (Text.ofNat n) := by
  have hwhole : Whole (Text.ofNat n) := by
    by_cases hn : n = 0
    · subst hn
      exact .inl rfl
    · refine .inr ⟨⟨Nat.toDigits_ne_nil, ?_⟩, Numeral.head?_toDigits hn⟩
      intro c hc
      exact Nat.isDigit_of_mem_toDigits (by decide) (by decide) hc
  exact .number (.int ⟨.inl rfl, hwhole, .inl rfl, .inl rfl⟩ (Numeral.readInt_ofNat h))

/-! ## Lines between brackets -/

theorem gap_newLine (depth : Nat) : Gap (newLine depth) := by
  refine List.forall_mem_cons.mpr ⟨rfl, ?_⟩
  intro c hc
  rw [List.eq_of_mem_replicate hc]
  rfl

/-- Tokens behind those of a line, up to a closing bracket. -/
def laterLines (closing : Token) : List (List Token) → List Token
  | [] => [closing]
  | ts :: rest => .comma :: (ts ++ laterLines closing rest)

section Brackets

variable {opening closing : Token} {open' close : Char} {ts : List Token} {tss : List (List Token)}
  {line : Text} {lines : List Text}

/-- Lines with commas between them are written as the tokens in them. -/
theorem written_lines (hclose : Lexeme closing [close]) (depth : Nat) (hline : Written ts line)
    (hlines : List.Forall₂ Written tss lines) :
    Written (ts ++ laterLines closing tss)
      (Text.join (',' :: newLine (depth + 1)) (line :: lines) ++ newLine depth ++ [close]) := by
  induction hlines generalizing ts line with
  | nil =>
    rw [Text.join, List.append_assoc]
    exact hline.append ((written_singleton hclose).behind_gap (gap_newLine depth))
  | cons hnext _ ih =>
    have hrest := (ih hnext).behind_gap (gap_newLine (depth + 1))
    have hcomma := hline.append (hrest.behind_lexeme .comma)
    rw [Text.join_cons (List.cons_ne_nil _ _)]
    simp only [List.append_assoc, List.cons_append, List.nil_append] at hcomma ⊢
    exact hcomma

theorem written_bracketed (hopen : Lexeme opening [open']) (hclose : Lexeme closing [close])
    (depth : Nat) (hline : Written ts line) (hlines : List.Forall₂ Written tss lines) :
    Written (opening :: (ts ++ laterLines closing tss))
      (bracketed open' close depth (line :: lines)) := by
  have hinside := (written_lines hclose depth hline hlines).behind_gap (gap_newLine (depth + 1))
  have h := hinside.behind_lexeme hopen
  rw [bracketed, if_neg (by rw [List.isEmpty_cons]; decide)]
  simp only [List.append_assoc, List.cons_append, List.nil_append] at h ⊢
  exact h

end Brackets

theorem laterItems_eq (ds : List Document) :
    Document.laterItems ds = laterLines .closeArray (ds.map Document.tokens) := by
  induction ds with
  | nil => rfl
  | cons d ds ih => rw [Document.laterItems, ih, List.map_cons, laterLines]

theorem writtenAs_array {ds : List Document} {lines : List Text}
    (h : List.Forall₂ Document.WrittenAs ds lines) (depth : Nat) :
    (Document.array ds).WrittenAs (bracketed '[' ']' depth lines) := by
  cases h with
  | nil =>
    rw [Document.WrittenAs, Document.tokens]
    exact (written_singleton .closeArray).behind_lexeme .openArray
  | cons hline hlines =>
    rw [Document.WrittenAs, Document.tokens, laterItems_eq]
    exact written_bracketed .openArray .closeArray depth hline (List.forall₂_map_left_iff.mpr hlines)

/-- The tokens of a member of an object. -/
def memberTokens (m : Text × Document) : List Token :=
  .text (.ok m.1) :: .colon :: m.2.tokens

theorem laterMembers_eq (ms : List (Text × Document)) :
    Document.laterMembers ms = laterLines .closeObject (ms.map memberTokens) := by
  induction ms with
  | nil => rfl
  | cons m ms ih =>
    obtain ⟨k, d⟩ := m
    rw [Document.laterMembers, ih, List.map_cons, laterLines]
    rfl

theorem writtenAs_object {ms : List (Text × Document)} {lines : List Text}
    (h : List.Forall₂ (fun m => Written (memberTokens m)) ms lines) (depth : Nat) :
    (Document.object ms).WrittenAs (bracketed '\x7b' '\x7d' depth lines) := by
  cases h with
  | nil =>
    rw [Document.WrittenAs, Document.tokens]
    exact (written_singleton .closeObject).behind_lexeme .openObject
  | @cons m line ms lines hline hlines =>
    obtain ⟨k, d⟩ := m
    rw [Document.WrittenAs, Document.tokens, laterMembers_eq]
    exact written_bracketed .openObject .closeObject depth hline
      (List.forall₂_map_left_iff.mpr hlines)

/-! ## Whole reports -/

/-- A report is printed as the document that it is. -/
theorem writtenAs_render {r : Report} (h : r.Short) (depth : Nat) :
    r.document.WrittenAs (render depth r) := by
  induction r using Report.induction generalizing depth with
  | null =>
    rw [document, render]
    exact written_singleton (.word (s := .null) List.mem_cons_self)
  | flag b =>
    rw [document, render]
    have hword : ((if b then "true".toList else "false".toList), (Scalar.bool b).value) ∈ words := by
      cases b <;> simp [words, Scalar.value]
    exact written_singleton (.word hword)
  | count n =>
    rw [document, render]
    exact written_singleton (lexeme_ofNat (h n .self))
  | text t =>
    rw [document, render]
    exact written_singleton (lexeme_quote t)
  | array items ih =>
    rw [document, itemDocuments_eq_map, render, renderItems_eq_map]
    refine writtenAs_array ?_ depth
    rw [List.forall₂_map_left_iff, List.forall₂_map_right_iff, List.forall₂_same]
    intro r hr
    exact ih r hr (h.item hr) (depth + 1)
  | object members ih =>
    -- both have the members in the order of their keys, so they go in step
    rw [document_object, render_object]
    refine writtenAs_object ?_ depth
    rw [List.forall₂_map_left_iff, List.forall₂_map_right_iff, List.forall₂_same]
    intro m hm
    have hmem := mem_inOrder.mp hm
    have hblank : Gap [' '] := List.forall_mem_singleton.mpr rfl
    have hcolon := ((ih m hmem (h.member hmem) (depth + 1)).behind_gap hblank).behind_lexeme .colon
    rw [memberLine, List.append_assoc]
    exact hcolon.behind_lexeme (lexeme_quote m.1)

/-- **A report is read back from what is printed of it.** -/
theorem parse_render {r : Report} (hkeys : r.document.KeysOnce) (hshort : r.Short) :
    parse (render 0 r ++ ['\n']) = .ok r.document.value := by
  have hgap : Gap ['\n'] := List.forall_mem_singleton.mpr rfl
  have hwritten := (writtenAs_render hshort 0).append (.nil hgap)
  rw [List.append_nil] at hwritten
  rw [parse_of_written hwritten, closing, findSome?_repeated?_eq_none_iff.mpr hkeys]

/-! ## Escape characters -/

theorem escape_not_mem_of_isDigitOf {base : Nat} {ds : Text}
    (h : ∀ c ∈ ds, Numeral.isDigitOf base c = true) : '\x1b' ∉ ds := by
  intro hmem
  cases h _ hmem

/-- What stands between quotes is free of control characters. -/
theorem escape_not_mem_of_spells {w t : Text} (h : Spells w t) : '\x1b' ∉ w := by
  induction h with
  | nil => exact List.not_mem_nil
  | plain _ _ hspace _ ih =>
    rw [List.mem_cons, not_or]
    refine ⟨?_, ih⟩
    -- an escape character is below the blank, and never stands as it is
    rintro rfl
    exact absurd hspace (by decide)
  | escape he _ ih =>
    rw [List.mem_cons, List.mem_cons, not_or, not_or]
    refine ⟨by decide, ?_, ih⟩
    rintro rfl
    cases he
  | code hcode _ _ _ ih =>
    simp only [List.mem_cons, List.mem_append, not_or]
    exact ⟨by decide, by decide, escape_not_mem_of_isDigitOf hcode.2.1, ih⟩
  | pair hcode _ hcode' _ _ ih =>
    simp only [List.mem_cons, List.mem_append, not_or]
    exact ⟨by decide, by decide, escape_not_mem_of_isDigitOf hcode.2.1, by decide, by decide,
      escape_not_mem_of_isDigitOf hcode'.2.1, ih⟩

theorem escape_not_mem_quote (t : Text) : '\x1b' ∉ quote t := by
  rw [quote, List.cons_append, List.mem_cons, List.mem_append, List.mem_singleton, not_or, not_or]
  exact ⟨by decide, escape_not_mem_of_spells (spells_quoted t), by decide⟩

theorem escape_not_mem_newLine (depth : Nat) : '\x1b' ∉ newLine depth := by
  intro h
  rcases List.mem_cons.mp h with h | h
  · cases h
  · cases List.eq_of_mem_replicate h

theorem escape_not_mem_bracketed {open' close : Char} (hopen : '\x1b' ≠ open')
    (hclose : '\x1b' ≠ close) (depth : Nat) {lines : List Text} (h : ∀ l ∈ lines, '\x1b' ∉ l) :
    '\x1b' ∉ bracketed open' close depth lines := by
  have hjoin : '\x1b' ∉ Text.join (',' :: newLine (depth + 1)) lines := by
    intro hj
    rcases Text.mem_join hj with hs | ⟨l, hl, hmem⟩
    · rcases List.mem_cons.mp hs with hcomma | hs
      · cases hcomma
      · exact escape_not_mem_newLine _ hs
    · exact h l hl hmem
  rw [bracketed]
  split
  · simp only [List.mem_cons, List.not_mem_nil, or_false, not_or]
    exact ⟨hopen, hclose⟩
  · simp only [List.cons_append, List.mem_cons, List.mem_append, List.not_mem_nil, or_false, not_or]
    exact ⟨hopen, ⟨⟨escape_not_mem_newLine _, hjoin⟩, escape_not_mem_newLine _⟩, hclose⟩

theorem escape_not_mem_render (r : Report) (depth : Nat) : '\x1b' ∉ render depth r := by
  induction r using Report.induction generalizing depth with
  | null =>
    rw [render]
    decide
  | flag b =>
    rw [render]
    cases b <;> decide
  | count n =>
    rw [render]
    have hdigits : ∀ c ∈ Text.ofNat n, Numeral.isDigitOf 10 c = true := fun c hc =>
      Numeral.isDigitOf_of_mem_toDigits (by decide) (by decide) hc
    exact escape_not_mem_of_isDigitOf hdigits
  | text t =>
    rw [render]
    exact escape_not_mem_quote t
  | array items ih =>
    rw [render, renderItems_eq_map]
    refine escape_not_mem_bracketed (by decide) (by decide) depth ?_
    intro l hl
    obtain ⟨r, hr, rfl⟩ := List.mem_map.mp hl
    exact ih r hr (depth + 1)
  | object members ih =>
    rw [render_object]
    refine escape_not_mem_bracketed (by decide) (by decide) depth ?_
    intro l hl
    obtain ⟨m, hm, rfl⟩ := List.mem_map.mp hl
    have hvalue := ih m (mem_inOrder.mp hm) (depth + 1)
    rw [memberLine, List.mem_append, List.mem_append, not_or, not_or]
    exact ⟨⟨escape_not_mem_quote m.1, by decide⟩, hvalue⟩

end Report

end TextGrammar.Json
