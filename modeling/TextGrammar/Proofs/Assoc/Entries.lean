/-
# `TextGrammar.Proofs.Assoc.Entries` — maps that entries make

Inserted from left to right, entries make a map in which every key has one
place and one value.  The two need not belong together: the place is that of
the first entry with the key, and the value is that of the last one.

    comesBefore_keys_ofEntries    the keys stand in the order of first entries
    get?_ofEntries_of_last        the value is that of the last entry

The entries of one key may thus have others between them that come before its
value was given and yet stand behind it in the map.
-/
import TextGrammar.Proofs.Assoc

namespace TextGrammar.Assoc

variable {κ α : Type} [BEq κ] [LawfulBEq κ]

/-! ## Keys in order -/

/-- A fresh key goes to the end, a known one stays where it is. -/
theorem keys_insert (m : Assoc κ α) (k : κ) (a : α) :
    keys (insert m k a) = if k ∈ keys m then keys m else keys m ++ [k] := by
  induction m with
  | nil => simp [insert, keys]
  | cons e m ih =>
    obtain ⟨k', a'⟩ := e
    show keys (insert ((k', a') :: m) k a) =
      if k ∈ k' :: keys m then k' :: keys m else k' :: keys m ++ [k]
    rw [insert]
    by_cases hk : k = k'
    · rw [if_pos (by simp [hk]), if_pos (by simp [hk])]
      rfl
    · rw [if_neg (by simp [hk])]
      show k' :: keys (insert m k a) = _
      rw [ih]
      by_cases hm : k ∈ keys m
      · rw [if_pos hm, if_pos (List.mem_cons_of_mem k' hm)]
      · rw [if_neg hm, if_neg (by simp [hk, hm])]
        rfl

theorem mem_keys_insert_iff {m : Assoc κ α} {k k' : κ} {a : α} :
    k' ∈ keys (insert m k a) ↔ k' = k ∨ k' ∈ keys m := by
  rw [keys_insert]
  split
  · next hk =>
    refine (or_iff_right_of_imp ?_).symm
    rintro rfl
    exact hk
  · rw [List.mem_append, List.mem_singleton, or_comm]

theorem nodup_keys_insert {m : Assoc κ α} (h : (keys m).Nodup) (k : κ) (a : α) :
    (keys (insert m k a)).Nodup := by
  rw [keys_insert]
  split
  · exact h
  · next hk =>
    rw [List.nodup_append]
    refine ⟨h, by simp, ?_⟩
    rintro x hx y hy rfl
    exact hk (List.mem_singleton.mp hy ▸ hx)

/-! ## Which key comes first -/

/-- In a list, `a` comes before the first `b`, if there is a `b` at all. -/
def ComesBefore (a b : κ) (l : List κ) : Prop :=
  ∃ front back, l = front ++ back ∧ a ∈ front ∧ b ∉ front

omit [BEq κ] [LawfulBEq κ] in
theorem mem_of_comesBefore {a b : κ} {front back : List κ}
    (h : ComesBefore a b (front ++ b :: back)) : a ∈ front := by
  obtain ⟨u, w, hl, ha, hu⟩ := h
  rcases List.append_eq_append_iff.mp hl with ⟨c, rfl, hc⟩ | ⟨c, rfl, -⟩
  · cases c with
    | nil => simpa using ha
    | cons x c =>
      obtain ⟨rfl, -⟩ := List.cons.inj hc
      exact absurd (List.mem_append_right _ List.mem_cons_self) hu
  · exact List.mem_append_left c ha

omit [BEq κ] [LawfulBEq κ] in
theorem comesBefore_append_cons_iff {a b : κ} {front back : List κ} (hb : b ∉ front) :
    ComesBefore a b (front ++ b :: back) ↔ a ∈ front :=
  ⟨mem_of_comesBefore, fun ha => ⟨front, b :: back, rfl, ha, hb⟩⟩

omit [BEq κ] [LawfulBEq κ] in
/-- What is repeated does not count. -/
theorem comesBefore_append_cons_of_mem {a b k : κ} {u w : List κ} (hk : k ∈ u) :
    ComesBefore a b (u ++ k :: w) ↔ ComesBefore a b (u ++ w) := by
  constructor
  · rintro ⟨front, back, hl, ha, hb⟩
    rcases List.append_eq_append_iff.mp hl with ⟨c, rfl, hc⟩ | ⟨c, rfl, -⟩
    · cases c with
      | nil => exact ⟨u, w, rfl, by simpa using ha, by simpa using hb⟩
      | cons x c =>
        obtain ⟨rfl, rfl⟩ := List.cons.inj hc
        refine ⟨u ++ c, back, (List.append_assoc u c back).symm, ?_, ?_⟩
        · rcases List.mem_append.mp ha with ha | ha
          · exact List.mem_append_left c ha
          · rcases List.mem_cons.mp ha with rfl | ha
            · exact List.mem_append_left c hk
            · exact List.mem_append_right u ha
        · intro hm
          apply hb
          rcases List.mem_append.mp hm with hm | hm
          · exact List.mem_append_left _ hm
          · exact List.mem_append_right u (List.mem_cons_of_mem _ hm)
    · exact ⟨front, c ++ w, List.append_assoc front c w, ha, hb⟩
  · rintro ⟨front, back, hl, ha, hb⟩
    rcases List.append_eq_append_iff.mp hl with ⟨c, rfl, rfl⟩ | ⟨c, rfl, -⟩
    · refine ⟨u ++ k :: c, back, by simp, ?_, ?_⟩
      · rcases List.mem_append.mp ha with ha | ha
        · exact List.mem_append_left _ ha
        · exact List.mem_append_right u (List.mem_cons_of_mem k ha)
      · intro hm
        apply hb
        rcases List.mem_append.mp hm with hm | hm
        · exact List.mem_append_left c hm
        · rcases List.mem_cons.mp hm with rfl | hm
          · exact List.mem_append_left c hk
          · exact List.mem_append_right u hm
    · exact ⟨front, c ++ k :: w, List.append_assoc front c _, ha, hb⟩

/-! ## Inserting entries -/

/-- The map with entries inserted from left to right. -/
def insertAll (m : Assoc κ α) (es : List (κ × α)) : Assoc κ α :=
  es.foldl (fun m e => insert m e.1 e.2) m

theorem comesBefore_keys_insertAll {a b : κ} {m : Assoc κ α} {es : List (κ × α)} :
    ComesBefore a b (keys (insertAll m es)) ↔ ComesBefore a b (keys m ++ keys es) := by
  induction es generalizing m with
  | nil =>
    show ComesBefore a b (keys m) ↔ ComesBefore a b (keys m ++ [])
    rw [List.append_nil]
  | cons e es ih =>
    refine Iff.trans (ih (m := insert m e.1 e.2)) ?_
    show _ ↔ ComesBefore a b (keys m ++ e.1 :: keys es)
    rw [keys_insert]
    split
    · next hk => exact (comesBefore_append_cons_of_mem hk).symm
    · rw [List.append_assoc, List.singleton_append]

/-- The order of a map is that of the first entries. -/
theorem comesBefore_keys_ofEntries {a b : κ} {es : List (κ × α)} :
    ComesBefore a b (keys (ofEntries es)) ↔ ComesBefore a b (keys es) :=
  comesBefore_keys_insertAll (m := [])

theorem nodup_keys_insertAll {m : Assoc κ α} (h : (keys m).Nodup) (es : List (κ × α)) :
    (keys (insertAll m es)).Nodup := by
  induction es generalizing m with
  | nil => exact h
  | cons e es ih => exact ih (nodup_keys_insert h e.1 e.2)

theorem nodup_keys_ofEntries (es : List (κ × α)) : (keys (ofEntries es)).Nodup :=
  nodup_keys_insertAll (m := []) List.nodup_nil es

theorem mem_keys_insertAll_iff {m : Assoc κ α} {es : List (κ × α)} {k : κ} :
    k ∈ keys (insertAll m es) ↔ k ∈ keys m ∨ k ∈ keys es := by
  induction es generalizing m with
  | nil => exact (or_iff_left List.not_mem_nil).symm
  | cons e es ih =>
    refine Iff.trans (ih (m := insert m e.1 e.2)) ?_
    rw [mem_keys_insert_iff]
    show _ ↔ k ∈ keys m ∨ k ∈ e.1 :: keys es
    rw [List.mem_cons, or_comm (a := k = e.1), or_assoc]

theorem mem_keys_ofEntries_iff {es : List (κ × α)} {k : κ} :
    k ∈ keys (ofEntries es) ↔ k ∈ keys es := by
  refine Iff.trans (mem_keys_insertAll_iff (m := [])) ?_
  exact or_iff_right List.not_mem_nil

theorem get?_insertAll_of_not_mem {m : Assoc κ α} {es : List (κ × α)} {k : κ}
    (h : k ∉ keys es) : get? (insertAll m es) k = get? m k := by
  induction es generalizing m with
  | nil => rfl
  | cons e es ih =>
    have hk : ¬ k = e.1 := fun he => h (he ▸ List.mem_cons_self)
    refine (ih (m := insert m e.1 e.2) fun hm => h (List.mem_cons_of_mem _ hm)).trans ?_
    rw [get?_insert, if_neg (by simpa using hk)]

/-- The value of a map is that of the last entry. -/
theorem get?_ofEntries_of_last {es before after : List (κ × α)} {k : κ} {a : α}
    (hes : es = before ++ (k, a) :: after) (h : k ∉ keys after) :
    get? (ofEntries es) k = some a := by
  have hall : ofEntries es = insertAll (insert (ofEntries before) k a) after := by
    rw [hes]
    exact List.foldl_append
  rw [hall, get?_insertAll_of_not_mem h, get?_insert, if_pos (beq_self_eq_true k)]

/-- Every key has a last entry. -/
theorem exists_last_of_mem_keys {es : List (κ × α)} {k : κ} (h : k ∈ keys es) :
    ∃ before a after, es = before ++ (k, a) :: after ∧ k ∉ keys after := by
  induction es with
  | nil => exact absurd h List.not_mem_nil
  | cons e es ih =>
    by_cases hk : k ∈ keys es
    · obtain ⟨before, a, after, rfl, hafter⟩ := ih hk
      exact ⟨e :: before, a, after, rfl, hafter⟩
    · obtain ⟨k', a⟩ := e
      obtain rfl : k = k' := (List.mem_cons.mp h).resolve_right hk
      exact ⟨[], a, es, rfl, hk⟩

omit [BEq κ] [LawfulBEq κ] in
theorem keys_append_cons (front back : List (κ × α)) (k : κ) (a : α) :
    keys (front ++ (k, a) :: back) = keys front ++ k :: keys back :=
  List.map_append

theorem get?_append_cons {front back : List (κ × α)} {k : κ} {a : α} (h : k ∉ keys front) :
    get? (front ++ (k, a) :: back) k = some a := by
  induction front with
  | nil => rw [List.nil_append, get?, if_pos (beq_self_eq_true k)]
  | cons e front ih =>
    have hk : ¬ k = e.1 := fun he => h (he ▸ List.mem_cons_self)
    rw [List.cons_append, get?, if_neg (by simpa using hk)]
    exact ih fun hm => h (List.mem_cons_of_mem _ hm)

/-! ## A place in a map that entries make -/

variable {es front back : List (κ × α)} {k : κ} {a : α}

/-- No key stands at two places. -/
theorem not_mem_of_ofEntries_eq (h : ofEntries es = front ++ (k, a) :: back) :
    k ∉ keys front ∧ k ∉ keys back ∧ ∀ n ∈ keys front, n ∉ k :: keys back := by
  have hnodup := nodup_keys_ofEntries es
  rw [h, keys_append_cons, List.nodup_append] at hnodup
  obtain ⟨-, hback, hdisjoint⟩ := hnodup
  exact ⟨fun hk => hdisjoint k hk k List.mem_cons_self rfl, (List.nodup_cons.mp hback).1,
    fun n hn hm => hdisjoint n hn n hm rfl⟩

/-- In front of a key are the keys that came before it among the entries. -/
theorem mem_front_iff (h : ofEntries es = front ++ (k, a) :: back) {n : κ} :
    n ∈ keys front ↔ ComesBefore n k (keys es) := by
  rw [← comesBefore_keys_ofEntries, h, keys_append_cons,
    comesBefore_append_cons_iff (not_mem_of_ofEntries_eq h).1]

/-- What stands in a map that entries make is the last entry of its key. -/
theorem exists_last_of_ofEntries_eq (h : ofEntries es = front ++ (k, a) :: back) :
    ∃ above below, es = above ++ (k, a) :: below ∧ k ∉ keys below := by
  have hk : k ∈ keys es := by
    rw [← mem_keys_ofEntries_iff, h, keys_append_cons]
    exact List.mem_append_right _ List.mem_cons_self
  obtain ⟨above, a', below, hes, hbelow⟩ := exists_last_of_mem_keys hk
  have ha' := get?_ofEntries_of_last hes hbelow
  rw [h, get?_append_cons (not_mem_of_ofEntries_eq h).1] at ha'
  cases ha'
  exact ⟨above, below, hes, hbelow⟩

/-- The last entry of a key stands in the map. -/
theorem exists_ofEntries_eq_of_last (hes : es = front ++ (k, a) :: back) (hk : k ∉ keys back) :
    ∃ front' back', ofEntries es = front' ++ (k, a) :: back' :=
  List.append_of_mem (mem_of_get? (get?_ofEntries_of_last hes hk))

end TextGrammar.Assoc
