/-
# `TextGrammar.Proofs.Text.Fields` — fields are the only cutting at a separator

`Text.join_fields` says that the fields of a text, with the separator
between neighbours, are the text.  Here is the rest of what determines them:
no field holds the separator, and there is no other way to write the text in
that manner (`fields_eq_iff`).
-/
import TextGrammar.Text.Basic

namespace TextGrammar.Text

variable {sep : Char}

theorem not_mem_of_mem_fields {t f : Text} (h : f ∈ fields sep t) : sep ∉ f := by
  induction t generalizing f with
  | nil =>
    rw [fields, List.mem_singleton] at h
    rw [h]
    exact List.not_mem_nil
  | cons c cs ih =>
    rw [fields] at h
    split at h
    · rcases List.mem_cons.mp h with rfl | h
      · exact List.not_mem_nil
      · exact ih h
    · next hc =>
      have hsep : sep ≠ c := fun he => hc he.symm
      cases hf : fields sep cs with
      | nil => exact absurd hf (fields_ne_nil sep cs)
      | cons g gs =>
        rw [hf] at h ih
        rcases List.mem_cons.mp h with rfl | h
        · intro hm
          rcases List.mem_cons.mp hm with hm | hm
          · exact hsep hm
          · exact ih List.mem_cons_self hm
        · exact ih (List.mem_cons_of_mem g h)

theorem fields_of_not_mem {t : Text} (h : sep ∉ t) : fields sep t = [t] := by
  induction t with
  | nil => rfl
  | cons c cs ih =>
    have hc : c ≠ sep := fun he => h (he ▸ List.mem_cons_self)
    rw [fields, if_neg hc, ih fun hm => h (List.mem_cons_of_mem c hm)]

theorem fields_append_cons {u w : Text} (h : sep ∉ u) :
    fields sep (u ++ sep :: w) = u :: fields sep w := by
  induction u with
  | nil => rw [List.nil_append, fields, if_pos rfl]
  | cons c cs ih =>
    have hc : c ≠ sep := fun he => h (he ▸ List.mem_cons_self)
    rw [List.cons_append, fields, if_neg hc, ih fun hm => h (List.mem_cons_of_mem c hm)]

theorem fields_join {fs : List Text} (hne : fs ≠ []) (h : ∀ f ∈ fs, sep ∉ f) :
    fields sep (join [sep] fs) = fs := by
  induction fs with
  | nil => exact absurd rfl hne
  | cons f fs ih =>
    have hf : sep ∉ f := h f List.mem_cons_self
    cases fs with
    | nil => exact fields_of_not_mem hf
    | cons g gs =>
      have hgs := ih (List.cons_ne_nil g gs) fun x hx => h x (List.mem_cons_of_mem f hx)
      rw [join, List.append_assoc, List.singleton_append, fields_append_cons hf, hgs]

theorem mem_join {s : Text} {fs : List Text} {c : Char} (h : c ∈ join s fs) :
    c ∈ s ∨ ∃ f ∈ fs, c ∈ f := by
  induction fs with
  | nil => exact absurd h List.not_mem_nil
  | cons f fs ih =>
    cases fs with
    | nil => exact .inr ⟨f, List.mem_cons_self, h⟩
    | cons g gs =>
      rw [join, List.append_assoc] at h
      rcases List.mem_append.mp h with h | h
      · exact .inr ⟨f, List.mem_cons_self, h⟩
      · rcases List.mem_append.mp h with h | h
        · exact .inl h
        · obtain h | ⟨f', hf', h⟩ := ih h
          · exact .inl h
          · exact .inr ⟨f', List.mem_cons_of_mem f hf', h⟩

theorem join_ne_nil {s f : Text} {fs : List Text} (h : f ≠ []) : join s (f :: fs) ≠ [] := by
  cases fs with
  | nil => exact h
  | cons g gs =>
    rw [join, List.append_assoc]
    exact List.append_ne_nil_of_left_ne_nil h _

theorem join_cons {s f : Text} {fs : List Text} (h : fs ≠ []) :
    join s (f :: fs) = f ++ s ++ join s fs := by
  cases fs with
  | nil => exact absurd rfl h
  | cons g gs => rfl

/-- What the fields of a text are. -/
theorem fields_eq_iff {t : Text} {fs : List Text} :
    fields sep t = fs ↔ fs ≠ [] ∧ join [sep] fs = t ∧ ∀ f ∈ fs, sep ∉ f := by
  constructor
  · rintro rfl
    exact ⟨fields_ne_nil sep t, join_fields sep t, fun _ hf => not_mem_of_mem_fields hf⟩
  · rintro ⟨hne, rfl, h⟩
    exact fields_join hne h

end TextGrammar.Text
