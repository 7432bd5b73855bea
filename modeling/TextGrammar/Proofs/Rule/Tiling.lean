/-
# `TextGrammar.Proofs.Rule.Tiling` — cuts under any use of a cursor

The operations of a cursor may come in any order, and none refuses: a cut may
come at once after a cut, a checkpoint may be set once and gone back to many
times, and reading at the end only fails.  What holds in every order is that
the three positions stay inside the text (`Inside`).

The cuts need more.  Each begins where the one before it ended, so that they
tile the text, unless somebody goes back behind a cut:

    text `ab`    save take cut backtrack cut take cut    gives `a`, ε, `a`

Here the checkpoint was set before the first cut and is gone back to behind
it.  A list of operations is `Timely` if that does not happen, and this is all
there is to ask:

    runAll_tiles    inside the text always, and exactly the timely operations
                    keep the cut position in front of the scan position; then
                    the cuts are the text up to the cut position, and a last
                    cut at the end makes them the text
-/
import TextGrammar.Proofs.Rule.Cursor

namespace TextGrammar.Cursor

variable {c : Cursor} {op : Op} {claimed : List Text}

/-! ## Runs -/

/-- The cursor behind the operations. -/
def after (c : Cursor) : List Op → Cursor
  | [] => c
  | op :: ops => after (c.run op).2 ops

/-- The text that a cut answers. -/
def Answer.text? : Answer → Option Text
  | .text t => some t
  | _ => none

/-- What the cuts of a run give, in order. -/
def cuts (steps : List (Answer × Cursor)) : List Text := steps.filterMap (·.1.text?)

theorem after_append (c : Cursor) (xs ys : List Op) :
    c.after (xs ++ ys) = (c.after xs).after ys := by
  induction xs generalizing c with
  | nil => rfl
  | cons op xs ih => exact ih (c.run op).2

theorem cuts_runAll_cons (c : Cursor) (op : Op) (ops : List Op) :
    cuts (c.runAll (op :: ops)) = (c.run op).1.text?.toList ++ cuts ((c.run op).2.runAll ops) := by
  rw [cuts, runAll, List.filterMap_cons]
  cases (c.run op).1.text? <;> rfl

/-! ## One operation -/

theorem run_isExhausted (c : Cursor) : c.run .isExhausted = (.flag c.take.isNone, c) := by
  have h : c.isExhausted = c.take.isNone := by
    rw [isExhausted, take, peek, Option.isNone_map]
    by_cases hpos : c.text.size ≤ c.pos
    · rw [Array.getElem?_eq_none hpos, decide_eq_true hpos]
      rfl
    · rw [Array.getElem?_eq_getElem (Nat.lt_of_not_le hpos), decide_eq_false hpos]
      rfl
  rw [run, h]

theorem run_take_of_take {c' : Cursor} {x : Char} (h : c.take = some (x, c')) :
    c.run .take = (.char x, c') := by
  rw [run, h]

theorem run_peek_of_take {c' : Cursor} {x : Char} (h : c.take = some (x, c')) :
    c.run .peek = (.char x, c) := by
  rw [run, peek_of_take h]

@[simp] theorem run_peek (c : Cursor) : (c.run .peek).2 = c := by
  rw [run]
  cases c.peek <;> rfl

/-- Taking moves the scan position by one, unless it is at the end. -/
@[simp] theorem run_take (c : Cursor) :
    (c.run .take).2 = { c with pos := if c.pos < c.text.size then c.pos + 1 else c.pos } := by
  rw [run, take, peek]
  by_cases h : c.pos < c.text.size
  · rw [Array.getElem?_eq_getElem h, if_pos h]
    rfl
  · rw [Array.getElem?_eq_none (Nat.le_of_not_lt h), if_neg h]
    rfl

theorem text_run (c : Cursor) (op : Op) : (c.run op).2.text = c.text := by
  cases op with
  | take => rw [run_take]
  | peek => rw [run_peek]
  | isExhausted => rfl
  | cut => rfl
  | save => rfl
  | backtrack => rfl

/-- The three positions are inside the text. -/
structure Inside (c : Cursor) : Prop where
  start_le : c.start ≤ c.text.size
  pos_le : c.pos ≤ c.text.size
  saved_le : c.saved ≤ c.text.size

theorem inside_ofText (t : Text) : (ofText t).Inside :=
  ⟨Nat.zero_le _, Nat.zero_le _, Nat.zero_le _⟩

theorem Inside.run (h : c.Inside) (op : Op) : (c.run op).2.Inside := by
  obtain ⟨hstart, hpos, hsaved⟩ := h
  cases op with
  | take =>
    rw [run_take]
    refine ⟨hstart, ?_, hsaved⟩
    by_cases hlt : c.pos < c.text.size
    · simpa only [if_pos hlt] using Nat.succ_le_of_lt hlt
    · simpa only [if_neg hlt] using hpos
  | peek => rw [run_peek]; exact ⟨hstart, hpos, hsaved⟩
  | isExhausted => exact ⟨hstart, hpos, hsaved⟩
  | cut => exact ⟨hpos, hpos, hsaved⟩
  | save => exact ⟨hstart, hpos, hpos⟩
  | backtrack => exact ⟨hstart, hsaved, hsaved⟩

/-- Only going back can bring the scan position in front of the cut position,
and does if the checkpoint is there. -/
theorem start_le_pos_run_iff (h : c.start ≤ c.pos) :
    (c.run op).2.start ≤ (c.run op).2.pos ↔ (op = .backtrack → c.start ≤ c.saved) := by
  cases op with
  | take =>
    rw [run_take]
    refine iff_of_true ?_ nofun
    by_cases hlt : c.pos < c.text.size
    · simpa only [if_pos hlt] using Nat.le_succ_of_le h
    · simpa only [if_neg hlt] using h
  | peek => rw [run_peek]; exact iff_of_true h nofun
  | isExhausted => exact iff_of_true h nofun
  | cut => exact iff_of_true (Nat.le_refl c.pos) nofun
  | save => exact iff_of_true h nofun
  | backtrack => exact ⟨fun hle _ => hle, fun hle => hle rfl⟩

/-! ## The cuts -/

/-- What the cuts have claimed is the text up to the cut position, and that
one is not behind the scan position. -/
structure Tiles (c : Cursor) (claimed : List Text) : Prop extends c.Within where
  flatten_eq : claimed.flatten = c.text.toList.take c.start

theorem tiles_ofText (t : Text) : Tiles (ofText t) [] where
  toWithin := within_ofText t
  flatten_eq := rfl

/-- A cut goes on from where the last one ended. -/
theorem Tiles.cut (h : Tiles c claimed) : Tiles c.cut.2 (claimed ++ [c.cut.1]) where
  toWithin := (parts_of_cut h.toWithin).1
  flatten_eq := by
    have hstart : c.text.toList.take c.start = (c.text.toList.take c.pos).take c.start := by
      rw [List.take_take, Nat.min_eq_left h.start_le]
    rw [List.flatten_append, List.flatten_singleton, h.flatten_eq, hstart]
    show _ ++ c.pending = c.text.toList.take c.pos
    rw [pending_eq, List.take_append_drop]

theorem Tiles.run (h : Tiles c claimed) (hin : c.Inside)
    (hop : op = .backtrack → c.start ≤ c.saved) :
    Tiles (c.run op).2 (claimed ++ (c.run op).1.text?.toList) := by
  have hwithin : (c.run op).2.Within :=
    ⟨(start_le_pos_run_iff h.start_le).mpr hop, (hin.run op).pos_le⟩
  -- only a cut answers a text, and only a cut moves the cut position
  have hother (hstart : (c.run op).2.start = c.start) (htext : (c.run op).1.text? = none) :
      Tiles (c.run op).2 (claimed ++ (c.run op).1.text?.toList) := by
    refine ⟨hwithin, ?_⟩
    rw [htext, Option.toList_none, List.append_nil, hstart, text_run]
    exact h.flatten_eq
  cases op with
  | cut => exact h.cut
  | take =>
    refine hother (by rw [run_take]) ?_
    rw [Cursor.run]
    cases c.take <;> rfl
  | peek =>
    refine hother (by rw [run_peek]) ?_
    rw [Cursor.run]
    cases c.peek <;> rfl
  | isExhausted => exact hother rfl rfl
  | save => exact hother rfl rfl
  | backtrack => exact hother rfl rfl

/-! ## Timely operations -/

/-- Each time the operations go back, the checkpoint is not in front of the
cut position. -/
def Timely (c : Cursor) : List Op → Prop
  | [] => True
  | op :: ops => (op = .backtrack → c.start ≤ c.saved) ∧ Timely (c.run op).2 ops

theorem timely_append_iff {xs ys : List Op} :
    Timely c (xs ++ ys) ↔ Timely c xs ∧ Timely (c.after xs) ys := by
  induction xs generalizing c with
  | nil => exact (iff_of_eq (true_and (Timely c ys))).symm
  | cons op xs ih =>
    show _ ∧ Timely (c.run op).2 (xs ++ ys) ↔ (_ ∧ Timely (c.run op).2 xs) ∧ _
    rw [ih, and_assoc]
    rfl

theorem timely_of_not_mem {ops : List Op} (h : .backtrack ∉ ops) : Timely c ops := by
  induction ops generalizing c with
  | nil => trivial
  | cons op ops ih =>
    rw [List.mem_cons, not_or] at h
    exact ⟨fun hop => absurd hop.symm h.1, ih h.2⟩

/-- To be timely is what keeps the cut position in front of the scan
position. -/
theorem timely_iff {ops : List Op} (h : c.start ≤ c.pos) :
    Timely c ops ↔ ∀ s ∈ c.runAll ops, s.2.start ≤ s.2.pos := by
  induction ops generalizing c with
  | nil => exact iff_of_true trivial (fun _ hs => absurd hs List.not_mem_nil)
  | cons op ops ih =>
    rw [Timely, runAll, List.forall_mem_cons, ← start_le_pos_run_iff h]
    exact and_congr_right fun hrun => ih hrun

theorem Inside.runAll {ops : List Op} (h : c.Inside) :
    ∀ s ∈ c.runAll ops, s.2.text = c.text ∧ s.2.Inside := by
  induction ops generalizing c with
  | nil => exact fun _ hs => absurd hs List.not_mem_nil
  | cons op ops ih =>
    rw [Cursor.runAll, List.forall_mem_cons]
    refine ⟨⟨text_run c op, h.run op⟩, fun s hs => ?_⟩
    obtain ⟨htext, hin⟩ := ih (h.run op) s hs
    exact ⟨htext.trans (text_run c op), hin⟩

theorem Tiles.runAll {ops : List Op} (h : Tiles c claimed) (hin : c.Inside)
    (hops : Timely c ops) : Tiles (c.after ops) (claimed ++ cuts (c.runAll ops)) := by
  induction ops generalizing c claimed with
  | nil =>
    rw [Cursor.runAll, cuts, List.filterMap_nil, List.append_nil]
    exact h
  | cons op ops ih =>
    rw [cuts_runAll_cons, ← List.append_assoc]
    exact ih (h.run hin hops.1) (hin.run op) hops.2

theorem text_after (c : Cursor) (ops : List Op) : (c.after ops).text = c.text := by
  induction ops generalizing c with
  | nil => rfl
  | cons op ops ih => exact (ih _).trans (text_run c op)

/-- Taking often enough leads to the end. -/
theorem pos_after_takes {n : Nat} (h : c.pos ≤ c.text.size) (hn : c.text.size ≤ c.pos + n) :
    (c.after (List.replicate n .take)).pos = c.text.size := by
  induction n generalizing c with
  | zero => exact Nat.le_antisymm h hn
  | succ n ih =>
    rw [List.replicate_succ, after, run_take]
    by_cases hlt : c.pos < c.text.size
    · rw [if_pos hlt]
      exact ih hlt (by simp only; omega)
    · rw [if_neg hlt]
      exact ih h (by simp only; omega)

/-- **The cuts of a cursor tile its text**: the positions stay inside the text
whatever comes, and unless it is gone back behind a cut, the cuts are the text
up to the cut position.  A last cut at the end makes them the text. -/
theorem runAll_tiles (t : Text) (ops : List Op) :
    (∀ s ∈ (ofText t).runAll ops,
      s.2.text = t.toArray ∧ s.2.start ≤ t.length ∧ s.2.pos ≤ t.length ∧ s.2.saved ≤ t.length) ∧
    (Timely (ofText t) ops ↔ ∀ s ∈ (ofText t).runAll ops, s.2.start ≤ s.2.pos) ∧
    (Timely (ofText t) ops →
      (∀ before, before <+: ops → (cuts ((ofText t).runAll before)).flatten =
        t.take ((ofText t).after before).start) ∧
      ∀ n, t.length ≤ ((ofText t).after ops).pos + n →
        (cuts ((ofText t).runAll (ops ++ List.replicate n .take ++ [.cut]))).flatten = t) := by
  have hflatten {ops : List Op} (h : Timely (ofText t) ops) :
      (cuts ((ofText t).runAll ops)).flatten = t.take ((ofText t).after ops).start := by
    have htiles := (tiles_ofText t).runAll (inside_ofText t) h
    rw [List.nil_append] at htiles
    rw [htiles.flatten_eq, text_after]
    rfl
  refine ⟨fun s hs => ?_, timely_iff (Nat.le_refl 0), fun hops => ⟨?_, fun n hn => ?_⟩⟩
  · obtain ⟨htext, hstart, hpos, hsaved⟩ := (inside_ofText t).runAll s hs
    rw [htext] at hstart hpos hsaved
    exact ⟨htext, hstart, hpos, hsaved⟩
  · rintro before ⟨behind, rfl⟩
    exact hflatten (timely_append_iff.mp hops).1
  · have hscan : Timely (ofText t) (ops ++ List.replicate n .take ++ [.cut]) := by
      rw [List.append_assoc, timely_append_iff]
      refine ⟨hops, timely_of_not_mem ?_⟩
      simp
    have hpos : ((ofText t).after ops).pos ≤ t.length := by
      have htiles := (tiles_ofText t).runAll (inside_ofText t) hops
      have hle := htiles.pos_le
      rw [text_after] at hle
      exact hle
    have hend : ((ofText t).after (ops ++ List.replicate n .take ++ [.cut])).start = t.length := by
      have htakes := pos_after_takes (c := (ofText t).after ops) (n := n)
        (by rw [text_after]; exact hpos) (by rw [text_after]; exact hn)
      rw [text_after] at htakes
      rw [after_append, after_append]
      exact htakes
    rw [hflatten hscan, hend, List.take_length]

/-- In `abc` the `b` is read twice and cut once. -/
theorem runAll_tiles_again :
    Timely (ofText "abc".toList) [.take, .cut, .save, .take, .backtrack] ∧
    [Op.take, .cut, .save] <+: [.take, .cut, .save, .take, .backtrack] ∧
    (cuts ((ofText "abc".toList).runAll [.take, .cut, .save])).flatten = ['a'] ∧
    (cuts ((ofText "abc".toList).runAll
      ([.take, .cut, .save, .take, .backtrack] ++ List.replicate 2 .take ++ [.cut]))).flatten =
        "abc".toList := by
  have htimely : Timely (ofText "abc".toList) [.take, .cut, .save, .take, .backtrack] :=
    ⟨nofun, nofun, nofun, nofun, fun _ => by decide, trivial⟩
  have hbefore : [Op.take, .cut, .save] <+: [.take, .cut, .save, .take, .backtrack] := by decide
  obtain ⟨hfront, hend⟩ := (runAll_tiles "abc".toList _).2.2 htimely
  exact ⟨htimely, hbefore, hfront _ hbefore, hend 2 (by decide)⟩

/-- What going back behind a cut does, as in the header. -/
example :
    cuts ((ofText ['a', 'b']).runAll [.save, .take, .cut, .backtrack, .cut, .take, .cut]) =
      [['a'], [], ['a']] := by decide

end TextGrammar.Cursor
