/-
# `TextGrammar.Proofs.Rule.Operation` — the scan, one operation at a time

A move of a scan (`Scan.step`) may ask its cursor several things: whether
anything is left, what comes next, to go back, to cut.  This module takes the
moves apart.  Between two operations the scan stands at a point, the point
says which operation comes next, and the answer says where the scan goes on
and whether a part is complete:

    part        left?  first       take   `#`, `[` opened, else text
    opened      save   span        left?  spanNext, or unclosed
    spanNext    take   closed or again span        closed     cut    part
    unclosed    back   givenUp     left?  givenUpNext, or ended
    givenUpNext peek   ended in front of an opener, else part
    text        left?  textNext    peek   ended in front of an opener
    textTake    take   again text                  ended      cut    part

A character that is asked for where none is left fails the scan for good.  So
nothing is decided here about when a cursor may be read; that this never
happens is for `TextGrammar.Proofs.Rule.Discipline` to say.

    exists_run_done    run like this the scan ends, with the events of the rule
-/
import TextGrammar.Proofs.Rule.Tiling
import TextGrammar.Rule.Scan

namespace TextGrammar

/-! ## The two kinds of spans -/

/-- The character that opens a span. -/
def SpanKind.opener : SpanKind → Char
  | .rule => '#'
  | .action => '['

/-- The character that closes a span. -/
def SpanKind.closer : SpanKind → Char
  | .rule => '#'
  | .action => ']'

/-- The event of a closed span. -/
def SpanKind.event : SpanKind → Text → Event
  | .rule => ruleEvent
  | .action => actionEvent

/-- What a scan reads in a span. -/
def SpanKind.reading : SpanKind → Reading
  | .rule => .rule
  | .action => .action

namespace Scan

/-! ## Points -/

/-- Where a scan stands between two operations of its cursor. -/
inductive Point where
  | part
  | first
  | opened (kind : SpanKind)
  | span (kind : SpanKind)
  | spanNext (kind : SpanKind)
  | closed (kind : SpanKind)
  | unclosed
  | givenUp
  | givenUpNext
  | text
  | textNext
  | textTake
  | ended
  | done
  | failed
deriving DecidableEq, Repr

/-- The operation that comes next; none at the end. -/
def Point.op? : Point → Option Cursor.Op
  | .part | .span _ | .givenUp | .text => some .isExhausted
  | .first | .spanNext _ | .textTake => some .take
  | .givenUpNext | .textNext => some .peek
  | .opened _ => some .save
  | .unclosed => some .backtrack
  | .closed _ | .ended => some .cut
  | .done | .failed => none

/-- Where the scan goes on after the answer, and the event it completes. -/
def Point.resume : Point → Cursor.Answer → Option Event × Point
  | .part, .flag b => (none, if b then .done else .first)
  | .first, .char x =>
    (none, if x = '#' then .opened .rule else if x = '[' then .opened .action else .text)
  | .opened kind, .nothing => (none, .span kind)
  | .span kind, .flag b => (none, if b then .unclosed else .spanNext kind)
  | .spanNext kind, .char x => (none, if x = kind.closer then .closed kind else .span kind)
  | .closed kind, .text t => (some (kind.event t), .part)
  | .unclosed, .nothing => (none, .givenUp)
  | .givenUp, .flag b => (none, if b then .ended else .givenUpNext)
  | .givenUpNext, .char x => (none, if isOpener x then .ended else .part)
  | .text, .flag b => (none, if b then .ended else .textNext)
  | .textNext, .char x => (none, if isOpener x then .ended else .textTake)
  | .textTake, .char _ => (none, .text)
  | .ended, .text t => (some (.token (.text t)), .part)
  | _, _ => (none, .failed)

theorem Point.resume_first (x : Char) : Point.first.resume (.char x) =
    (none, if x = '#' then .opened .rule else if x = '[' then .opened .action else .text) := rfl

theorem Point.resume_spanNext (kind : SpanKind) (x : Char) :
    (Point.spanNext kind).resume (.char x) =
      (none, if x = kind.closer then .closed kind else .span kind) := rfl

theorem Point.resume_givenUpNext (x : Char) :
    Point.givenUpNext.resume (.char x) = (none, if isOpener x then .ended else .part) := rfl

theorem Point.resume_textNext (x : Char) :
    Point.textNext.resume (.char x) = (none, if isOpener x then .ended else .textTake) := rfl

/-- A scan under way, with what its cuts have given and the events so far. -/
structure Progress where
  point : Point
  cursor : Cursor
  cuts : List Text
  events : List Event
deriving DecidableEq, Repr

namespace Progress

/-- The scan in front of a rule. -/
def ofRule (rule : Text) : Progress := ⟨.part, .ofText rule, [], []⟩

/-- The scan behind one operation. -/
def perform (s : Progress) (op : Cursor.Op) : Progress where
  point := (s.point.resume (s.cursor.run op).1).2
  cursor := (s.cursor.run op).2
  cuts := s.cuts ++ (s.cursor.run op).1.text?.toList
  events := s.events ++ (s.point.resume (s.cursor.run op).1).1.toList

/-- The scan behind its next operation. -/
def advance (s : Progress) : Progress :=
  match s.point.op? with
  | none => s
  | some op => s.perform op

/-- The scan behind so many operations. -/
def run : Nat → Progress → Progress
  | 0, s => s
  | n + 1, s => run n s.advance

theorem run_add (m n : Nat) (s : Progress) : run (m + n) s = run n (run m s) := by
  induction m generalizing s with
  | zero => rw [Nat.zero_add, run]
  | succ m ih => rw [Nat.succ_add, run, run, ih]

end Progress

/-! ## What an operation does -/

variable {p q p' : Point} {c d c' : Cursor} {r : Char × Cursor} {x : Char} {kind : SpanKind}
  {e? : Option Event}

/-- One operation, by what the cursor finds: where it leads from a point, what
the cursor is then, and the event it completes. -/
inductive Performs : Point → Cursor → Option Event → Point → Cursor → Prop
  | finishes {c : Cursor} : c.take = none → Performs .part c none .done c
  | begins {c : Cursor} {r : Char × Cursor} : c.take = some r → Performs .part c none .first c
  | opens {c c' : Cursor} {kind : SpanKind} :
      c.take = some (kind.opener, c') → Performs .first c none (.opened kind) c'
  | startsText {c c' : Cursor} {x : Char} :
      c.take = some (x, c') → isOpener x = false → Performs .first c none .text c'
  | marks {c : Cursor} {kind : SpanKind} : Performs (.opened kind) c none (.span kind) c.save
  | lacksCloser {c : Cursor} {kind : SpanKind} :
      c.take = none → Performs (.span kind) c none .unclosed c
  | readsOn {c : Cursor} {r : Char × Cursor} {kind : SpanKind} :
      c.take = some r → Performs (.span kind) c none (.spanNext kind) c
  | closes {c c' : Cursor} {kind : SpanKind} :
      c.take = some (kind.closer, c') → Performs (.spanNext kind) c none (.closed kind) c'
  | passes {c c' : Cursor} {x : Char} {kind : SpanKind} :
      c.take = some (x, c') → x ≠ kind.closer → Performs (.spanNext kind) c none (.span kind) c'
  | cutsSpan {c : Cursor} {kind : SpanKind} :
      Performs (.closed kind) c (some (kind.event c.cut.1)) .part c.cut.2
  | goesBack {c : Cursor} : Performs .unclosed c none .givenUp c.backtrack
  | nothingBehind {c : Cursor} : c.take = none → Performs .givenUp c none .ended c
  | looksBehind {c : Cursor} {r : Char × Cursor} :
      c.take = some r → Performs .givenUp c none .givenUpNext c
  | openerBehind {c c' : Cursor} {x : Char} :
      c.take = some (x, c') → isOpener x = true → Performs .givenUpNext c none .ended c
  | waits {c c' : Cursor} {x : Char} :
      c.take = some (x, c') → isOpener x = false → Performs .givenUpNext c none .part c
  | endsText {c : Cursor} : c.take = none → Performs .text c none .ended c
  | looksAhead {c : Cursor} {r : Char × Cursor} :
      c.take = some r → Performs .text c none .textNext c
  | stopsText {c c' : Cursor} {x : Char} :
      c.take = some (x, c') → isOpener x = true → Performs .textNext c none .ended c
  | goesOn {c c' : Cursor} {x : Char} :
      c.take = some (x, c') → isOpener x = false → Performs .textNext c none .textTake c
  | takes {c c' : Cursor} {x : Char} :
      c.take = some (x, c') → Performs .textTake c none .text c'
  | cutsText {c : Cursor} : Performs .ended c (some (.token (.text c.cut.1))) .part c.cut.2

theorem isOpener_eq_true_iff : isOpener x = true ↔ ∃ kind : SpanKind, x = kind.opener := by
  rw [isOpener, Bool.or_eq_true, beq_iff_eq, beq_iff_eq]
  constructor
  · rintro (rfl | rfl)
    · exact ⟨.rule, rfl⟩
    · exact ⟨.action, rfl⟩
  · rintro ⟨_ | _, rfl⟩
    · exact .inl rfl
    · exact .inr rfl

theorem isOpener_opener (kind : SpanKind) : isOpener kind.opener = true :=
  isOpener_eq_true_iff.mpr ⟨kind, rfl⟩

/-- Each line is what the program does. -/
theorem Performs.resume (h : Performs p c e? q d) :
    ∃ op answer, p.op? = some op ∧ c.run op = (answer, d) ∧ p.resume answer = (e?, q) := by
  cases h with
  | finishes htake => exact ⟨_, _, rfl, Cursor.run_isExhausted c, by rw [htake]; rfl⟩
  | begins htake => exact ⟨_, _, rfl, Cursor.run_isExhausted c, by rw [htake]; rfl⟩
  | @opens _ _ kind htake =>
    refine ⟨_, _, rfl, Cursor.run_take_of_take htake, ?_⟩
    cases kind <;> rfl
  | startsText htake hx =>
    refine ⟨_, _, rfl, Cursor.run_take_of_take htake, ?_⟩
    rw [isOpener, Bool.or_eq_false_iff, beq_eq_false_iff_ne, beq_eq_false_iff_ne] at hx
    rw [Point.resume_first, if_neg hx.1, if_neg hx.2]
  | marks => exact ⟨_, _, rfl, rfl, rfl⟩
  | lacksCloser htake => exact ⟨_, _, rfl, Cursor.run_isExhausted c, by rw [htake]; rfl⟩
  | readsOn htake => exact ⟨_, _, rfl, Cursor.run_isExhausted c, by rw [htake]; rfl⟩
  | closes htake =>
    exact ⟨_, _, rfl, Cursor.run_take_of_take htake, by rw [Point.resume_spanNext, if_pos rfl]⟩
  | passes htake hx =>
    exact ⟨_, _, rfl, Cursor.run_take_of_take htake, by rw [Point.resume_spanNext, if_neg hx]⟩
  | cutsSpan => exact ⟨_, _, rfl, rfl, rfl⟩
  | goesBack => exact ⟨_, _, rfl, rfl, rfl⟩
  | nothingBehind htake => exact ⟨_, _, rfl, Cursor.run_isExhausted c, by rw [htake]; rfl⟩
  | looksBehind htake => exact ⟨_, _, rfl, Cursor.run_isExhausted c, by rw [htake]; rfl⟩
  | openerBehind htake hx =>
    exact ⟨_, _, rfl, Cursor.run_peek_of_take htake, by rw [Point.resume_givenUpNext, if_pos hx]⟩
  | waits htake hx =>
    exact ⟨_, _, rfl, Cursor.run_peek_of_take htake, by rw [Point.resume_givenUpNext, hx]; rfl⟩
  | endsText htake => exact ⟨_, _, rfl, Cursor.run_isExhausted c, by rw [htake]; rfl⟩
  | looksAhead htake => exact ⟨_, _, rfl, Cursor.run_isExhausted c, by rw [htake]; rfl⟩
  | stopsText htake hx =>
    exact ⟨_, _, rfl, Cursor.run_peek_of_take htake, by rw [Point.resume_textNext, if_pos hx]⟩
  | goesOn htake hx =>
    exact ⟨_, _, rfl, Cursor.run_peek_of_take htake, by rw [Point.resume_textNext, hx]; rfl⟩
  | takes htake => exact ⟨_, _, rfl, Cursor.run_take_of_take htake, rfl⟩
  | cutsText => exact ⟨_, _, rfl, rfl, rfl⟩

/-- Before the end there is a line for every point, if no character is asked
for where none is left. -/
theorem exists_performs {op : Cursor.Op} (hop : p.op? = some op)
    (hleft : op = .take ∨ op = .peek → c.left ≠ []) : ∃ e? q d, Performs p c e? q d := by
  cases p with
  | part =>
    cases htake : c.take with
    | none => exact ⟨_, _, _, .finishes htake⟩
    | some r => exact ⟨_, _, _, .begins htake⟩
  | first =>
    cases hop
    obtain ⟨x, c', htake⟩ := Cursor.exists_take (hleft (.inl rfl))
    cases hx : isOpener x with
    | true =>
      obtain ⟨kind, rfl⟩ := isOpener_eq_true_iff.mp hx
      exact ⟨_, _, _, .opens htake⟩
    | false => exact ⟨_, _, _, .startsText htake hx⟩
  | opened kind => exact ⟨_, _, _, .marks⟩
  | span kind =>
    cases htake : c.take with
    | none => exact ⟨_, _, _, .lacksCloser htake⟩
    | some r => exact ⟨_, _, _, .readsOn htake⟩
  | spanNext kind =>
    cases hop
    obtain ⟨x, c', htake⟩ := Cursor.exists_take (hleft (.inl rfl))
    by_cases hx : x = kind.closer
    · subst hx
      exact ⟨_, _, _, .closes htake⟩
    · exact ⟨_, _, _, .passes htake hx⟩
  | closed kind => exact ⟨_, _, _, .cutsSpan⟩
  | unclosed => exact ⟨_, _, _, .goesBack⟩
  | givenUp =>
    cases htake : c.take with
    | none => exact ⟨_, _, _, .nothingBehind htake⟩
    | some r => exact ⟨_, _, _, .looksBehind htake⟩
  | givenUpNext =>
    cases hop
    obtain ⟨x, c', htake⟩ := Cursor.exists_take (hleft (.inr rfl))
    cases hx : isOpener x with
    | true => exact ⟨_, _, _, .openerBehind htake hx⟩
    | false => exact ⟨_, _, _, .waits htake hx⟩
  | text =>
    cases htake : c.take with
    | none => exact ⟨_, _, _, .endsText htake⟩
    | some r => exact ⟨_, _, _, .looksAhead htake⟩
  | textNext =>
    cases hop
    obtain ⟨x, c', htake⟩ := Cursor.exists_take (hleft (.inr rfl))
    cases hx : isOpener x with
    | true => exact ⟨_, _, _, .stopsText htake hx⟩
    | false => exact ⟨_, _, _, .goesOn htake hx⟩
  | textTake =>
    cases hop
    obtain ⟨x, c', htake⟩ := Cursor.exists_take (hleft (.inl rfl))
    exact ⟨_, _, _, .takes htake⟩
  | ended => exact ⟨_, _, _, .cutsText⟩
  | done => cases hop
  | failed => cases hop

/-- The scan behind its next operation, by the line for it. -/
theorem Performs.advance {s : Progress} (h : Performs s.point s.cursor e? q d) :
    ∃ cuts, s.advance = ⟨q, d, cuts, s.events ++ e?.toList⟩ := by
  obtain ⟨op, answer, hop, hrun, hresume⟩ := h.resume
  refine ⟨s.cuts ++ answer.text?.toList, ?_⟩
  rw [Progress.advance, hop]
  simp only [Progress.perform, hrun, hresume]

/-! ## From part to part -/

/-- Operations lead from a point and a cursor to others, and complete these
events. -/
inductive Leads : Point → Cursor → List Event → Point → Cursor → Prop
  | refl {p : Point} {c : Cursor} : Leads p c [] p c
  | silent {p q p' : Point} {c d c' : Cursor} {es : List Event} :
      Performs p c none q d → Leads q d es p' c' → Leads p c es p' c'
  | completes {p q p' : Point} {c d c' : Cursor} {e : Event} {es : List Event} :
      Performs p c (some e) q d → Leads q d es p' c' → Leads p c (e :: es) p' c'

variable {es fs : List Event}

theorem Leads.trans (h : Leads p c es q d) (h' : Leads q d fs p' c') :
    Leads p c (es ++ fs) p' c' := by
  induction h with
  | refl => exact h'
  | silent hperforms _ ih => exact .silent hperforms (ih h')
  | completes hperforms _ ih => exact .completes hperforms (ih h')

theorem Leads.exists_run (h : Leads p c es p' c') (cuts : List Text) (before : List Event) :
    ∃ n cuts', Progress.run n ⟨p, c, cuts, before⟩ = ⟨p', c', cuts', before ++ es⟩ := by
  induction h generalizing cuts before with
  | refl => exact ⟨0, cuts, by rw [Progress.run, List.append_nil]⟩
  | @silent p _ _ c _ _ _ hperforms _ ih =>
    obtain ⟨cuts₁, hadvance⟩ := Performs.advance (s := ⟨p, c, cuts, before⟩) hperforms
    obtain ⟨n, cuts', hn⟩ := ih cuts₁ before
    refine ⟨n + 1, cuts', ?_⟩
    rw [Progress.run, hadvance, Option.toList_none, List.append_nil, hn]
  | @completes p _ _ c _ _ e _ hperforms _ ih =>
    obtain ⟨cuts₁, hadvance⟩ := Performs.advance (s := ⟨p, c, cuts, before⟩) hperforms
    obtain ⟨n, cuts', hn⟩ := ih cuts₁ (before ++ [e])
    refine ⟨n + 1, cuts', ?_⟩
    rw [Progress.run, hadvance, Option.toList_some, hn, List.append_assoc, List.singleton_append]

/-- The point at which a reading begins and goes on. -/
def pointOf : Reading → Point
  | .between => .part
  | .rule => .span .rule
  | .action => .span .action
  | .text => .text

/-- Operations from the point on make this move. -/
def Makes (p : Point) (c : Cursor) (r : Option Event × Scan) : Prop :=
  Leads p c r.1.toList (pointOf r.2.reading) r.2.cursor

theorem makes_cutText (c : Cursor) : Makes .ended c (cutText c) := .completes .cutsText .refl

theorem makes_rewind (c : Cursor) : Makes .unclosed c (rewind c) := by
  rw [rewind]
  refine .silent .goesBack ?_
  generalize c.backtrack = b
  cases htake : b.take with
  | none =>
    have hb : atBoundary b = true := by
      rw [Cursor.take, Option.map_eq_none_iff] at htake
      rw [atBoundary, htake]
    rw [if_pos hb]
    exact .silent (.nothingBehind htake) (makes_cutText b)
  | some r =>
    obtain ⟨x, b'⟩ := r
    have hb : atBoundary b = isOpener x := by rw [atBoundary, Cursor.peek_of_take htake]
    rw [hb]
    refine .silent (.looksBehind htake) ?_
    cases hx : isOpener x with
    | true => exact .silent (.openerBehind htake hx) (makes_cutText b)
    | false => exact .silent (.waits htake hx) .refl

theorem makes_stepSpan (kind : SpanKind) (c : Cursor) :
    Makes (.span kind) c (stepSpan kind.reading kind.closer kind.event c) := by
  rw [stepSpan]
  cases htake : c.take with
  | none => exact .silent (.lacksCloser htake) (makes_rewind c)
  | some r =>
    obtain ⟨x, c'⟩ := r
    refine .silent (.readsOn htake) ?_
    by_cases hx : x = kind.closer
    · subst hx
      simp only [if_true]
      exact .silent (.closes htake) (.completes .cutsSpan .refl)
    · simp only [if_neg hx]
      refine .silent (.passes htake hx) ?_
      cases kind <;> exact .refl

theorem makes_stepText (c : Cursor) : Makes .text c (stepText c) := by
  rw [stepText]
  cases htake : c.take with
  | none => exact .silent (.endsText htake) (makes_cutText c)
  | some r =>
    obtain ⟨x, c'⟩ := r
    refine .silent (.looksAhead htake) ?_
    simp only
    cases hx : isOpener x with
    | true => exact .silent (.stopsText htake hx) (makes_cutText c)
    | false => exact .silent (.goesOn htake hx) (.silent (.takes htake) .refl)

theorem makes_stepBetween {r : Option Event × Scan} (h : stepBetween c = some r) :
    Makes .part c r := by
  rw [stepBetween] at h
  cases htake : c.take with
  | none =>
    rw [htake] at h
    cases h
  | some taken =>
    obtain ⟨x, c'⟩ := taken
    rw [htake] at h
    cases h
    refine .silent (.begins htake) ?_
    by_cases hhash : x = '#'
    · subst hhash
      exact .silent (@Performs.opens c c' .rule htake) (.silent .marks .refl)
    · by_cases hbracket : x = '['
      · subst hbracket
        exact .silent (@Performs.opens c c' .action htake) (.silent .marks .refl)
      · simp only [if_neg hhash, if_neg hbracket]
        have hx : isOpener x = false := by simp [isOpener, hhash, hbracket]
        exact .silent (.startsText htake hx) .refl

theorem makes_step {s : Scan} {r : Option Event × Scan} (h : s.step = some r) :
    Makes (pointOf s.reading) s.cursor r := by
  obtain ⟨reading, c⟩ := s
  cases reading <;> simp only [step, Option.some.injEq] at h
  · exact makes_stepBetween h
  · exact h ▸ makes_stepSpan .rule c
  · exact h ▸ makes_stepSpan .action c
  · exact h ▸ makes_stepText c

/-- Operations make all the moves to the end. -/
theorem leads_events (s : Scan) :
    ∃ c, Leads (pointOf s.reading) s.cursor s.events .done c := by
  fun_induction events s with
  | case1 s hs =>
    obtain ⟨reading, c⟩ := s
    obtain ⟨hreading, htake⟩ := of_step_eq_none hs
    cases hreading
    exact ⟨c, .silent (.finishes htake) .refl⟩
  | case2 s e? s' hs ih =>
    obtain ⟨c, hc⟩ := ih
    exact ⟨c, (makes_step hs).trans hc⟩

/-- **Operation by operation the scan of a rule ends, with the events of the
rule.** -/
theorem exists_run_done (rule : Text) :
    ∃ n, (Progress.run n (.ofRule rule)).point = .done ∧
      (Progress.run n (.ofRule rule)).events = Rule.events rule := by
  obtain ⟨c, hc⟩ := leads_events (ofRule rule)
  obtain ⟨n, cuts, hn⟩ := hc.exists_run [] []
  refine ⟨n, ?_⟩
  have hrun : Progress.run n (.ofRule rule) = ⟨.done, c, cuts, [] ++ Rule.events rule⟩ := hn
  rw [hrun]
  exact ⟨rfl, rfl⟩

end Scan

end TextGrammar
