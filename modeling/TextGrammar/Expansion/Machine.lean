/-
# `TextGrammar.Expansion.Machine` — expansion step by step

Expanding a text reads its tokens from left to right: text is output, an
action binds its symbol, and a reference to a bound symbol draws one of
its candidates and expands it in turn, with the modifiers of the
reference applied to the result.  References to unbound symbols are
output as they are written.

The texts that are being expanded are frames on a stack, so that nothing
limits how deep they nest but the ceiling: every draw goes one level
deeper, and behind the ceiling a candidate is output unexpanded.
`State.step` is one token or the end of one text; `State.run` goes on to
the end, which comes because `State.measure` lessens.
-/
import TextGrammar.Expansion.Choice
import TextGrammar.Grammar.Basic
import TextGrammar.Modifier.Registry
import TextGrammar.Random.Source
import TextGrammar.Rule.Scan

namespace TextGrammar.Expansion

/-! ## States -/

/-- How many texts may be expanded, the origin among them. -/
def ceiling : Nat := 999

/-- The text that is expanded when none is named. -/
def defaultOrigin : Text := "#origin#".toList

/-- What an expansion reports: that the ceiling was reached at a symbol. -/
structure Notice where
  symbol : Text
deriving DecidableEq, Repr

/-- The words of a notice. -/
def Notice.message (n : Notice) : Text :=
  "depth ceiling ".toList ++ Text.ofNat ceiling ++ " reached at #".toList ++ n.symbol ++ ['#']

/-- A text that is being expanded: the tokens still to be read, the
modifiers that wait for its end, and its output so far. -/
structure Frame where
  pending : List Token
  modifiers : List Text
  output : Text
deriving DecidableEq, Repr

/-- The frame at the front of a text. -/
def Frame.ofText (t : Text) (modifiers : List Text) : Frame := ⟨Rule.tokens t, modifiers, []⟩

/-- The frame with a text added to its output. -/
def Frame.emit (f : Frame) (t : Text) : Frame := { f with output := f.output ++ t }

/-- What an expansion works with: the bindings, the level reached, the
draws made, the source behind them and the notices. -/
structure Store (σ : Type) where
  symbols : Grammar
  depth : Nat
  draws : Nat
  source : σ
  notices : List Notice

/-- An expansion under way: the frame it works on, and those that wait for
it, the innermost first. -/
structure State (σ : Type) where
  store : Store σ
  frame : Frame
  waiting : List Frame

/-- A finished expansion. -/
structure Result (σ : Type) where
  text : Text
  store : Store σ

/-- What an expansion depends on besides its grammar and its origin: the
registry and the source. -/
structure Setting (σ : Type) where
  modifiers : Registry
  draw : Source σ

variable {σ : Type}

namespace Store

/-- The store at the beginning.  The origin is the first level. -/
def init (g : Grammar) (source : σ) : Store σ := ⟨g, 1, 0, source, []⟩

/-- Binds a symbol to one candidate. -/
def bind (s : Store σ) (key value : Text) : Store σ :=
  { s with symbols := s.symbols.insert key [value] }

/-- Draws a candidate and goes one level deeper.  The first level behind
the ceiling is noticed. -/
def pick (draw : Source σ) (s : Store σ) (key : Text) (candidates : List Text) :
    Text × Store σ :=
  let (x, source) := draw s.source
  (Choice.candidate x candidates,
    { s with
      depth := s.depth + 1
      draws := s.draws + 1
      source := source
      notices := if s.depth = ceiling then s.notices ++ [⟨key⟩] else s.notices })

end Store

namespace State

/-- The beginning of an expansion. -/
def init (g : Grammar) (origin : Text) (source : σ) : State σ :=
  ⟨.init g source, .ofText origin [], []⟩

/-! ## Steps -/

/-- What a step gives: the next state, or the result. -/
inductive Progress (σ : Type) where
  | more (s : State σ)
  | done (r : Result σ)

/-- The end of a text: the modifiers are applied and the output goes to
the text around it. -/
def close (c : Setting σ) (s : State σ) : Progress σ :=
  let text := c.modifiers.apply s.frame.output s.frame.modifiers
  match s.waiting with
  | [] => .done ⟨text, s.store⟩
  | f :: rest => .more ⟨s.store, f.emit text, rest⟩

/-- A reference to a bound symbol, in a frame with that token taken. -/
def refer (c : Setting σ) (s : State σ) (key : Text) (names : List Text)
    (candidates : List Text) : State σ :=
  let (chosen, store) := s.store.pick c.draw key candidates
  if s.store.depth < ceiling then ⟨store, .ofText chosen names, s.frame :: s.waiting⟩
  else ⟨store, s.frame.emit (c.modifiers.apply chosen names), s.waiting⟩

/-- One token of a frame from which it has been taken. -/
def read (c : Setting σ) (s : State σ) : Token → State σ
  | .text value => { s with frame := s.frame.emit value }
  | .action key value => { s with store := s.store.bind key value }
  | .rule key names =>
    match s.store.symbols.get? key with
    | none => { s with frame := s.frame.emit (Token.reference key names) }
    | some candidates => s.refer c key names candidates

/-- One token, or the end of a text. -/
def step (c : Setting σ) (s : State σ) : Progress σ :=
  match s.frame.pending with
  | [] => s.close c
  | t :: rest => .more ({ s with frame := { s.frame with pending := rest } }.read c t)

/-! ## Every expansion ends -/

/-- The tokens still to be read in a list of frames, and their ends. -/
def work (fs : List Frame) : Nat := fs.foldr (fun f n => f.pending.length + 1 + n) 0

/-- The levels below the ceiling, and the work that is known. -/
def measure (s : State σ) : Nat × Nat := (ceiling - s.store.depth, work (s.frame :: s.waiting))

/-- The order in which the measure lessens. -/
abbrev Less : Nat × Nat → Nat × Nat → Prop := Prod.Lex (· < ·) (· < ·)

theorem less_refer (c : Setting σ) (s : State σ) (key : Text) (names candidates : List Text) :
    Less (s.refer c key names candidates).measure
      (ceiling - s.store.depth, work (s.frame :: s.waiting) + 1) := by
  simp only [refer, Store.pick]
  split <;> simp only [measure, work, Frame.emit, List.foldr_cons, Prod.lex_def]
  · omega
  · omega

theorem less_read (c : Setting σ) (s : State σ) (t : Token) :
    Less (s.read c t).measure (ceiling - s.store.depth, work (s.frame :: s.waiting) + 1) := by
  cases t with
  | text v => exact Prod.Lex.right _ (Nat.lt_succ_self _)
  | action k v => exact Prod.Lex.right _ (Nat.lt_succ_self _)
  | rule k ns =>
    simp only [read]
    split
    · exact Prod.Lex.right _ (Nat.lt_succ_self _)
    · exact less_refer c s k ns _

/-- Every step lessens the measure. -/
theorem less_step {c : Setting σ} {s s' : State σ} (h : s.step c = .more s') :
    Less s'.measure s.measure := by
  unfold step at h
  split at h
  · next hp =>
    unfold close at h
    simp only at h
    split at h
    · simp at h
    · next f rest hw =>
      simp only [Progress.more.injEq] at h
      subst h
      simp only [measure, work, Frame.emit, hp, hw, List.foldr_cons]
      exact Prod.Lex.right _ (by simp only [List.length_nil]; omega)
  · next t rest hp =>
    simp only [Progress.more.injEq] at h
    subst h
    have := less_read c { s with frame := { s.frame with pending := rest } } t
    simp only [measure, work, hp, List.foldr_cons, Prod.lex_def, List.length_cons] at this ⊢
    omega

/-- All steps from a state on. -/
def run (c : Setting σ) (s : State σ) : Result σ :=
  match _h : s.step c with
  | .done r => r
  | .more s' => run c s'
termination_by s.measure
decreasing_by exact less_step _h

end State

/-- The expansion of an origin in a grammar. -/
def expand (c : Setting σ) (g : Grammar) (origin : Text) (source : σ) : Result σ :=
  (State.init g origin source).run c

/-- Expansions one after the other with one source: each has the grammar
as it was given, and goes on in the source where the one before it
stopped. -/
def expandAll (c : Setting σ) : List (Grammar × Text) → σ → List (Result σ)
  | [], _ => []
  | (g, origin) :: rest, source =>
    let r := expand c g origin source
    r :: expandAll c rest r.store.source

end TextGrammar.Expansion
