/-
# `TextGrammar.Rule.Token` — the parts of a rule

A rule is a text in which `#key.modifier#` refers to a symbol and
`[key:value]` binds one.  Cut into parts it is a list of events: a token
for what can be read, and a drop for a closed span that cannot.  Each
event stands for the characters it was read from (`Event.source`).
-/
import TextGrammar.Text.Basic

namespace TextGrammar

/-! ## Tokens and events -/

/-- A part of a rule: plain text, a reference to a symbol with the
modifiers of its expansion, or an action that binds a symbol. -/
inductive Token where
  | text (value : Text)
  | rule (key : Text) (modifiers : List Text)
  | action (key value : Text)
deriving DecidableEq, Repr

/-- The two kinds of spans that can be unreadable. -/
inductive SpanKind where
  | rule
  | action
deriving DecidableEq, Repr

/-- What cutting a rule gives, in the order of the text. -/
inductive Event where
  | token (t : Token)
  | drop (kind : SpanKind) (span : Text)
deriving DecidableEq, Repr

/-- The text `#key.modifier#` of a reference. -/
def Token.reference (key : Text) (modifiers : List Text) : Text :=
  '#' :: Text.join ['.'] (key :: modifiers) ++ ['#']

/-- The characters a token was read from. -/
def Token.source : Token → Text
  | .text value => value
  | .rule key modifiers => reference key modifiers
  | .action key value => '[' :: key ++ ':' :: value ++ [']']

/-- The characters an event was read from. -/
def Event.source : Event → Text
  | .token t => t.source
  | .drop _ span => span

/-- The token of an event that is no drop. -/
def Event.token? : Event → Option Token
  | .token t => some t
  | .drop _ _ => none

/-! ## Reading a closed span -/

/-- Whether a character opens a reference or an action. -/
def isOpener (c : Char) : Bool := c == '#' || c == '['

/-- The characters of a span between its first and its last one. -/
def spanBody (span : Text) : Text := (span.drop 1).dropLast

/-- The event of a span from `#` to the next `#`: a reference, unless
nothing stands between. -/
def ruleEvent (span : Text) : Event :=
  match spanBody span with
  | [] => .drop .rule span
  | c :: cs => match Text.fields '.' (c :: cs) with
    | [] => .drop .rule span
    | key :: modifiers => .token (.rule key modifiers)

/-- A key and a value around the first `:`, neither of them empty. -/
def binding? (t : Text) : Option (Text × Text) :=
  match t.takeWhile (· != ':'), t.dropWhile (· != ':') with
  | k :: ks, _ :: v :: vs => some (k :: ks, v :: vs)
  | _, _ => none

/-- The binding behind the leftmost `[` of a text behind which there is
one. -/
def bindingAfterOpener? : Text → Option (Text × Text)
  | [] => none
  | c :: cs =>
    if c = '[' then
      match binding? cs with
      | some b => some b
      | none => bindingAfterOpener? cs
    else bindingAfterOpener? cs

/-- The event of a span from `[` to the next `]`: an action, unless no
binding stands between. -/
def actionEvent (span : Text) : Event :=
  match bindingAfterOpener? span.dropLast with
  | some (key, value) => .token (.action key value)
  | none => .drop .action span

/-! ## An action is longer than its value -/

theorem length_of_binding? {t k v : Text} (h : binding? t = some (k, v)) :
    v.length < t.length := by
  unfold binding? at h
  split at h
  · next k' ks c v' vs _ hd =>
    simp only [Option.some.injEq, Prod.mk.injEq] at h
    obtain ⟨-, rfl⟩ := h
    have := (List.dropWhile_sublist (l := t) (· != ':')).length_le
    rw [hd] at this
    simp only [List.length_cons] at this ⊢
    omega
  · simp at h

theorem length_of_bindingAfterOpener? {t k v : Text}
    (h : bindingAfterOpener? t = some (k, v)) : v.length < t.length := by
  induction t with
  | nil => simp [bindingAfterOpener?] at h
  | cons c cs ih =>
    simp only [bindingAfterOpener?] at h
    simp only [List.length_cons]
    split at h
    · split at h
      · next b hb =>
        simp only [Option.some.injEq] at h
        subst h
        have := length_of_binding? hb
        omega
      · have := ih h
        omega
    · have := ih h
      omega

/-- The value of an action is shorter than the span it was read from. -/
theorem length_of_actionEvent {span k v : Text}
    (h : actionEvent span = .token (.action k v)) : v.length < span.length := by
  unfold actionEvent at h
  split at h
  · next key value hb =>
    simp only [Event.token.injEq, Token.action.injEq] at h
    obtain ⟨-, rfl⟩ := h
    have := length_of_bindingAfterOpener? hb
    simp only [List.length_dropLast] at this
    omega
  · simp at h

/-- A span between `#` is never an action. -/
theorem ruleEvent_ne_action {span k v : Text} : ruleEvent span ≠ .token (.action k v) := by
  unfold ruleEvent
  split <;> (try split) <;> simp

end TextGrammar
