/-
# `TextGrammar.Rule.Split` — what the events of a rule are

The cutting of a rule told without a scan: each part ends where its
first closer or the next opener stands.

    `#` u `#` w   with no `#` in u         the event of the span, then w
    `[` u `]` w   with no `]` in u         the event of the span, then w
    `#` w, `[` w  without a closer in w    text to the next opener, then the rest
    w             with no opener in front  text to the next opener, then the rest

`Rule.split` is this table as a function on the characters.
-/
import TextGrammar.Rule.Token

namespace TextGrammar.Rule

/-- Whether a character belongs to text that has begun. -/
def isPlain (c : Char) : Bool := !isOpener c

/-- A part of a rule and what is behind it: the event of the span when
the closer is there, or else text up to the next opener. -/
def splitSpan (opener closer : Char) (event : Text → Event) (rest : Text) : Event × Text :=
  match rest.dropWhile (· != closer) with
  | [] => (.token (.text (opener :: rest.takeWhile isPlain)), rest.dropWhile isPlain)
  | _ :: behind => (event (opener :: rest.takeWhile (· != closer) ++ [closer]), behind)

/-- The first event of a rule that starts with `c`, and what is behind
it. -/
def splitFirst (c : Char) (rest : Text) : Event × Text :=
  if c = '#' then splitSpan '#' '#' ruleEvent rest
  else if c = '[' then splitSpan '[' ']' actionEvent rest
  else (.token (.text (c :: rest.takeWhile isPlain)), rest.dropWhile isPlain)

theorem length_splitFirst (c : Char) (rest : Text) :
    (splitFirst c rest).2.length ≤ rest.length := by
  have hd := fun p => (List.dropWhile_sublist (l := rest) p).length_le
  have hspan : ∀ o k e, (splitSpan o k e rest).2.length ≤ rest.length := by
    intro o k e
    have hk := hd (· != k)
    unfold splitSpan
    split
    · exact hd isPlain
    · next _ _ _ h =>
      rw [h] at hk
      simp only [List.length_cons] at hk
      simp only
      omega
  unfold splitFirst
  split
  · exact hspan _ _ _
  · split
    · exact hspan _ _ _
    · exact hd isPlain

/-- The events of a rule. -/
def split : Text → List Event
  | [] => []
  | c :: rest => (splitFirst c rest).1 :: split (splitFirst c rest).2
termination_by t => t.length
decreasing_by exact Nat.lt_succ_of_le (length_splitFirst c rest)

end TextGrammar.Rule
