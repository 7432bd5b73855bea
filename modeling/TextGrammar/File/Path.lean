/-
# `TextGrammar.File.Path` — paths

A path is a list of names below the current directory or below a root.
Empty names and names of a single dot say nothing and are left out; two
dots stay.
-/
import TextGrammar.Text.Basic

namespace TextGrammar

/-- A path: slashes in front of an absolute one, and the names. -/
structure Path where
  root : Text
  names : List Text
deriving DecidableEq, Repr

namespace Path

/-- The slashes in front of a path.  Exactly two of them are told from
one. -/
def rootOf (t : Text) : Text :=
  match t.takeWhile (· == '/') with
  | [] => []
  | ['/', '/'] => ['/', '/']
  | _ => ['/']

/-- The path that a text writes. -/
def ofText (t : Text) : Path :=
  ⟨rootOf t, (Text.fields '/' t).filter fun name => !name.isEmpty && name != ['.']⟩

/-- A path as a text. -/
def toText (p : Path) : Text :=
  if p.root.isEmpty && p.names.isEmpty then ['.'] else p.root ++ Text.join ['/'] p.names

/-- The directory above; above a root there is the root itself, and the
current directory has none. -/
def parent? (p : Path) : Option Path :=
  if p.names.isEmpty && p.root.isEmpty then none
  else some { p with names := p.names.dropLast }

/-- The paths of the directories that lead to a path, and the path. -/
def stages (p : Path) : List Path :=
  (List.range p.names.length).map fun n => { p with names := p.names.take (n + 1) }

/-- The last name of a path. -/
def name (p : Path) : Text := p.names.getLast?.getD []

/-- The end of the name from its last dot on, unless the dot is the first
or the last character. -/
def suffix (p : Path) : Text :=
  let ending := p.name.reverse.takeWhile (· != '.')
  let front := p.name.length - ending.length
  if 1 < front ∧ ending ≠ [] then '.' :: ending.reverse else []

end Path

end TextGrammar
