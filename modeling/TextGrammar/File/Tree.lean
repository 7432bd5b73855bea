/-
# `TextGrammar.File.Tree` — files by their paths

A tree holds the bytes of files and the paths of directories; the
directories on the way to them are there as well.
-/
import TextGrammar.File.Path
import TextGrammar.Text.Quoted
import TextGrammar.Text.Utf8

namespace TextGrammar

/-- What is at a path. -/
inductive Entry where
  | file (bytes : List UInt8)
  | directory
deriving DecidableEq, Repr

/-- Files and directories by their paths. -/
structure FileTree where
  entries : List (Path × Entry)

/-- Why a file cannot be read as text. -/
inductive ReadFault where
  | missing
  | notADirectory
  | isADirectory
  | notText (f : Text.Utf8.Fault)
deriving DecidableEq, Repr

/-- The message for a fault at a path. -/
def ReadFault.message (p : Path) : ReadFault → Text
  | .missing => "[Errno 2] No such file or directory: ".toList ++ Text.quoted p.toText
  | .notADirectory => "[Errno 20] Not a directory: ".toList ++ Text.quoted p.toText
  | .isADirectory => "[Errno 21] Is a directory: ".toList ++ Text.quoted p.toText
  | .notText f => f.message

namespace FileTree

/-- The tree of files and directories whose paths are given as texts. -/
def ofEntries (entries : List (Text × Entry)) : FileTree :=
  ⟨entries.map fun (path, e) => (Path.ofText path, e)⟩

/-- What is at a path that does not go up. -/
def entry? (tree : FileTree) (p : Path) : Option Entry :=
  match tree.entries.lookup p with
  | some e => some e
  | none =>
    let leadsOn := fun ((q, _) : Path × Entry) => q.root == p.root && p.names.isPrefixOf q.names
    if p.names.isEmpty || tree.entries.any leadsOn then some .directory else none

/-- What names lead to from a directory.  Nothing is known of the
directories above the current one but that they are there. -/
def walk (tree : FileTree) (here : Option Path) : List Text → Except ReadFault Entry
  | [] =>
    match here with
    | none => .ok .directory
    | some p => (tree.entry? p).elim (.error .missing) .ok
  | name :: rest =>
    match here with
    | none => if name = ['.', '.'] then walk tree none rest else .error .missing
    | some p =>
      match tree.entry? p with
      | none => .error .missing
      | some (.file _) => .error .notADirectory
      | some .directory =>
        if name = ['.', '.'] then walk tree p.parent? rest
        else walk tree (some { p with names := p.names ++ [name] }) rest

/-- What is at a path.  What is known of the path as it is written comes
before what its names lead to. -/
def find (tree : FileTree) (p : Path) : Except ReadFault Entry :=
  match tree.entries.lookup p with
  | some e => .ok e
  | none => tree.walk (some { p with names := [] }) p.names

/-- Whether something is at a path. -/
def contains (tree : FileTree) (p : Path) : Bool := (tree.find p).isOk

/-- The text of the file at a path, with one kind of line ends. -/
def readText (tree : FileTree) (p : Path) : Except ReadFault Text :=
  match tree.find p with
  | .error f => .error f
  | .ok .directory => .error .isADirectory
  | .ok (.file bytes) =>
    match Text.Utf8.decode bytes with
    | .error f => .error (.notText f)
    | .ok t => .ok (Text.Utf8.unifyLines t)

end FileTree

end TextGrammar
