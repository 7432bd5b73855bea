/-
# `TextGrammar.Main` — the program

Reads the files that a command may need, runs the command and writes what
it leaves.
-/
import TextGrammar.Cli.Command

namespace TextGrammar

/-- The files a command may name: its operands and the values of its
options. -/
def namedPaths : Cli.Command → List Text
  | .expand o => o.path :: o.modifierFile.toList
  | .validate path _ => [path]
  | .lint path _ modifierFile _ => path :: modifierFile.toList
  | .tokens _ => []
  | .modifiers modifierFile => modifierFile.toList
  | .help => []

/-- What is at a path, if anything is.  A directory is told by the fault
that reading it gives. -/
def entryAt (p : Path) : IO (Option Entry) := do
  try
    return some (.file (← IO.FS.readBinFile (String.ofList p.toText)).toList)
  catch
    | .inappropriateType _ 21 _ => return some .directory
    | _ => return none

/-- The files a command may name, as far as they are there, with the
directories on the way to them. -/
def treeFor (command : Cli.Command) : IO FileTree := do
  let stages := (namedPaths command).flatMap fun path => (Path.ofText path).stages
  let entries ← stages.reverse.filterMapM fun p => do
    return (← entryAt p).map fun e => (p, e)
  return ⟨entries⟩

/-- A generator that is different every time. -/
def ambient : IO Twister := do
  let n ← IO.rand 0 0xfffffffffffffff
  return (Seed.number n).generator

/-- Runs a command and writes what it leaves. -/
def runMain (args : List String) : IO UInt32 := do
  match Cli.Command.ofArguments? (args.map String.toList) with
  | none =>
    IO.eprintln (String.ofList Cli.usage)
    return 2
  | some command =>
    let o := command.run (← treeFor command) (← ambient)
    IO.print (String.ofList o.out.render)
    IO.eprint (String.ofList o.err)
    return UInt32.ofNat o.exit

end TextGrammar

def main (args : List String) : IO UInt32 := TextGrammar.runMain args
