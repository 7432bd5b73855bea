/-
# `TextGrammar.Cli.Arguments` — options and operands

Arguments are operands and options in any order.  A long option has its
value behind `=` or in the next argument; short options stand behind one
hyphen together, and the first of them that takes a value has the rest of
the argument, or else the next one, as its value.  Behind `--` there are
only operands, and a lone hyphen is one as well.
-/
import TextGrammar.Text.Basic

namespace TextGrammar.Cli

/-! ## Options -/

/-- An option: its long name with the hyphens, its letter if it has one,
and whether it takes a value. -/
structure OptionSpec where
  long : Text
  short : Option Char
  takesValue : Bool
deriving DecidableEq, Repr

/-- Arguments in their two kinds, each in the order given; an option goes
by its long name, and one without value has the empty text. -/
structure Arguments where
  operands : List Text
  options : List (Text × Text)
deriving DecidableEq, Repr

namespace Arguments

/-- One more operand. -/
def addOperand (a : Arguments) (t : Text) : Arguments :=
  { a with operands := a.operands ++ [t] }

/-- One more option. -/
def addOption (a : Arguments) (name value : Text) : Arguments :=
  { a with options := a.options ++ [(name, value)] }

/-- Whether an option is given. -/
def has (a : Arguments) (name : String) : Bool := a.options.any fun (n, _) => n == name.toList

/-- The value that is given last for an option. -/
def value? (a : Arguments) (name : String) : Option Text :=
  a.options.reverse.lookup name.toList

/-! ## Single arguments -/

/-- What an argument asks for: nothing more, or the next argument as the
value of an option. -/
inductive Effect where
  | complete (a : Arguments)
  | needsValue (a : Arguments) (name : Text)

/-- An argument that starts with two hyphens. -/
def long? (specs : List OptionSpec) (a : Arguments) (arg : Text) : Option Effect :=
  let name := arg.takeWhile (· != '=')
  let attached := (arg.drop name.length).drop 1
  let hasAttached := name.length < arg.length
  match specs.find? fun s => s.long == name with
  | none => none
  | some s =>
    if s.takesValue then
      some (if hasAttached then .complete (a.addOption name attached) else .needsValue a name)
    else if hasAttached then none
    else some (.complete (a.addOption name []))

/-- The letters behind one hyphen. -/
def letters? (specs : List OptionSpec) (a : Arguments) : Text → Option Effect
  | [] => some (.complete a)
  | c :: rest =>
    match specs.find? fun s => s.short == some c with
    | none => none
    | some s =>
      if s.takesValue then
        some (if rest.isEmpty then .needsValue a s.long else .complete (a.addOption s.long rest))
      else letters? specs (a.addOption s.long []) rest

/-- An argument before any `--`. -/
def one? (specs : List OptionSpec) (a : Arguments) (arg : Text) : Option Effect :=
  match arg with
  | '-' :: '-' :: _ => long? specs a arg
  | '-' :: c :: rest => letters? specs a (c :: rest)
  | _ => some (.complete (a.addOperand arg))

/-! ## All arguments -/

/-- The arguments behind those that were read already; nothing if one of
them is unknown or lacks its value. -/
def readFrom? (specs : List OptionSpec) (a : Arguments) : List Text → Option Arguments
  | [] => some a
  | arg :: rest =>
    if arg = "--".toList then some { a with operands := a.operands ++ rest }
    else match one? specs a arg, rest with
      | none, _ => none
      | some (.complete a), rest => readFrom? specs a rest
      | some (.needsValue _ _), [] => none
      | some (.needsValue a name), value :: rest => readFrom? specs (a.addOption name value) rest

/-- Arguments read with the options that are known. -/
def read? (specs : List OptionSpec) (args : List Text) : Option Arguments :=
  readFrom? specs ⟨[], []⟩ args

end Arguments

end TextGrammar.Cli
