/-
# `TextGrammar.Cli.Command` — the commands

Each command is read from arguments and run on the files there are.  What
it leaves is an outcome: an exit code, what goes to the two outputs, and
the fault that broke it off, if one did that no command answers for.

Loading a file and reaching the ceiling are logged, both at the lowest
level and each under the name of its part of the program.
-/
import TextGrammar.Cli.Arguments
import TextGrammar.Cli.Table
import TextGrammar.Expansion.Machine
import TextGrammar.File.Path
import TextGrammar.Grammar.File
import TextGrammar.Grammar.Lint
import TextGrammar.Grammar.Validation
import TextGrammar.Json.Printer
import TextGrammar.Modifier.AliasFile
import TextGrammar.Random.Seed
import TextGrammar.Text.ControlSequence

namespace TextGrammar

/-! ## What is logged -/

/-- What can be logged. -/
inductive LogEntry where
  | loaded (p : Path) (symbols : Nat)
  | ceiling (n : Expansion.Notice)
deriving DecidableEq, Repr

/-- The line for an entry. -/
def LogEntry.line : LogEntry → Text
  | .loaded p symbols =>
    "DEBUG tracery_engine.core.io.load_grammar: loaded ".toList ++ p.toText ++ " (".toList
      ++ Text.ofNat symbols ++ " symbols)".toList
  | .ceiling n => "DEBUG tracery_engine.core.expand.engine: ".toList ++ n.message

end TextGrammar

namespace TextGrammar.Cli

/-! ## Commands -/

/-- What to expand, and how. -/
structure ExpandOptions where
  path : Text
  origin : Text
  seed : Option Text
  count : Nat
  modifierFile : Option Text
  noModifiers : Bool
  format : Text
  verbose : Bool
deriving DecidableEq, Repr

/-- A command with its options. -/
inductive Command where
  | expand (o : ExpandOptions)
  | validate (path format : Text)
  | lint (path origin : Text) (modifierFile : Option Text) (format : Text)
  | tokens (rule : Text)
  | modifiers (modifierFile : Option Text)
  | help
deriving DecidableEq, Repr

namespace Command

/-- An option with a value. -/
def valued (long : String) (short : Option Char) : OptionSpec := ⟨long.toList, short, true⟩

/-- An option without value. -/
def flag (long : String) (short : Option Char) : OptionSpec := ⟨long.toList, short, false⟩

/-- The option that asks for help. -/
def helpFlag : OptionSpec := flag "--help" none

/-- The options of `expand`. -/
def expandSpecs : List OptionSpec := [
  valued "--origin" none, valued "--seed" none, valued "--count" (some 'n'),
  valued "--modifier-file" none, flag "--no-modifiers" none, valued "--format" none,
  flag "--verbose" (some 'v'), helpFlag]

/-- The options of `validate`. -/
def validateSpecs : List OptionSpec := [valued "--format" none, helpFlag]

/-- The options of `lint`. -/
def lintSpecs : List OptionSpec :=
  [valued "--origin" none, valued "--modifier-file" none, valued "--format" none, helpFlag]

/-- The options of `tokens`. -/
def tokensSpecs : List OptionSpec := [helpFlag]

/-- The options of `modifiers`. -/
def modifiersSpecs : List OptionSpec := [valued "--modifier-file" none, helpFlag]

/-- How many results are asked for: one if nothing is said, and at least
one. -/
def count? (a : Arguments) : Option Nat :=
  match a.value? "--count" with
  | none => some 1
  | some t =>
    match Numeral.readInt 10 t with
    | .ok (.ofNat (n + 1)) => some (n + 1)
    | _ => none

/-- The output format that is asked for. -/
def formatOf (a : Arguments) : Text := (a.value? "--format").getD "text".toList

/-- The origin that is asked for. -/
def originOf (a : Arguments) : Text := (a.value? "--origin").getD Expansion.defaultOrigin

/-- A command that takes one operand. -/
def withOperand? (a : Arguments) (f : Text → Option Command) : Option Command :=
  match a.operands with
  | [t] => f t
  | _ => none

/-- A command from its arguments, unless these ask for help. -/
def unlessHelp (a : Arguments) (c : Option Command) : Option Command :=
  if a.has "--help" then some .help else c

/-- The `expand` of arguments. -/
def expandOf? (a : Arguments) : Option Command := do
  let count ← count? a
  withOperand? a fun path => some (.expand {
    path := path
    origin := originOf a
    seed := a.value? "--seed"
    count := count
    modifierFile := a.value? "--modifier-file"
    noModifiers := a.has "--no-modifiers"
    format := formatOf a
    verbose := a.has "--verbose" })

/-- The command of a name with its arguments. -/
def named? (name : Text) (args : List Text) : Option Command :=
  let given := fun (specs : List OptionSpec) (f : Arguments → Option Command) =>
    (Arguments.read? specs args).bind fun a => unlessHelp a (f a)
  if name = "expand".toList then given expandSpecs expandOf?
  else if name = "validate".toList then
    given validateSpecs fun a => withOperand? a fun path => some (.validate path (formatOf a))
  else if name = "lint".toList then
    given lintSpecs fun a => withOperand? a fun path =>
      some (.lint path (originOf a) (a.value? "--modifier-file") (formatOf a))
  else if name = "tokens".toList then
    given tokensSpecs fun a => withOperand? a fun rule => some (.tokens rule)
  else if name = "modifiers".toList then
    given modifiersSpecs fun a =>
      if a.operands.isEmpty then some (.modifiers (a.value? "--modifier-file")) else none
  else none

/-- The command that arguments ask for; nothing if they are no command.
Before the name of the command there is only `--` or a wish for help. -/
def ofArguments? : List Text → Option Command
  | [] => none
  | name :: rest =>
    if name = "--help".toList then some .help
    else if name = "--".toList then
      match rest with
      | [] => none
      | name :: rest => named? name rest
    else named? name rest

end Command

/-! ## Outcomes -/

/-- What a command writes: a text, or a report in JSON. -/
inductive Output where
  | text (t : Text)
  | report (r : Json.Report)

/-- The characters of an output. -/
def Output.render : Output → Text
  | .text t => t
  | .report r => Text.withoutSequences (r.render 0) ++ ['\n']

/-- A fault that no command answers for. -/
inductive Crash where
  | loading (f : GrammarFile.Fault)
  | modifiers (f : AliasFile.Fault)

/-- What a command leaves. -/
structure Outcome where
  exit : Nat
  out : Output
  err : Text
  crash : Option Crash

namespace Outcome

/-- A command that wrote only a text. -/
def success (t : Text) : Outcome := ⟨0, .text t, [], none⟩

/-- A command that was refused with messages. -/
def refusal (exit : Nat) (err : Text) : Outcome := ⟨exit, .text [], err, none⟩

/-- A command that a fault broke off. -/
def broken (c : Crash) : Outcome := ⟨1, .text [], [], some c⟩

/-- A command that wrote a report. -/
def reported (exit : Nat) (r : Json.Report) : Outcome := ⟨exit, .report r, [], none⟩

/-- The outcome with lines in front of its messages. -/
def precededBy (logs : List Text) (o : Outcome) : Outcome :=
  { o with err := logs.flatMap (· ++ ['\n']) ++ o.err }

end Outcome

/-- A line of output. -/
def echo (t : Text) : Text := Text.withoutSequences t ++ ['\n']

/-- Diagnostics in order, each in a line. -/
def diagnosticLines (ds : List Diagnostic) : Text :=
  (Diagnostic.sort ds).flatMap fun d => echo d.line

/-! ## Reports -/

/-- A text that may be missing. -/
def textOrNull (t : Option Text) : Json.Report := t.elim .null .text

/-- The part of the program that a diagnostic comes from. -/
def sourceOf (d : Diagnostic) : Text :=
  if d.kind = .load then "load".toList
  else if "L_".toList.isPrefixOf d.code then "lint".toList
  else "validate".toList

/-- The number of a candidate. -/
def indexReport : Option Int → Json.Report
  | some (.ofNat n) => .count n
  | _ => .null

/-- A diagnostic in a report. -/
def diagnosticReport (d : Diagnostic) : Json.Report := .object [
  ("code".toList, .text d.code), ("message".toList, .text d.message),
  ("file".toList, textOrNull d.file), ("symbol".toList, textOrNull d.symbol),
  ("index".toList, indexReport d.index), ("severity".toList, .text "error".toList),
  ("source".toList, .text (sourceOf d))]

/-- The members that the reports of all commands have. -/
def commonMembers (command : String) (ok : Bool) : List (Text × Json.Report) := [
  ("tool".toList, .text "tracery".toList), ("command".toList, .text command.toList),
  ("ok".toList, .flag ok)]

/-- The members for a list of diagnostics. -/
def errorMembers (ds : List Diagnostic) : List (Text × Json.Report) := [
  ("error_count".toList, .count ds.length), ("errors".toList, .array (ds.map diagnosticReport))]

/-- The report of `validate`. -/
def validateReport (ds : List Diagnostic) (summary : Json.Report) : Json.Report :=
  .object (commonMembers "validate" ds.isEmpty ++ errorMembers ds
    ++ [("summary".toList, summary)])

/-- The report of `lint`. -/
def lintReport (ds : List Diagnostic) : Json.Report :=
  .object (commonMembers "lint" ds.isEmpty ++ errorMembers ds)

/-- The size of a grammar and its symbols in order. -/
def summaryReport (g : Grammar) : Json.Report := .object [
  ("symbol_count".toList, .count g.length), ("rule_count".toList, .count g.ruleCount),
  ("symbols".toList, .array ((Text.sort g.keys).map .text))]

/-- The report of `expand`. -/
def expandReport (o : ExpandOptions) (results : List Text) : Json.Report :=
  .object (commonMembers "expand" true ++ [
    ("origin".toList, .text o.origin), ("seed".toList, textOrNull o.seed),
    ("results".toList, .array (results.map .text))])

/-! ## What the commands share -/

/-- Whether a format is one of the two there are. -/
def isFormat (format : Text) : Bool := format == "text".toList || format == "json".toList

/-- The outcome for a format there is not. -/
def unknownFormat (code : String) (format : Text) : Outcome :=
  .refusal 2 (diagnosticLines [⟨.validation, code.toList,
    "unknown --format: ".toList ++ format ++ " (choose one of: text, json)".toList,
    none, none, none⟩])

/-- Why there is no grammar to work with. -/
inductive Rejection where
  | load (d : Diagnostic)
  | invalid (ds : List Diagnostic)
  | crash (f : GrammarFile.Fault)

/-- The diagnostics of a rejection. -/
def Rejection.diagnostics : Rejection → List Diagnostic
  | .load d => [d]
  | .invalid ds => ds
  | .crash _ => []

/-- The exit code of a rejection. -/
def Rejection.exit : Rejection → Nat
  | .load _ => 1
  | .invalid _ => 2
  | .crash _ => 1

/-- The outcome of a rejection when messages are written. -/
def Rejection.outcome (r : Rejection) : Outcome :=
  match r with
  | .crash f => .broken (.loading f)
  | r => .refusal r.exit (diagnosticLines r.diagnostics)

/-- The outcome of a rejection when a report is written. -/
def Rejection.reported (r : Rejection) (report : List Diagnostic → Json.Report) : Outcome :=
  match r with
  | .crash f => .broken (.loading f)
  | r => .reported r.exit (report r.diagnostics)

/-- The grammar in the file at a path, and what was logged on the way. -/
def grammarAt (tree : FileTree) (path : Text) : List LogEntry × Except Rejection Grammar :=
  let p := Path.ofText path
  match GrammarFile.load tree p with
  | .error f => ([], .error (if f.escapes then .crash f else .load (f.diagnostic p)))
  | .ok raw =>
    ([.loaded p raw.length], (Validation.validate raw (some path)).mapError .invalid)

/-- The outcome when a file of aliases cannot be used. -/
def aliasOutcome (path : Text) (f : AliasFile.Fault) : Outcome :=
  match f with
  | .read .missing =>
    .refusal 1 (diagnosticLines [⟨.load, "E_MODIFIER_FILE_NOT_FOUND".toList,
      "modifier file not found".toList, some path, none, none⟩])
  | .defect d =>
    .refusal 2 (diagnosticLines [⟨.validation, "E_MODIFIER_FILE_INVALID".toList, d.message,
      some path, none, none⟩])
  | f => .broken (.modifiers f)

/-- The modifiers with the aliases of a file, if one is named. -/
def modifiersOf (tree : FileTree) (file : Option Text) : Except Outcome Registry :=
  match file with
  | none => .ok Registry.english
  | some [] => .ok Registry.english
  | some path => (AliasFile.registry tree (Path.ofText path)).mapError (aliasOutcome path)

/-! ## The commands -/

/-- Expansions of one origin with one source. -/
def expansions (o : ExpandOptions) (g : Grammar) (r : Registry) (source : Twister) :
    List (Expansion.Result Twister) :=
  Expansion.expandAll ⟨r, Twister.draw⟩ (List.replicate o.count (g, o.origin)) source

/-- The outcome of `expand` with a grammar and modifiers, and what was
logged. -/
def expandWith (o : ExpandOptions) (g : Grammar) (r : Registry) (source : Twister) :
    List LogEntry × Outcome :=
  let results := expansions o g r source
  let texts := results.map (·.text)
  (results.flatMap fun r => r.store.notices.map .ceiling,
    if o.format = "json".toList then .reported 0 (expandReport o texts)
    else .success (texts.flatMap echo))

/-- The registry that `expand` uses. -/
def expandModifiers (tree : FileTree) (o : ExpandOptions) : Except Outcome Registry :=
  if o.noModifiers then .ok [] else modifiersOf tree o.modifierFile

/-- Runs `expand`; without a seed the numbers come from `ambient`. -/
def runExpand (tree : FileTree) (ambient : Twister) (o : ExpandOptions) : Outcome :=
  if !isFormat o.format then unknownFormat "E_EXPAND_UNKNOWN_FORMAT" o.format
  else
    let (loaded, grammar) := grammarAt tree o.path
    let (logs, outcome) :=
      match grammar with
      | .error rejection => (loaded, rejection.outcome)
      | .ok g =>
        match expandModifiers tree o with
        | .error outcome => (loaded, outcome)
        | .ok r =>
          let source := (o.seed.map fun t => (Seed.text t).generator).getD ambient
          let (logs, outcome) := expandWith o g r source
          (loaded ++ logs, outcome)
    if o.verbose then outcome.precededBy (logs.map LogEntry.line) else outcome

/-- Runs `validate`. -/
def runValidate (tree : FileTree) (path format : Text) : Outcome :=
  if !isFormat format then unknownFormat "E_VALIDATE_UNKNOWN_FORMAT" format
  else
    let json : Bool := format = "json".toList
    match (grammarAt tree path).2 with
    | .error rejection =>
      if json then rejection.reported (validateReport · .null) else rejection.outcome
    | .ok g =>
      if json then .reported 0 (validateReport [] (summaryReport g))
      else .success (echo g.summary)

/-- The outcome of `lint` for what it found. -/
def lintOutcome (json : Bool) (ds : List Diagnostic) : Outcome :=
  let exit := if ds.isEmpty then 0 else 2
  if json then .reported exit (lintReport ds)
  else if ds.isEmpty then .success (echo "OK: lint passed".toList)
  else .refusal exit (diagnosticLines ds)

/-- Runs `lint`. -/
def runLint (tree : FileTree) (path origin : Text) (modifierFile : Option Text) (format : Text) :
    Outcome :=
  if !isFormat format then unknownFormat "E_LINT_UNKNOWN_FORMAT" format
  else
    let json : Bool := format = "json".toList
    match (grammarAt tree path).2 with
    | .error rejection => if json then rejection.reported lintReport else rejection.outcome
    | .ok g =>
      match modifiersOf tree modifierFile with
      | .error outcome => outcome
      | .ok r => lintOutcome json (Lint.lint g origin (some r) (some path))

/-- A token as a row: its kind, its key and its value. -/
def tokenRow : Token → List Text
  | .text value => ["text".toList, [], Text.quoted value]
  | .rule key modifiers => ["rule".toList, key, Text.join ['.'] modifiers]
  | .action key value => ["action".toList, key, Text.quoted value]

/-- Runs `tokens`. -/
def runTokens (rule : Text) : Outcome :=
  let head := ["Kind", "Key", "Value"].map String.toList
  .success ((Table.lines "tokens".toList head ((Rule.tokens rule).map tokenRow)).flatMap
    (· ++ ['\n']))

/-- Runs `modifiers`. -/
def runModifiers (tree : FileTree) (modifierFile : Option Text) : Outcome :=
  match modifiersOf tree modifierFile with
  | .error outcome => outcome
  | .ok r =>
    .success (echo "Modifiers:".toList ++ r.names.flatMap fun n => echo ("- ".toList ++ n))

/-- How the program is called. -/
def usage : Text :=
  "Usage: tracery (expand | validate | lint | tokens | modifiers) [OPTIONS] [ARGUMENT]".toList

/-- Runs a command on the files there are. -/
def Command.run (tree : FileTree) (ambient : Twister) : Command → Outcome
  | .expand o => runExpand tree ambient o
  | .validate path format => runValidate tree path format
  | .lint path origin modifierFile format => runLint tree path origin modifierFile format
  | .tokens rule => runTokens rule
  | .modifiers modifierFile => runModifiers tree modifierFile
  | .help => .success (echo usage)

end TextGrammar.Cli
