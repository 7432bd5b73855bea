/-
# `TextGrammar.Grammar.Lint` — where expansion degrades in silence

Expansion never fails.  A symbol without candidates gives nothing, a
reference that nothing defines stays as it is written, a modifier without
a function changes nothing and an unreadable action vanishes.  `lint`
finds these places in the origin and in every candidate, and the symbols
that the origin does not reach.
-/
import TextGrammar.Grammar.Diagnostic
import TextGrammar.Grammar.Basic
import TextGrammar.Modifier.Registry

namespace TextGrammar.Lint

/-! ## Findings -/

/-- What can be found. -/
inductive Finding where
  | emptySymbol (symbol : Text)
  | unknownSymbol (reference : Text)
  | unknownModifier (name reference : Text)
  | droppedAction (span : Text)
  | unreachable (symbol origin : Text)
deriving DecidableEq, Repr

/-- The code of a finding. -/
def Finding.code : Finding → Text
  | .emptySymbol _ => "L_EMPTY_SYMBOL".toList
  | .unknownSymbol _ => "L_UNKNOWN_SYMBOL".toList
  | .unknownModifier _ _ => "L_UNKNOWN_MODIFIER".toList
  | .droppedAction _ => "L_DROPPED_ACTION".toList
  | .unreachable _ _ => "L_UNREACHABLE_SYMBOL".toList

/-- The words for a finding. -/
def Finding.message : Finding → Text
  | .emptySymbol s => "symbol '".toList ++ s ++ "' has no candidates".toList
  | .unknownSymbol r => "reference to undefined symbol: ".toList ++ r
  | .unknownModifier n r => "unknown modifier '".toList ++ n ++ "' in ".toList ++ r
  | .droppedAction span =>
    "malformed action ".toList ++ span ++ " (expected [key:value])".toList
  | .unreachable s origin =>
    "symbol '".toList ++ s ++ "' is not reachable from ".toList ++ origin

/-- A rule and where it stands: the candidate of a symbol, or the
origin. -/
structure Site where
  symbol : Option Text
  index : Option Nat
  rule : Text
deriving DecidableEq, Repr

/-- A finding at a site as a diagnostic for a file.  In the origin, which
has no symbol, the message says so. -/
def Site.diagnostic (file : Option Text) (site : Site) (f : Finding) : Diagnostic :=
  let note := if site.symbol.isSome then [] else "origin: ".toList
  ⟨.validation, f.code, note ++ f.message, file, site.symbol, site.index.map Int.ofNat⟩

/-- A finding about a symbol as a whole as a diagnostic for a file. -/
def symbolDiagnostic (file : Option Text) (symbol : Text) (f : Finding) : Diagnostic :=
  ⟨.validation, f.code, f.message, file, some symbol, none⟩

/-! ## Sites -/

/-- The candidates of a symbol as sites, counted from a number on. -/
def candidateSites (symbol : Text) : Nat → List Text → List Site
  | _, [] => []
  | i, rule :: rest => ⟨some symbol, some i, rule⟩ :: candidateSites symbol (i + 1) rest

/-- The origin and all candidates of a grammar. -/
def sites (g : Grammar) (origin : Text) : List Site :=
  ⟨none, none, origin⟩ :: g.flatMap fun (symbol, candidates) => candidateSites symbol 0 candidates

/-- The symbols that the actions of a rule bind. -/
def boundBy (rule : Text) : List Text :=
  (Rule.walkTokens rule).filterMap fun
    | .action key _ => some key
    | _ => none

/-- The symbols that the grammar or an action somewhere defines. -/
def defined (g : Grammar) (origin : Text) : List Text :=
  g.keys ++ (sites g origin).flatMap fun site => boundBy site.rule

/-! ## Checks -/

/-- What is found at an event of a rule. -/
def eventFindings (known : List Text) (modifiers : Option Registry) : Event → List Finding
  | .token (.rule key names) =>
    let reference := Token.reference key names
    let unknown := if known.contains key then [] else [.unknownSymbol reference]
    let missing := match modifiers with
      | none => []
      | some r => names.filter fun n => !r.contains n
    unknown ++ missing.map fun n => .unknownModifier n reference
  | .drop .action span => [.droppedAction span]
  | _ => []

/-- What is found at a site. -/
def siteFindings (known : List Text) (modifiers : Option Registry) (site : Site) :
    List Finding :=
  (Rule.walk site.rule).flatMap (eventFindings known modifiers)

/-- The symbols without candidates. -/
def emptySymbols (g : Grammar) : List Text :=
  Assoc.keys (g.filter fun (_, candidates) => candidates.isEmpty)

/-- The symbols that the origin does not reach, in order. -/
def unreachableSymbols (g : Grammar) (origin : Text) : List Text :=
  let reached := Reachability.reachable g origin
  Text.sort (g.keys.filter fun k => !reached.contains k)

/-- All findings as diagnostics for a file, as they are found. -/
def found (g : Grammar) (origin : Text) (modifiers : Option Registry) (file : Option Text) :
    List Diagnostic :=
  let known := defined g origin
  (emptySymbols g).map (fun s => symbolDiagnostic file s (.emptySymbol s))
    ++ (sites g origin).flatMap (fun site =>
        (siteFindings known modifiers site).map (site.diagnostic file))
    ++ (unreachableSymbols g origin).map (fun s =>
        symbolDiagnostic file s (.unreachable s origin))

/-- All findings as diagnostics for a file, in order. -/
def lint (g : Grammar) (origin : Text) (modifiers : Option Registry) (file : Option Text) :
    List Diagnostic :=
  Diagnostic.sort (found g origin modifiers file)

end TextGrammar.Lint
