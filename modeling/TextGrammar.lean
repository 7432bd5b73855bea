import TextGrammar.Assoc
import TextGrammar.Cli.Arguments
import TextGrammar.Cli.Command
import TextGrammar.Cli.Table
import TextGrammar.Digest.Sha512
import TextGrammar.Expansion.Choice
import TextGrammar.Expansion.Machine
import TextGrammar.Expansion.Render
import TextGrammar.File.Path
import TextGrammar.File.Tree
import TextGrammar.Grammar.Basic
import TextGrammar.Grammar.Diagnostic
import TextGrammar.Grammar.File
import TextGrammar.Grammar.Lint
import TextGrammar.Grammar.Validation
import TextGrammar.Json.Parser
import TextGrammar.Json.Printer
import TextGrammar.Json.Token
import TextGrammar.Main
import TextGrammar.Modifier.AliasFile
import TextGrammar.Modifier.English
import TextGrammar.Modifier.Registry
import TextGrammar.Number.Binary64
import TextGrammar.Number.Numeral
import TextGrammar.Number.Shortest
import TextGrammar.Proofs.Rule.Cursor
import TextGrammar.Random.Seed
import TextGrammar.Random.Source
import TextGrammar.Random.Twister
import TextGrammar.Rule.Cursor
import TextGrammar.Rule.Scan
import TextGrammar.Rule.Split
import TextGrammar.Rule.Token
import TextGrammar.Rule.Walk
import TextGrammar.Text.Base64
import TextGrammar.Text.Basic
import TextGrammar.Text.Case
import TextGrammar.Text.CaseTable
import TextGrammar.Text.ControlSequence
import TextGrammar.Text.Printable
import TextGrammar.Text.Quoted
import TextGrammar.Text.Utf8
import TextGrammar.Text.Width
import TextGrammar.Value.Basic
import TextGrammar.Value.Calendar
import TextGrammar.Value.Written
import TextGrammar.Yaml.Block
import TextGrammar.Yaml.Content
import TextGrammar.Yaml.Fault
import TextGrammar.Yaml.Layout
import TextGrammar.Yaml.Node
import TextGrammar.Yaml.Place
import TextGrammar.Yaml.Plain
import TextGrammar.Yaml.Property
import TextGrammar.Yaml.Quoted
import TextGrammar.Yaml.Scalar
import TextGrammar.Yaml.Tag
import TextGrammar.Yaml.Token
import TextGrammar.Proofs.Rule.Cut
import TextGrammar.Proofs.Rule.Parts
import TextGrammar.Proofs.Rule.Walk
import TextGrammar.Proofs.Assoc
import TextGrammar.Proofs.Expansion.Move
import TextGrammar.Proofs.Expansion.Recursion
import TextGrammar.Proofs.Expansion.Trail
import TextGrammar.Proofs.Lint.Degradation
import TextGrammar.Proofs.Grammar.Reachability
import TextGrammar.Proofs.Expansion.Agreement
import TextGrammar.Proofs.Lint.Unreachable
import TextGrammar.Proofs.Assoc.Entries
import TextGrammar.Proofs.Modifier.Registry
import TextGrammar.Proofs.Rule.Source
import TextGrammar.Proofs.Modifier.AliasFile
import TextGrammar.Proofs.Expansion.Counters
import TextGrammar.Proofs.Expansion.Unbounded
import TextGrammar.Proofs.Expansion.Leading
import TextGrammar.Proofs.Text.Order
import TextGrammar.Proofs.Grammar.Diagnostic
import TextGrammar.Proofs.Grammar.Validation
import TextGrammar.Proofs.Lint.Arrangement
import TextGrammar.Proofs.Assoc.Distinct
import TextGrammar.Proofs.Cli.Report
import TextGrammar.Proofs.Grammar.File
import TextGrammar.Proofs.Cli.Grammar
import TextGrammar.Proofs.Rule.Boundary
import TextGrammar.Proofs.Number.Binary64
import TextGrammar.Proofs.Expansion.Sequence
import TextGrammar.Proofs.Expansion.SelfReference
import TextGrammar.Proofs.Cli.Acceptance
import TextGrammar.Proofs.Grammar.Defects
import TextGrammar.Proofs.Modifier.Flattening
import TextGrammar.Proofs.Json.Lexeme
import TextGrammar.Proofs.Lint.Reached
import TextGrammar.Proofs.Json.Document
import TextGrammar.Proofs.Number.Numeral
import TextGrammar.Proofs.Json.Printer
import TextGrammar.Proofs.Grammar.JsonFile
import TextGrammar.Proofs.Expansion.Draws
import TextGrammar.Proofs.Cli.Repetition
import TextGrammar.Proofs.Expansion.Unknown
import TextGrammar.Proofs.Number.Rounding
import TextGrammar.Proofs.Expansion.Uniform
import TextGrammar.Proofs.Yaml.Strictness
import TextGrammar.Proofs.Rule.Tiling
import TextGrammar.Proofs.Rule.Reread
import TextGrammar.Proofs.Modifier.English
import TextGrammar.Proofs.Rule.Operation
import TextGrammar.Proofs.Rule.Discipline
