/-
# `TextGrammar.Yaml.Node` — the node of a document

A document is one node: a scalar, a sequence or a mapping, each with the
line it starts in and a tag.  It is read from the tokens by recursive
descent.  An alias stands for the node with its anchor; within that node
itself it stands for the node without its content.
-/
import TextGrammar.Assoc
import TextGrammar.Yaml.Fault
import TextGrammar.Yaml.Token
import TextGrammar.Yaml.Tag

namespace TextGrammar.Yaml

/-- A part of a document. -/
inductive Node where
  | scalar (line : Nat) (tag : Tag) (text : Text)
  | sequence (line : Nat) (tag : Tag) (items : List Node)
  | mapping (line : Nat) (tag : Tag) (pairs : List (Node × Node))

namespace Node

/-- The line a node starts in. -/
def line : Node → Nat
  | .scalar line _ _ => line
  | .sequence line _ _ => line
  | .mapping line _ _ => line

/-- The tag of a node. -/
def tag : Node → Tag
  | .scalar _ tag _ => tag
  | .sequence _ tag _ => tag
  | .mapping _ tag _ => tag

mutual

/-- The number of scalars, sequences and mappings in a node. -/
def size : Node → Nat
  | .scalar _ _ _ => 1
  | .sequence _ _ items => sizeItems items + 1
  | .mapping _ _ pairs => sizePairs pairs + 1

/-- The size of all items. -/
def sizeItems : List Node → Nat
  | [] => 0
  | n :: ns => n.size + sizeItems ns

/-- The size of all pairs. -/
def sizePairs : List (Node × Node) → Nat
  | [] => 0
  | (k, v) :: rest => k.size + v.size + sizePairs rest

end

/-! ## Reading tokens -/

/-- The tags that a document abbreviates, the anchors met so far, and the
tokens still to be read. -/
structure Reader where
  handles : Assoc Text Text
  anchors : Assoc Text Node
  tokens : List Token

/-- A step of reading. -/
abbrev Read (α : Type) := StateT Reader (Except Fault) α

namespace Reader

/-- The kind of the next token; behind the last one the text ends. -/
def next (r : Reader) : TokenKind := (r.tokens.head?.map Token.kind).getD .streamEnd

/-- The line of the next token. -/
def line (r : Reader) : Nat := (r.tokens.head?.map Token.line).getD 0

end Reader

/-- Stops at something that does not belong there. -/
def refuse {α : Type} : Read α := throw .malformed

/-- The kind of the next token. -/
def peek : Read TokenKind := return (← get).next

/-- Goes behind the next token. -/
def advance : Read Unit := modify fun r => { r with tokens := r.tokens.drop 1 }

/-- Goes behind the next token if it is of a kind; tells whether it
was. -/
def accept (kind : TokenKind) : Read Bool := do
  if (← peek) = kind then advance; return true else return false

/-- The scalar that stands where nothing is written. -/
def absent : Read Node := return .scalar (← get).line .null []

/-! ## Properties -/

/-- What stands before a node: its anchor and its tag, if they are there,
and the line in which the first of them starts. -/
structure Properties where
  anchor : Option Text
  tag : Option TagText
  line : Nat

/-- An anchor, if one is next. -/
def anchor? : Read (Option Text) := do
  match ← peek with
  | .anchor name => advance; return some name
  | _ => return none

/-- A tag, if one is next. -/
def tag? : Read (Option TagText) := do
  match ← peek with
  | .tag t => advance; return some t
  | _ => return none

/-- The anchor and the tag before a node, in either order. -/
def properties : Read Properties := do
  let line := (← get).line
  match ← anchor? with
  | some a => return ⟨some a, ← tag?, line⟩
  | none => match ← tag? with
    | some t => return ⟨← anchor?, some t, line⟩
    | none => return ⟨none, none, line⟩

/-- The name that a written tag stands for.  A lone exclamation mark
leaves the choice to the form of the node. -/
def fullName (t : TagText) : Read (Option Text) := do
  let name ← match t.handle with
    | none => pure t.suffix
    | some handle => match (← get).handles.get? handle with
      | some expansion => pure (expansion ++ t.suffix)
      | none => refuse
  return if name = ['!'] then none else some name

/-- Whether a node has any property. -/
def Properties.isSome (p : Properties) : Bool := p.anchor.isSome || p.tag.isSome

/-- Gives the node its anchor.  Two nodes have no anchor in common. -/
def define (p : Properties) (node : Node) : Read Unit := do
  match p.anchor with
  | none => return ()
  | some name =>
    if (← get).anchors.contains name then refuse
    else modify fun r => { r with anchors := r.anchors.insert name node }

/-- Replaces what the anchor stands for, now that the node is complete. -/
def complete (p : Properties) (node : Node) : Read Node := do
  match p.anchor with
  | none => return node
  | some name =>
    modify fun r => { r with anchors := r.anchors.insert name node }
    return node

/-! ## Nodes -/

/-- Whether the next token is one of those behind which nothing is
written. -/
def missing (kinds : List TokenKind) : Read Bool := return kinds.contains (← peek)

mutual

/-- The next node.  In a block it may be a block itself, and as the value
of a key a sequence that is not indented. -/
def node (block unindented : Bool) : Nat → Read Node
  | 0 => refuse
  | steps + 1 => do
    match ← peek with
    | .alias name =>
      match (← get).anchors.get? name with
      | some n => advance; return n
      | none => refuse
    | _ =>
      let p ← properties
      let name ← match p.tag with
        | some t => fullName t
        | none => pure none
      let lone := p.tag.isSome && name.isNone
      let sequence (read : Read (List Node)) : Read Node := do
        let tag := (name.map Tag.ofName).getD .seq
        define p (.sequence p.line tag [])
        complete p (.sequence p.line tag (← read))
      let mapping (read : Read (List (Node × Node))) : Read Node := do
        let tag := (name.map Tag.ofName).getD .map
        define p (.mapping p.line tag [])
        complete p (.mapping p.line tag (← read))
      let scalar (t : Text) (byForm : Bool) : Read Node := do
        let tag := (name.map Tag.ofName).getD (if byForm then Tag.ofPlain t else .str)
        let n := Node.scalar p.line tag t
        define p n
        return n
      match ← peek with
      | .blockEntry =>
        if unindented then sequence (unindentedItems steps)
        else if p.isSome then scalar [] true
        else refuse
      | .scalar t plain => advance; scalar t (plain || lone)
      | .flowSequenceStart => advance; sequence (flowItems true steps)
      | .flowMappingStart => advance; mapping (flowPairs true steps)
      | .blockSequenceStart =>
        if block then advance; sequence (blockItems steps)
        else if p.isSome then scalar [] true
        else refuse
      | .blockMappingStart =>
        if block then advance; mapping (blockPairs steps)
        else if p.isSome then scalar [] true
        else refuse
      | _ => if p.isSome then scalar [] true else refuse

/-- The items of a block sequence up to its end. -/
def blockItems : Nat → Read (List Node)
  | 0 => refuse
  | steps + 1 => do
    if ← accept .blockEntry then
      let n ← if ← missing [.blockEntry, .blockEnd] then absent else node true false steps
      return n :: (← blockItems steps)
    else if ← accept .blockEnd then return []
    else refuse

/-- The items of a sequence that is not indented; it ends where no item
follows. -/
def unindentedItems : Nat → Read (List Node)
  | 0 => refuse
  | steps + 1 => do
    if ← accept .blockEntry then
      let n ← if ← missing [.blockEntry, .key, .value, .blockEnd] then absent
        else node true false steps
      return n :: (← unindentedItems steps)
    else return []

/-- The pairs of a block mapping up to its end. -/
def blockPairs : Nat → Read (List (Node × Node))
  | 0 => refuse
  | steps + 1 => do
    let side : Read Node := do
      if ← missing [.key, .value, .blockEnd] then absent else node true true steps
    if ← accept .key then
      let k ← side
      let v ← if ← accept .value then side else absent
      return (k, v) :: (← blockPairs steps)
    else if ← accept .blockEnd then return []
    else refuse

/-- The items of a sequence in brackets up to its end.  A pair among them
is a mapping of its own. -/
def flowItems (first : Bool) : Nat → Read (List Node)
  | 0 => refuse
  | steps + 1 => do
    if ← accept .flowSequenceEnd then return []
    else
      let separated ← if first then pure true else accept .flowEntry
      if !separated then refuse
      else
        let line := (← get).line
        if ← accept .key then
          let k ← if ← missing [.value, .flowEntry, .flowSequenceEnd] then absent
            else node false false steps
          let v ← if ← accept .value then
              if ← missing [.flowEntry, .flowSequenceEnd] then absent else node false false steps
            else absent
          return .mapping line .map [(k, v)] :: (← flowItems false steps)
        else if ← accept .flowSequenceEnd then return []
        else
          let n ← node false false steps
          return n :: (← flowItems false steps)

/-- The pairs of a mapping in brackets up to its end. -/
def flowPairs (first : Bool) : Nat → Read (List (Node × Node))
  | 0 => refuse
  | steps + 1 => do
    if ← accept .flowMappingEnd then return []
    else
      let separated ← if first then pure true else accept .flowEntry
      if !separated then refuse
      else
        if ← accept .key then
          let k ← if ← missing [.value, .flowEntry, .flowMappingEnd] then absent
            else node false false steps
          let v ← if ← accept .value then
              if ← missing [.flowEntry, .flowMappingEnd] then absent else node false false steps
            else absent
          return (k, v) :: (← flowPairs false steps)
        else if ← accept .flowMappingEnd then return []
        else
          let k ← node false false steps
          let v ← absent
          return (k, v) :: (← flowPairs false steps)

end

/-! ## Documents -/

/-- The tags that every document abbreviates. -/
def defaultHandles : Assoc Text Text := [(['!'], ['!']), (['!', '!'], Tag.standardPrefix)]

/-- Reads the directives of a document.  There is at most one version,
which has to be a first one, and one meaning for a handle. -/
def directives : Nat → Bool → Assoc Text Text → Read (Assoc Text Text)
  | 0, _, _ => refuse
  | steps + 1, versioned, handles => do
    match ← peek with
    | .directive (.version major) =>
      advance
      if versioned ∨ major ≠ 1 then refuse else directives steps true handles
    | .directive (.tagPrefix handle expansion) =>
      advance
      if handles.contains handle then refuse
      else directives steps versioned (handles.insert handle expansion)
    | .directive .other => advance; directives steps versioned handles
    | _ => return handles

/-- The default meanings where a document gives none. -/
def withDefaults (handles : Assoc Text Text) : Assoc Text Text :=
  defaultHandles.foldl (fun hs (h, e) => if hs.contains h then hs else hs.insert h e) handles

/-- Whether a token starts a document or ends one. -/
def isDocumentEdge : TokenKind → Bool
  | .directive _ | .documentStart | .documentEnd | .streamEnd => true
  | _ => false

/-- The rest of the text behind a document: nothing may follow but
document ends. -/
def atEndOfText : Nat → Read Bool
  | 0 => return false
  | steps + 1 => do
    if ← accept .documentEnd then atEndOfText steps else return (← peek) = .streamEnd

/-- A document that begins with directives or a marker. -/
def explicitDocument (steps : Nat) : Read Node := do
  let handles ← directives steps false []
  modify fun r => { r with handles := withDefaults handles }
  if ← accept .documentStart then
    if isDocumentEdge (← peek) then absent else node true false steps
  else refuse

/-- The node of a text of one document, if it has a document. -/
def document (steps : Nat) : Read (Option Node) := do
  let first ← peek
  if first = .streamEnd then return none
  else
    let n ← if isDocumentEdge first && first ≠ .documentEnd then explicitDocument steps
      else node true false steps
    if ← atEndOfText steps then return some n else refuse

/-- The node of the document that tokens make up, if there is one.  Every
three steps of reading go behind a token. -/
def ofTokens (tokens : List Token) : Except Fault (Option Node) :=
  ((document (3 * tokens.length + 8)).run ⟨defaultHandles, [], tokens⟩).map (·.1)

end Node

end TextGrammar.Yaml
