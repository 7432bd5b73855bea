/-
# `TextGrammar.Yaml.Content` — the value of a node, and of a text

The value of a scalar is known at once.  A sequence or mapping starts out
empty and is filled later, those met first before those inside them; so
of two faults the one in the outer node counts, and of two at the same
depth the first (`Node.fault?`).  What a node without fault is worth is
`Node.value`.

Mappings are read in one of two ways.  Strictly, every key has to have a
value of its own and two equal texts, integers or truth values among the
keys are a fault.  Loosely, a merge key adds the entries of the mappings
it names, and of two equal keys the later one counts.
-/
import TextGrammar.Yaml.Layout
import TextGrammar.Yaml.Node
import TextGrammar.Yaml.Scalar

namespace TextGrammar.Yaml

/-- How mappings are read. -/
inductive Strictness where
  | strict
  | loose
deriving DecidableEq, Repr

namespace Node

/-! ## At once -/

mutual

/-- The text of a scalar.  A mapping stands for the value under its
default key. -/
def scalarText : Node → Except Fault Text
  | .scalar _ _ t => .ok t
  | .sequence _ _ _ => .error .malformed
  | .mapping _ _ pairs => defaultText pairs

/-- The text under the default key of a mapping. -/
def defaultText : List (Node × Node) → Except Fault Text
  | [] => .error .malformed
  | (k, v) :: rest => if k.tag = .value then scalarText v else defaultText rest

end

/-- What stands for a node before its content is read: its value if it is
a scalar, or else an empty collection. -/
def head (n : Node) : Except Fault Value :=
  match n.tag with
  | .seq | .omap | .pairs => .ok (.list [])
  | .map => .ok (.dict [])
  | .set => .ok (.set [])
  | .merge | .value | .other _ => .error .malformed
  | tag => n.scalarText >>= Scalar.value tag

/-- What stands for each of several nodes, in their order. -/
def heads (ns : List Node) : Except Fault (List Value) := ns.mapM head

/-! ## Keys -/

/-- Whether a key that comes twice is refused. -/
def isCounted : Value → Bool
  | .str _ | .int _ | .bool _ => true
  | _ => false

/-- The first fault of the keys of a mapping, read strictly: a key
without value, or one that was there before. -/
def keyFault? (seen : List Value) : List (Node × Node) → Option Fault
  | [] => none
  | (k, _) :: rest =>
    match k.head with
    | .error f => some f
    | .ok key =>
      if isCounted key then
        if seen.contains key then some (.repeatedKey key (k.line + 1))
        else keyFault? (key :: seen) rest
      else keyFault? seen rest

/-- The node as a key of its own: the default key is an ordinary text. -/
def asKey : Node → Node
  | .scalar line .value t => .scalar line .str t
  | .sequence line .value items => .sequence line .str items
  | .mapping line .value pairs => .mapping line .str pairs
  | n => n

/-- The pairs of a mapping that are no merge keys. -/
def ownPairs : List (Node × Node) → List (Node × Node)
  | [] => []
  | (k, v) :: rest => if k.tag = .merge then ownPairs rest else (k.asKey, v) :: ownPairs rest

mutual

/-- The pairs that the merge keys of a mapping add. -/
def addedPairs : List (Node × Node) → Except Fault (List (Node × Node))
  | [] => .ok []
  | (k, v) :: rest =>
    if k.tag = .merge then do
      let first ← mergedPairs v
      return first ++ (← addedPairs rest)
    else addedPairs rest

/-- The pairs that a node adds as the value of a merge key. -/
def mergedPairs : Node → Except Fault (List (Node × Node))
  | .mapping _ _ pairs => do return (← addedPairs pairs) ++ ownPairs pairs
  | .sequence _ _ items => mergedItems items
  | .scalar _ _ _ => .error .malformed

/-- The pairs of all mappings of a list, those of the last one first. -/
def mergedItems : List Node → Except Fault (List (Node × Node))
  | [] => .ok []
  | .mapping _ _ pairs :: rest => do
    let first := (← addedPairs pairs) ++ ownPairs pairs
    return (← mergedItems rest) ++ first
  | _ :: _ => .error .malformed

end

/-- The pairs of a mapping with those that its merge keys add in front. -/
def flatPairs (pairs : List (Node × Node)) : Except Fault (List (Node × Node)) := do
  return (← addedPairs pairs) ++ ownPairs pairs

/-! ## Faults -/

/-- The values of pairs, provided that every key can be one. -/
def valuesOf : List (Node × Node) → Except Fault (List Node)
  | [] => .ok []
  | (k, v) :: rest => do
    let key ← k.head
    if key.isKey then
      let _ ← v.head
      return v :: (← valuesOf rest)
    else .error .malformed

/-- The keys and values of items that are mappings of one pair each. -/
def pairsOf : List Node → Except Fault (List Node)
  | [] => .ok []
  | .mapping _ _ [(k, v)] :: rest => do
    let _ ← k.head
    let _ ← v.head
    return k :: v :: (← pairsOf rest)
  | _ :: _ => .error .malformed

/-- The values of a mapping. -/
def mappingContent (how : Strictness) (n : Node) : Except Fault (List Node) :=
  match how, n with
  | .strict, .mapping _ _ pairs =>
    match keyFault? [] pairs with
    | some f => .error f
    | none => valuesOf pairs
  | .loose, .mapping _ _ pairs => flatPairs pairs >>= valuesOf
  | .strict, .scalar _ _ (_ :: _) => .error .textForPairs
  | .strict, .sequence _ _ (_ :: _) => .error .itemsForPairs
  | _, _ => .error .malformed

/-- The nodes that a node is filled with, each of which has a head. -/
def content (how : Strictness) (n : Node) : Except Fault (List Node) :=
  match n.tag, n with
  | .seq, .sequence _ _ items => do let _ ← heads items; return items
  | .omap, .sequence _ _ items => pairsOf items
  | .pairs, .sequence _ _ items => pairsOf items
  | .seq, _ | .omap, _ | .pairs, _ => .error .malformed
  | .map, _ | .set, _ => mappingContent how n
  | _, _ => .ok []

/-- The first fault of nodes that are filled in their order, each putting
what it is filled with at the end of the queue. -/
def faultFrom (how : Strictness) : Nat → List Node → Option Fault
  | 0, _ => none
  | _, [] => none
  | steps + 1, n :: rest =>
    match n.content how with
    | .error f => some f
    | .ok ns => faultFrom how steps (rest ++ ns)

/-- The first fault of a node.  Each node within it is filled once. -/
def fault? (how : Strictness) (n : Node) : Option Fault :=
  match n.head with
  | .error f => some f
  | .ok _ => faultFrom how n.size [n]

/-! ## Values -/

/-- What stands for a node that has a head. -/
def headValue (n : Node) : Value := n.head.toOption.getD .null

mutual

/-- The value of a node without fault. -/
def value : Node → Value
  | .scalar line tag t => headValue (.scalar line tag t)
  | .sequence line tag items =>
    match tag with
    | .seq => .list (itemValues items)
    | .omap | .pairs => .list (pairValues items)
    | _ => headValue (.sequence line tag items)
  | .mapping line tag pairs =>
    match tag with
    | .map => .dict (Assoc.ofEntries (addedEntries pairs ++ ownEntries pairs))
    | .set => .set (Assoc.ofEntries (addedEntries pairs ++ ownEntries pairs)).keys
    | _ => headValue (.mapping line tag pairs)

/-- The values of items. -/
def itemValues : List Node → List Value
  | [] => []
  | n :: ns => n.value :: itemValues ns

/-- The pairs that mappings of one pair stand for. -/
def pairValues : List Node → List Value
  | [] => []
  | .mapping _ _ [(k, v)] :: ns => .tuple [k.value, v.value] :: pairValues ns
  | _ :: ns => pairValues ns

/-- The entries that the merge keys of a mapping add. -/
def addedEntries : List (Node × Node) → List (Value × Value)
  | [] => []
  | (k, v) :: rest =>
    if k.tag = .merge then mergedEntries v ++ addedEntries rest else addedEntries rest

/-- The entries of a mapping that are no merge keys. -/
def ownEntries : List (Node × Node) → List (Value × Value)
  | [] => []
  | (k, v) :: rest =>
    if k.tag = .merge then ownEntries rest
    else (k.asKey.headValue, v.value) :: ownEntries rest

/-- The entries that a node adds as the value of a merge key. -/
def mergedEntries : Node → List (Value × Value)
  | .mapping _ _ pairs => addedEntries pairs ++ ownEntries pairs
  | .sequence _ _ items => mergedItemEntries items
  | .scalar _ _ _ => []

/-- The entries of all mappings of a list, those of the last one first. -/
def mergedItemEntries : List Node → List (Value × Value)
  | [] => []
  | n :: ns => mergedItemEntries ns ++ mergedEntries n

end

/-- The value of a node, or its first fault. -/
def read (how : Strictness) (n : Node) : Except Fault Value :=
  match n.fault? how with
  | some f => .error f
  | none => .ok n.value

end Node

/-! ## Texts -/

/-- The node of a text, if it has a document. -/
def node? (t : Text) : Except Fault (Option Node) := tokens t >>= Node.ofTokens

/-- The value of a text.  Without a document it has none to speak of. -/
def parse (how : Strictness) (t : Text) : Except Fault Value := do
  match ← node? t with
  | none => return .null
  | some n => n.read how

end TextGrammar.Yaml
