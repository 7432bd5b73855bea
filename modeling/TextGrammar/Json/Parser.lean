/-
# `TextGrammar.Json.Parser` — the value of a JSON text

Each token moves a parser on by one step: the parser knows what it waits
for and which arrays and objects are open around it.  An object whose
keys are not all different is refused at the moment it is closed, before
anything that is wrong behind it.
-/
import TextGrammar.Json.Token

namespace TextGrammar.Json

/-! ## Objects -/

/-- The first key that equals one of `seen` or an earlier key. -/
def repeatedFrom (seen : List Text) : List (Text × Value) → Option Text
  | [] => none
  | (k, _) :: rest => if seen.contains k then some k else repeatedFrom (k :: seen) rest

/-- The first key of an object that stands there before. -/
def repeated? (members : List (Text × Value)) : Option Text := repeatedFrom [] members

/-- The value of an object with these members. -/
def objectOf (members : List (Text × Value)) : Except Fault Value :=
  match repeated? members with
  | some k => .error (.duplicateKey k)
  | none => .ok (.dict (members.map fun (k, v) => (.str k, v)))

/-! ## Steps -/

/-- An open array or object with what it holds so far, the latest first;
an object waits for the value of a key. -/
inductive Frame where
  | array (items : List Value)
  | object (members : List (Text × Value)) (key : Text)

/-- What a parser waits for. -/
inductive Waiting where
  | value
  | firstItem
  | firstKey
  | key (members : List (Text × Value))
  | colon (members : List (Text × Value)) (key : Text)
  | behind (v : Value)

/-- A parser: what it waits for, and the open frames, the innermost
first. -/
structure Parser where
  waiting : Waiting
  stack : List Frame

/-- What a step gives: the next parser, or the value of the whole text. -/
inductive Progress where
  | more (p : Parser)
  | done (v : Value)

/-- The parser behind the token that starts a value. -/
def startValue (position : Nat) (token : Token) (stack : List Frame) : Except Fault Parser :=
  match token with
  | .openArray => .ok ⟨.firstItem, stack⟩
  | .openObject => .ok ⟨.firstKey, stack⟩
  | .text (.ok t) => .ok ⟨.behind (.str t), stack⟩
  | .scalar (.ok v) => .ok ⟨.behind v, stack⟩
  | .text (.error f) | .scalar (.error f) => .error f
  | _ => .error (.at position .expectedValue)

/-- The parser behind the token that has to be a key. -/
def startKey (position : Nat) (token : Token) (members : List (Text × Value))
    (stack : List Frame) : Except Fault Parser :=
  match token with
  | .text (.ok t) => .ok ⟨.colon members t, stack⟩
  | .text (.error f) => .error f
  | _ => .error (.at position .expectedKey)

/-- The parser behind the token that follows a value of a frame. -/
def closeOrGoOn (position : Nat) (token : Token) (v : Value) (frame : Frame)
    (stack : List Frame) : Except Fault Parser :=
  match frame, token with
  | .array items, .comma => .ok ⟨.value, .array (v :: items) :: stack⟩
  | .array items, .closeArray => .ok ⟨.behind (.list (v :: items).reverse), stack⟩
  | .object members key, .comma => .ok ⟨.key ((key, v) :: members), stack⟩
  | .object members key, .closeObject => do
    return ⟨.behind (← objectOf ((key, v) :: members).reverse), stack⟩
  | _, _ => .error (.at position .expectedComma)

/-- One step with a token at its place. -/
def Parser.step (position : Nat) (token : Token) (p : Parser) : Except Fault Progress :=
  match p.waiting, p.stack with
  | .value, stack => .more <$> startValue position token stack
  | .firstItem, stack =>
    match token with
    | .closeArray => .ok (.more ⟨.behind (.list []), stack⟩)
    | _ => .more <$> startValue position token (.array [] :: stack)
  | .firstKey, stack =>
    match token with
    | .closeObject => .ok (.more ⟨.behind (.dict []), stack⟩)
    | _ => .more <$> startKey position token [] stack
  | .key members, stack => .more <$> startKey position token members stack
  | .colon members key, stack =>
    match token with
    | .colon => .ok (.more ⟨.value, .object members key :: stack⟩)
    | _ => .error (.at position .expectedColon)
  | .behind v, [] =>
    match token with
    | .finish => .ok (.done v)
    | _ => .error (.at position .extraData)
  | .behind v, frame :: stack => .more <$> closeOrGoOn position token v frame stack

/-- The value of tokens.  A list of tokens has an end that finishes the
parser or stops it. -/
def Parser.run (p : Parser) : List (Nat × Token) → Except Fault Value
  | [] => .error (.at 0 .expectedValue)
  | (position, token) :: rest =>
    match p.step position token with
    | .error f => .error f
    | .ok (.done v) => .ok v
    | .ok (.more p') => p'.run rest

/-- The value of a JSON text. -/
def parse (t : Text) : Except Fault Value :=
  match t with
  | '\ufeff' :: _ => .error (.at 0 .byteOrderMark)
  | _ => (Parser.mk .value []).run (tokens t)

end TextGrammar.Json
