/-
# `TextGrammar.Value.Basic` — values of data files

What a data file can hold.  A dictionary is the list of its entries in
insertion order.  `Value.same` is the equality of keys: it compares
numbers by what they are worth, so that `1`, `1.0` and the truth value
are one key.
-/
import TextGrammar.Assoc
import TextGrammar.Number.Binary64
import TextGrammar.Value.Calendar

namespace TextGrammar

/-- A value of a data file. -/
inductive Value where
  | null
  | bool (b : Bool)
  | int (n : Int)
  | float (x : Binary64)
  | str (t : Text)
  | list (items : List Value)
  | tuple (items : List Value)
  | dict (entries : List (Value × Value))
  | set (items : List Value)
  | bytes (bs : List UInt8)
  | date (d : Date)
  | moment (m : Moment)
deriving Repr

namespace Value

/-! ## Kinds -/

/-- The name of the kind of a value. -/
def kindName : Value → Text
  | .null => "NoneType".toList
  | .bool _ => "bool".toList
  | .int _ => "int".toList
  | .float _ => "float".toList
  | .str _ => "str".toList
  | .list _ => "list".toList
  | .tuple _ => "tuple".toList
  | .dict _ => "dict".toList
  | .set _ => "set".toList
  | .bytes _ => "bytes".toList
  | .date _ => "date".toList
  | .moment _ => "datetime".toList

/-- The text of a value that is a text. -/
def text? : Value → Option Text
  | .str t => some t
  | _ => none

/-- Whether a value can be a key.  Values that can grow cannot. -/
def isKey : Value → Bool
  | .list _ | .dict _ | .set _ => false
  | _ => true

/-! ## Equality of keys -/

/-- The integer that a value is worth. -/
def worth? : Value → Option Int
  | .bool b => some (if b then 1 else 0)
  | .int n => some n
  | .float x => x.int?
  | _ => none

mutual

/-- Whether two values are the same key. -/
def same : Value → Value → Bool
  | .null, .null => true
  | .str t, .str u => t == u
  | .bytes bs, .bytes cs => bs == cs
  | .date d, .date e => d == e
  | .moment m, .moment n => m.same n
  | .tuple vs, .tuple ws => sameAll vs ws
  | .float x, .float y => x == y || (x.int?.isSome && x.int? == y.int?)
  | v, w => v.worth?.isSome && v.worth? == w.worth?

/-- Whether two lists have the same keys one by one. -/
def sameAll : List Value → List Value → Bool
  | [], [] => true
  | v :: vs, w :: ws => same v w && sameAll vs ws
  | _, _ => false

end

instance : BEq Value := ⟨same⟩

end Value

end TextGrammar
