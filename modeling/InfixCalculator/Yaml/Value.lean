import InfixCalculator.Text.Base64
import InfixCalculator.Text.Quoted
import InfixCalculator.Yaml.Node
import InfixCalculator.Yaml.Number

/-!
# The values of scalars

Every type of scalars has its own way to read a text; a scalar that cannot be read has the fault that
its type gives. What a collection holds is told by the document; as a value it is only known to be a
collection.

Keys of a mapping are the same if they are equal as values, where truth values count as the integers
`1` and `0`, and integers and doubles of the same value are equal.
-/

namespace InfixCalculator.Yaml

/-- A value of a document. -/
inductive Value where
  | null
  | bool (b : Bool)
  | int (n : Int)
  | float (x : Float)
  /-- What is not a number. It has an origin, unless it is written `.nan`. -/
  | undefined (origin : Option NodeId)
  | text (s : String)
  /-- A text with half of a surrogate pair in it. -/
  | brokenText
  | bytes (bytes : List UInt8)
  | time (time : Time)
  | collection
  deriving DecidableEq

/-! ## Reading -/

/-- The truth value of a word in any case. -/
def boolOfText (s : String) : Except Fault Bool :=
  let word := String.ofList (s.toList.map Char.toLower)
  if ["yes", "true", "on"].contains word then .ok true
  else if ["no", "false", "off"].contains word then .ok false
  else .error .notAWord

/-- The bytes of a text in base 64, which must be ASCII. -/
def bytesOfText (s : List Char) : Except Fault (List UInt8) :=
  if s.any fun c => 0x7f < c.toNat then .error .malformed
  else
    match Text.Base64.decode? s with
    | some bytes => .ok bytes
    | none => .error .malformed

/-- The time of a text. -/
def timeOfText (s : List Char) : Except Fault Time :=
  match Time.parts? (dropFinalBreak s) with
  | some parts => Time.ofParts parts
  | none => .error .notATime

/-- The value of a number; `id` is the node that it comes from. -/
def Real.toValue (id : NodeId) : Real → Value
  | number x => .float x
  | undefined common => .undefined (if common then none else some id)

/-- The value of a text. -/
def Scalar.toValue (s : Scalar) : Value :=
  if s.sound then .text s.text else .brokenText

/-- The value of the node `id`, which has the text of a scalar and the given type. The types of
collections have none. -/
def valueOfText (type : CoreType) (id : NodeId) (s : Scalar) : Except Fault Value :=
  let chars := s.text.toList
  match type with
  | .null => .ok .null
  | .bool => (boolOfText s.text).map .bool
  | .int => (intOfText chars).map .int
  | .float => (floatOfText chars).map (Real.toValue id)
  | .binary => (bytesOfText chars).map .bytes
  | .timestamp => (timeOfText chars).map .time
  | .str => .ok s.toValue
  | _ => .error .malformed

/-! ## Keys -/

/-- Whether a value can be a key. -/
def Value.isKey : Value → Bool
  | collection => false
  | _ => true

/-- The integer that a value is equal to, if there is one. -/
def Value.integer? : Value → Option Int
  | bool b => some (if b then 1 else 0)
  | int n => some n
  | float x => if Binary64.isInteger x then some (Binary64.toInt x) else none
  | _ => none

/-- Whether two keys are the same. -/
def sameKey (a b : Value) : Bool :=
  match a.integer?, b.integer? with
  | some m, some n => m == n
  | none, none =>
    match a, b with
    | .float x, .float y => x == y
    | .time s, .time t => s.same t
    | a, b => decide (a = b)
  | _, _ => false

/-- The text by which a key that is not a text is reported. -/
def Value.keyText : Value → String
  | null => "None"
  | bool b => if b then "1" else "0"
  | int n => if Numeral.isWritable n then Numeral.text n else "<unprintable int object>"
  | float x => Binary64.text x
  | undefined _ => "nan"
  | text s => s
  | bytes b => Text.quotedBytes b
  | time t => t.text
  | _ => ""

end InfixCalculator.Yaml
