import Mathlib.Data.Finmap
import Mathlib.Data.List.Sort

/-! Parsed JSON as the bot reads it. An object lists its fields in key order;
a number is kept by the decimal text it prints as. -/
namespace SolanaArbBot

inductive Number where
  | int (n : Int)
  | float (text : String)
  deriving DecidableEq

def Number.toText : Number → String
  | .int n => toString n
  | .float text => text

inductive Value where
  | null
  | bool (b : Bool)
  | number (n : Number)
  | string (s : String)
  | array (items : List Value)
  | object (fields : List (String × Value))

namespace Value

def asArray : Value → Option (List Value)
  | .array items => some items
  | _ => none

def asObject : Value → Option (List (String × Value))
  | .object fields => some fields
  | _ => none

def asStr : Value → Option String
  | .string s => some s
  | _ => none

def get (v : Value) (key : String) : Option Value :=
  v.asObject.bind fun fields => fields.lookup key

def swapInfo (hop : Value) : Option (List (String × Value)) :=
  (hop.get "swapInfo").bind asObject

end Value
end SolanaArbBot
