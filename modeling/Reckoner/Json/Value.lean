import Reckoner.Number.Double
import Reckoner.Text.Loose

/-! JSON values.  Integers are of any size and stay apart from other numbers, strings may have
surrogates by themselves, and the members of an object keep their order. -/

namespace Reckoner.Json

/-- A JSON value. -/
inductive Value
  | null
  | boolean (value : Bool)
  | integer (value : Int)
  | real (value : Double)
  | text (value : LooseText)
  | array (items : List Value)
  | object (members : List (LooseText × Value))

namespace Value

/-- The value of the last member with this key. -/
def member? (key : LooseText) (members : List (LooseText × Value)) : Option Value :=
  members.reverse.lookup key

end Value

end Reckoner.Json
