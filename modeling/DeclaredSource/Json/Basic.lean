import DeclaredSource.Json.Number

/-!
# JSON values

A value as a declaration is written in. An object is a list of fields in which the first field of
a name counts; a field that is absent and a field that is null are told apart here, and not by the
blocks of a declaration.
-/

namespace DeclaredSource

inductive Json where
  | null
  | bool (value : Bool)
  | number (value : Json.Number)
  | string (value : String)
  | array (items : List Json)
  | object (fields : List (String × Json))
  deriving Repr

namespace Json

/-- Which of the six sorts of value a value is. -/
inductive Shape where
  | null | boolean | number | string | array | object
  deriving DecidableEq, Repr

def Shape.phrase : Shape → String
  | .null => "null"
  | .boolean => "a boolean"
  | .number => "a number"
  | .string => "a string"
  | .array => "an array"
  | .object => "an object"

def shape : Json → Shape
  | .null => .null
  | .bool _ => .boolean
  | .number _ => .number
  | .string _ => .string
  | .array _ => .array
  | .object _ => .object

def isNull : Json → Bool
  | .null => true
  | _ => false

/-- The text of a scalar; null and composite values have none. -/
def scalarText? : Json → Option String
  | .string text => some text
  | .number n => some n.text
  | .bool value => some (if value then "true" else "false")
  | _ => none

end Json

end DeclaredSource
