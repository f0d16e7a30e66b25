/-!
# TOML values

The values that a TOML document is made of.  A table keeps its entries in the order in which they
first appear; a key stands in it once.
-/

namespace SdkLint.Toml

/-- A TOML value. -/
inductive Value where
  | string (text : String)
  | integer (n : Int)
  | float (x : Float)
  | boolean (b : Bool)
  | array (items : List Value)
  | table (entries : List (String × Value))
deriving Repr, Inhabited

/-- The entries of a table. -/
abbrev Table := List (String × Value)

namespace Value

/-- The text of a string value. -/
def asString : Value → Option String
  | string text => some text
  | _ => none

/-- The elements of an array. -/
def asArray : Value → Option (List Value)
  | array items => some items
  | _ => none

/-- The entries of a table. -/
def asTable : Value → Option Table
  | table entries => some entries
  | _ => none

end Value

end SdkLint.Toml
