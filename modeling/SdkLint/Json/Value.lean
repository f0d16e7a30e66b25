import SdkLint.Text.Quoted

/-!
# JSON values

The values that reports are written as, and their text: objects and arrays with one entry a line,
indented by two spaces for every level.
-/

namespace SdkLint

/-- A JSON value.  Numbers are integers, or decimals that no report holds. -/
inductive Json where
  | null
  | bool (b : Bool)
  | int (n : Int)
  /-- The number `digits / 10^places`. -/
  | decimal (digits : Int) (places : Nat)
  | str (text : String)
  | arr (items : List Json)
  | obj (entries : List (String × Json))
deriving Repr, Inhabited

namespace Json

/-! ## Writing -/

/-- A character as it stands in a JSON string: quotes, backslashes and controls are escaped. -/
def escapeChar (c : Char) : List Char :=
  match c with
  | '"' => ['\\', '"']
  | '\\' => ['\\', '\\']
  | '\x08' => ['\\', 'b']
  | '\x0c' => ['\\', 'f']
  | '\n' => ['\\', 'n']
  | '\r' => ['\\', 'r']
  | '\t' => ['\\', 't']
  | c =>
    if c.toNat < 0x20 then
      let digits := Text.hexDigits c.toNat
      ['\\', 'u'] ++ List.replicate (4 - digits.length) '0' ++ digits
    else [c]

/-- A text as a JSON string. -/
def quote (s : String) : String :=
  String.ofList (['"'] ++ s.toList.flatMap escapeChar ++ ['"'])

/-- A new line at a level of nesting. -/
def newLine (level : Nat) : String :=
  String.ofList ('\n' :: List.replicate (2 * level) ' ')

/-- A decimal number without an exponent. -/
def decimalText (digits : Int) (places : Nat) : String :=
  let text := (toString digits.natAbs).toList
  let padded := List.replicate (places + 1 - text.length) '0' ++ text
  let whole := padded.take (padded.length - places)
  (if digits < 0 then "-" else "") ++ String.ofList (whole ++ ['.'] ++ padded.drop whole.length)

mutual

/-- The text of a value that stands at a level of nesting. -/
def pretty (level : Nat) : Json → String
  | null => "null"
  | bool b => if b then "true" else "false"
  | int n => toString n
  | decimal digits places => decimalText digits places
  | str text => quote text
  | arr [] => "[]"
  | arr (item :: items) =>
    "[" ++ newLine (level + 1) ++ pretty (level + 1) item ++ prettyItems (level + 1) items ++
      newLine level ++ "]"
  | obj [] => "\x7b\x7d"
  | obj ((name, value) :: entries) =>
    "\x7b" ++ newLine (level + 1) ++ quote name ++ ": " ++ pretty (level + 1) value ++
      prettyEntries (level + 1) entries ++ newLine level ++ "\x7d"

/-- The further items of an array. -/
def prettyItems (level : Nat) : List Json → String
  | [] => ""
  | item :: items => "," ++ newLine level ++ pretty level item ++ prettyItems level items

/-- The further entries of an object. -/
def prettyEntries (level : Nat) : List (String × Json) → String
  | [] => ""
  | (name, value) :: entries =>
    "," ++ newLine level ++ quote name ++ ": " ++ pretty level value ++ prettyEntries level entries

end

/-- The text of a value. -/
def text (j : Json) : String :=
  j.pretty 0

/-! ## Reading -/

/-- The parts of a record with some fields, all of which a reader may ask for by name: an object, or
an array of their values in order with none left over. -/
def recordPart (names : List String) : Json → Option (String → Option Json)
  | obj entries => some fun name => entries.lookup name
  | arr items =>
    if items.length ≤ names.length then some fun name => (names.zip items).lookup name else none
  | _ => none

/-- A text. -/
def asString : Json → Option String
  | str text => some text
  | _ => none

/-- A natural number of at most 64 bits. -/
def asNat : Json → Option Nat
  | int n => if 0 ≤ n ∧ n < 0x10000000000000000 then some n.toNat else none
  | _ => none

/-- A list of values that a reader accepts. -/
def asList {α : Type} (read : Json → Option α) : Json → Option (List α)
  | arr items => items.mapM read
  | _ => none

/-- A value that may be left out or null. -/
def optional {α : Type} (read : Json → Option α) : Option Json → Option (Option α)
  | none | some null => some none
  | some j => (read j).map some

/-- A value that may be left out, but not be null. -/
def withDefault {α : Type} (read : Json → Option α) (default : α) : Option Json → Option α
  | none => some default
  | some j => read j

end Json

end SdkLint
