import SdkLint.Decimal.Shortest
import SdkLint.Text.Pieces
import SdkLint.Toml.Value

/-!
# TOML strings, keys and numbers

Every reader takes the characters that are left and gives what it has read together with those left
after it, or nothing if the text is no TOML.
-/

namespace SdkLint.Toml

/-! ## Character classes -/

/-- Characters that may stand in a comment or a string: tabs and everything printable, non-ASCII
included. -/
def isPlain (c : Char) : Bool :=
  c == '\t' || (0x20 ≤ c.toNat && c.toNat != 0x7F)

/-- Spaces and tabs. -/
def isSpace (c : Char) : Bool :=
  c == ' ' || c == '\t'

/-- Characters of a bare key. -/
def isBareKey (c : Char) : Bool :=
  c.isAlphanum || c == '_' || c == '-'

/-- The text without spaces and tabs at its beginning. -/
def skipSpace (cs : List Char) : List Char :=
  cs.dropWhile isSpace

/-- A line ending: LF or CRLF. -/
def lineEnd? : List Char → Option (List Char)
  | '\n' :: rest => some rest
  | '\r' :: '\n' :: rest => some rest
  | _ => none

/-! ## Escapes -/

/-- The value of a hexadecimal digit. -/
def hexDigit? (c : Char) : Option Nat :=
  if '0' ≤ c && c ≤ '9' then some (c.toNat - '0'.toNat)
  else if 'a' ≤ c && c ≤ 'f' then some (c.toNat - 'a'.toNat + 10)
  else if 'A' ≤ c && c ≤ 'F' then some (c.toNat - 'A'.toNat + 10)
  else none

/-- A number written with exactly `n` hexadecimal digits. -/
def hexNumber (n : Nat) (cs : List Char) : Option (Nat × List Char) := do
  let digits := cs.take n
  if digits.length < n then none
  else
    let values ← digits.mapM hexDigit?
    some (values.foldl (fun acc d => 16 * acc + d) 0, cs.drop n)

/-- The character with a code point, if there is one. -/
def scalar? (n : Nat) : Option Char :=
  if h : n.isValidChar then some (Char.ofNatAux n h) else none

/-- What follows a backslash. -/
def escape : List Char → Option (Char × List Char)
  | 'b' :: rest => some ('\x08', rest)
  | 't' :: rest => some ('\t', rest)
  | 'n' :: rest => some ('\n', rest)
  | 'f' :: rest => some ('\x0c', rest)
  | 'r' :: rest => some ('\r', rest)
  | '"' :: rest => some ('"', rest)
  | '\\' :: rest => some ('\\', rest)
  | 'u' :: rest => do
    let (n, rest) ← hexNumber 4 rest
    (scalar? n).map fun c => (c, rest)
  | 'U' :: rest => do
    let (n, rest) ← hexNumber 8 rest
    (scalar? n).map fun c => (c, rest)
  | _ => none

/-! ## Strings

The bodies of strings are read with a bound on the number of steps, for which the length of the text
is enough. -/

/-- The body of a one-line string in double quotes, after the opening quote. -/
def basicBody : (fuel : Nat) → List Char → Option (List Char × List Char)
  | 0, _ => none
  | _ + 1, [] => none
  | _ + 1, '"' :: rest => some ([], rest)
  | fuel + 1, '\\' :: rest => do
    let (c, rest) ← escape rest
    let (body, rest) ← basicBody fuel rest
    some (c :: body, rest)
  | fuel + 1, c :: rest =>
    if isPlain c then (basicBody fuel rest).map fun (body, rest) => (c :: body, rest) else none

/-- The body of a one-line string in single quotes, after the opening quote. -/
def literalBody (cs : List Char) : Option (List Char × List Char) :=
  let body := cs.takeWhile fun c => c != '\'' && isPlain c
  match cs.drop body.length with
  | '\'' :: rest => some (body, rest)
  | _ => none

/-- A run of quotes inside a string that three quotes end: fewer than three belong to the text, and
up to two more before the ending ones do, too.  Gives the number that belong to the text and whether
the string ends. -/
def quoteRun (n : Nat) : Option (Nat × Bool) :=
  if n < 3 then some (n, false) else if n ≤ 5 then some (n - 3, true) else none

/-- What is left after a line that ends in a backslash: all blanks and line ends are dropped. -/
def skipFolded : (fuel : Nat) → List Char → List Char
  | 0, cs => cs
  | fuel + 1, cs =>
    match lineEnd? (skipSpace cs) with
    | some rest => skipFolded fuel rest
    | none => skipSpace cs

/-- The body of a string between three quotes of either sort, after the opening quotes. -/
def multiLineBody (quote : Char) : (fuel : Nat) → List Char → Option (List Char × List Char)
  | 0, _ => none
  | _ + 1, [] => none
  | fuel + 1, c :: cs =>
    if c == quote then do
      let run := ((c :: cs).takeWhile (· == quote)).length
      let (kept, ended) ← quoteRun run
      let text := List.replicate kept quote
      let rest := (c :: cs).drop run
      if ended then some (text, rest)
      else
        let (body, rest) ← multiLineBody quote fuel rest
        some (text ++ body, rest)
    else if c == '\\' && quote == '"' then
      match lineEnd? (skipSpace cs) with
      | some rest => multiLineBody quote fuel (skipFolded fuel rest)
      | none => do
        let (e, rest) ← escape cs
        let (body, rest) ← multiLineBody quote fuel rest
        some (e :: body, rest)
    else
      match lineEnd? (c :: cs) with
      | some rest => (multiLineBody quote fuel rest).map fun (body, rest) => ('\n' :: body, rest)
      | none =>
        if isPlain c then (multiLineBody quote fuel cs).map fun (body, rest) => (c :: body, rest)
        else none

/-- A string between three quotes of either sort, after the opening quotes.  A line end right after
these does not belong to it. -/
def multiLine (quote : Char) (cs : List Char) : Option (List Char × List Char) :=
  multiLineBody quote (cs.length + 1) ((lineEnd? cs).getD cs)

/-- A string of any sort, one of its quotes coming first. -/
def string : List Char → Option (String × List Char)
  | '"' :: '"' :: '"' :: rest => (multiLine '"' rest).map fun (s, r) => (String.ofList s, r)
  | '\'' :: '\'' :: '\'' :: rest => (multiLine '\'' rest).map fun (s, r) => (String.ofList s, r)
  | '"' :: rest => (basicBody (rest.length + 1) rest).map fun (s, r) => (String.ofList s, r)
  | '\'' :: rest => (literalBody rest).map fun (s, r) => (String.ofList s, r)
  | _ => none

/-! ## Keys -/

/-- One part of a key: bare or quoted on one line. -/
def simpleKey (cs : List Char) : Option (String × List Char) :=
  match cs with
  | '"' :: rest => (basicBody (rest.length + 1) rest).map fun (s, r) => (String.ofList s, r)
  | '\'' :: rest => (literalBody rest).map fun (s, r) => (String.ofList s, r)
  | _ =>
    let bare := cs.takeWhile isBareKey
    if bare.isEmpty then none else some (String.ofList bare, cs.drop bare.length)

/-- A key: parts with dots between them, and blanks around each. -/
def keyParts : (fuel : Nat) → List Char → Option (List String × List Char)
  | 0, _ => none
  | fuel + 1, cs => do
    let (part, rest) ← simpleKey (skipSpace cs)
    match skipSpace rest with
    | '.' :: rest => (keyParts fuel rest).map fun (parts, rest) => (part :: parts, rest)
    | rest => some ([part], rest)

/-- The depth to which keys and values may nest. -/
def depthLimit : Nat := 80

/-- A key of fewer than `depthLimit` parts. -/
def key (cs : List Char) : Option (List String × List Char) :=
  keyParts (depthLimit - 1) cs

/-! ## Numbers -/

/-- A run of digits in which single underscores may part digits from each other. -/
def digitRun (isDigit : Char → Bool) : List Char → Option (List Char × List Char)
  | [] => none
  | c :: cs =>
    if isDigit c then
      let rec go : List Char → Option (List Char × List Char)
        | '_' :: d :: rest =>
          if isDigit d then (go rest).map fun (run, rest) => (d :: run, rest) else none
        | d :: rest =>
          if isDigit d then (go rest).map fun (run, rest) => (d :: run, rest)
          else if d == '_' then none
          else some ([], d :: rest)
        | [] => some ([], [])
      (go cs).map fun (run, rest) => (c :: run, rest)
    else none

/-- The value of a run of digits in a base. -/
def numberOf (base : Nat) (run : List Char) : Nat :=
  run.foldl (fun acc c => base * acc + (hexDigit? c).getD 0) 0

/-- An integer, unless it is out of the range of 64 bits. -/
def integer? (n : Int) : Option Value :=
  if -0x8000000000000000 ≤ n ∧ n < 0x8000000000000000 then some (.integer n) else none

/-- The fraction of a float, after the decimal point: its digits. -/
def fraction : List Char → Option (List Char × List Char)
  | '.' :: rest => digitRun Char.isDigit rest
  | rest => some ([], rest)

/-- The exponent of a float, if there is one. -/
def exponent (cs : List Char) : Option (Option Int × List Char) :=
  match cs with
  | c :: rest =>
    if c == 'e' || c == 'E' then
      let (sign, rest) : Int × List Char := match rest with
        | '-' :: rest => (-1, rest)
        | '+' :: rest => (1, rest)
        | rest => (1, rest)
      (digitRun Char.isDigit rest).map fun (run, rest) =>
        (some (sign * (numberOf 10 run : Nat)), rest)
    else some (none, cs)
  | [] => some (none, [])

/-- A decimal number after its sign. -/
def decimal (negative : Bool) (cs : List Char) : Option (Value × List Char) := do
  let (whole, rest) ← digitRun Char.isDigit cs
  if whole.length > 1 && whole.head? == some '0' then none
  else
    let signed (x : Float) : Float := if negative then -x else x
    match rest with
    | '.' :: _ | 'e' :: _ | 'E' :: _ =>
      let (part, rest) ← fraction rest
      let (power, rest) ← exponent rest
      let x := Decimal.toFloat (numberOf 10 (whole ++ part)) (power.getD 0 - part.length)
      if x.isInf && !negative then none else some (.float (signed x), rest)
    | _ =>
      let n : Int := numberOf 10 whole
      (integer? (if negative then -n else n)).map fun v => (v, rest)

/-- A number in another base, after the mark of the base. -/
def based (base : Nat) (isDigit : Char → Bool) (cs : List Char) : Option (Value × List Char) := do
  let (run, rest) ← digitRun isDigit cs
  (integer? (numberOf base run)).map fun v => (v, rest)

/-- A number with or without a sign. -/
def number (cs : List Char) : Option (Value × List Char) :=
  let special (negative : Bool) : List Char → Option (Value × List Char)
    | 'i' :: 'n' :: 'f' :: rest => some (.float (if negative then -1.0 / 0.0 else 1.0 / 0.0), rest)
    | 'n' :: 'a' :: 'n' :: rest => some (.float (0.0 / 0.0), rest)
    | rest => decimal negative rest
  match cs with
  | '0' :: 'x' :: rest => based 16 (fun c => (hexDigit? c).isSome) rest
  | '0' :: 'o' :: rest => based 8 (fun c => '0' ≤ c && c ≤ '7') rest
  | '0' :: 'b' :: rest => based 2 (fun c => c == '0' || c == '1') rest
  | '+' :: rest => special false rest
  | '-' :: rest => special true rest
  | rest => special false rest

end SdkLint.Toml
