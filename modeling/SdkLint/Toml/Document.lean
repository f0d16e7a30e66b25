import SdkLint.Toml.Scalar

/-!
# TOML documents

A document is a list of statements: headers that open a table or a further element of an array of
tables, and entries of the table opened last.  While it is read, tables remember how they came
about, since a table may be opened by a header only once and a table made by dotted keys is closed
to headers.

`parse?` gives the root table of a document, or nothing if the text is no TOML.
-/

namespace SdkLint.Toml

/-! ## Tables under construction -/

/-- A table under construction, with items of type `ι`. -/
structure Draft (ι : Type) where
  /-- Whether the table came about only as part of the way to another one. -/
  implicit : Bool := false
  /-- Whether the table came about by a dotted key. -/
  dotted : Bool := false
  entries : List (String × ι) := []

/-- What a name stands for in a document under construction. -/
inductive Item where
  | value (v : Value)
  | table (t : Draft Item)
  /-- An array of tables, the last element first. -/
  | tables (elements : List (Draft Item))

namespace Draft

variable {ι : Type}

/-- The table with one entry added or replaced. -/
def set (t : Draft ι) (name : String) (item : ι) : Draft ι :=
  if t.entries.any fun e => e.1 == name then
    { t with entries := t.entries.map fun e => if e.1 == name then (name, item) else e }
  else { t with entries := t.entries ++ [(name, item)] }

/-- The table without an entry. -/
def erase (t : Draft ι) (name : String) : Draft ι :=
  { t with entries := t.entries.filter fun e => e.1 != name }

end Draft

/-- Changes the table that a path leads to, making the tables on the way that do not exist.  Dotted
paths do not lead into tables that a header has opened; a path that meets an array of tables goes on
in its last element. -/
def descend (dotted : Bool) (change : Draft Item → Option (Draft Item)) :
    (path : List String) → Draft Item → Option (Draft Item)
  | [], t => change t
  | name :: path, t =>
    match t.entries.lookup name with
    | none =>
      (descend dotted change path { implicit := true, dotted }).map fun child =>
        t.set name (.table child)
    | some (.value _) => none
    | some (.tables []) => none
    | some (.tables (last :: earlier)) =>
      (descend dotted change path last).map fun last => t.set name (.tables (last :: earlier))
    | some (.table child) =>
      if dotted && !child.implicit then none
      else (descend dotted change path child).map fun child => t.set name (.table child)

/-- Adds an entry to a table, by a key that may be dotted.  The table that the entry goes into must
have come about by a dotted key exactly if the key is dotted, and must not have the entry yet. -/
def addEntry (t : Draft Item) (parts : List String) (value : Value) : Option (Draft Item) :=
  match parts.getLast? with
  | none => none
  | some name =>
    let path := parts.dropLast
    descend true
      (fun t =>
        if t.dotted == path.isEmpty then none
        else if (t.entries.lookup name).isSome then none
        else some (t.set name (.value value)))
      path t

/-! ## Finished values -/

mutual

/-- The value of an item. -/
def Item.toValue : Item → Value
  | .value v => v
  | .table t => .table (Draft.toTable t)
  | .tables elements => .array (draftsToValues elements).reverse

/-- The entries of a table, with their values. -/
def Draft.toTable : Draft Item → List (String × Value)
  | ⟨_, _, entries⟩ => entriesToTable entries

/-- Entries with their values. -/
def entriesToTable : List (String × Item) → List (String × Value)
  | [] => []
  | (name, item) :: rest => (name, Item.toValue item) :: entriesToTable rest

/-- The values of the elements of an array of tables. -/
def draftsToValues : List (Draft Item) → List Value
  | [] => []
  | t :: rest => .table (Draft.toTable t) :: draftsToValues rest

end

/-! ## Values -/

/-- The text after blanks, line ends and comments. -/
def skipTrivia : (fuel : Nat) → List Char → List Char
  | 0, cs => cs
  | fuel + 1, cs =>
    match skipSpace cs with
    | '#' :: rest => skipTrivia fuel (rest.dropWhile isPlain)
    | cs =>
      match lineEnd? cs with
      | some rest => skipTrivia fuel rest
      | none => cs

/-- The text after blanks, line ends and comments. -/
def trivia (cs : List Char) : List Char :=
  skipTrivia (cs.length + 1) cs

mutual

/-- A value.  `fuel` bounds the number of steps and `depth` the nesting of arrays and tables. -/
def value (fuel depth : Nat) (cs : List Char) : Option (Value × List Char) :=
  match fuel with
  | 0 => none
  | fuel + 1 =>
    match cs with
    | '"' :: _ | '\'' :: _ => (string cs).map fun (s, rest) => (.string s, rest)
    | 't' :: 'r' :: 'u' :: 'e' :: rest => some (.boolean true, rest)
    | 'f' :: 'a' :: 'l' :: 's' :: 'e' :: rest => some (.boolean false, rest)
    | '[' :: rest =>
      match depth with
      | 0 => none
      | depth + 1 => (arrayItems fuel depth (trivia rest)).map fun (vs, rest) => (.array vs, rest)
    | '\x7b' :: rest =>
      match depth with
      | 0 => none
      | depth + 1 =>
        match skipSpace rest with
        | '\x7d' :: rest => some (.table [], rest)
        | rest =>
          (inlineEntries fuel depth { } rest).map fun (t, rest) => (.table (Draft.toTable t), rest)
    | cs => number cs

/-- The items of an array up to its end, after blanks. -/
def arrayItems (fuel depth : Nat) (cs : List Char) : Option (List Value × List Char) :=
  match fuel with
  | 0 => none
  | fuel + 1 =>
    match cs with
    | ']' :: rest => some ([], rest)
    | cs => do
      let (v, rest) ← value fuel depth cs
      match trivia rest with
      | ',' :: rest =>
        (arrayItems fuel depth (trivia rest)).map fun (vs, rest) => (v :: vs, rest)
      | ']' :: rest => some ([v], rest)
      | _ => none

/-- The entries of an inline table up to its end, added to those before. -/
def inlineEntries (fuel depth : Nat) (t : Draft Item) (cs : List Char) :
    Option (Draft Item × List Char) :=
  match fuel with
  | 0 => none
  | fuel + 1 => do
    let (parts, rest) ← key cs
    match rest with
    | '=' :: rest =>
      let (v, rest) ← value fuel depth (skipSpace rest)
      let t ← addEntry t parts v
      match skipSpace rest with
      | ',' :: rest => inlineEntries fuel depth t rest
      | '\x7d' :: rest => some (t, rest)
      | _ => none
    | _ => none

end

/-! ## Statements -/

/-- A document under construction: the tables that are finished, and the one opened last. -/
structure DocState where
  root : Draft Item := {}
  current : Draft Item := {}
  /-- Where the current table belongs, empty for the root itself. -/
  path : List String := []
  /-- Whether the current table is an element of an array of tables. -/
  isElement : Bool := false

namespace DocState

/-- Changes the parent of the table that a path leads to. -/
def changeParent (root : Draft Item) (path : List String)
    (change : String → Draft Item → Option (Draft Item)) : Option (Draft Item) :=
  match path.getLast? with
  | none => none
  | some name => descend false (change name) path.dropLast root

/-- Puts the current table where it belongs. -/
def close (s : DocState) : Option (Draft Item) :=
  if s.path.isEmpty then some s.current
  else if s.isElement then
    changeParent s.root s.path fun name parent =>
      match parent.entries.lookup name with
      | none => some (parent.set name (.tables [s.current]))
      | some (.tables elements) => some (parent.set name (.tables (s.current :: elements)))
      | some _ => none
  else
    changeParent s.root s.path fun name parent => some (parent.set name (.table s.current))

/-- The table that a header opens: a new one, or one that so far was only part of the way to
another. -/
def reopen (root : Draft Item) (path : List String) : Option (Draft Item) :=
  let rec find : List String → Draft Item → Option (Draft Item)
    | [], t => some t
    | name :: rest, t =>
      match t.entries.lookup name with
      | none => some {}
      | some (.value _) => none
      | some (.tables []) => none
      | some (.tables (last :: _)) => if rest.isEmpty then none else find rest last
      | some (.table child) =>
        if rest.isEmpty && !(child.implicit && !child.dotted) then none else find rest child
  find path root

/-- Opens a table. -/
def openTable (s : DocState) (path : List String) : Option DocState := do
  let root ← s.close
  let current ← reopen root path
  let root ← changeParent root path fun name parent => some (parent.erase name)
  some { root, current := { current with implicit := false, dotted := false }, path }

/-- Opens a further element of an array of tables. -/
def openElement (s : DocState) (path : List String) : Option DocState := do
  let root ← s.close
  let _ ← changeParent root path fun name parent =>
    match parent.entries.lookup name with
    | none | some (.tables _) => some parent
    | some _ => none
  some { root, path, isElement := true }

/-- Adds an entry to the current table. -/
def add (s : DocState) (parts : List String) (v : Value) : Option DocState :=
  (addEntry s.current parts v).map fun current => { s with current }

end DocState

/-- The end of a statement: blanks, a comment, and a line end or the end of the text. -/
def statementEnd (cs : List Char) : Option (List Char) :=
  let rest := match skipSpace cs with
    | '#' :: rest => rest.dropWhile isPlain
    | rest => rest
  if rest.isEmpty then some [] else lineEnd? rest

/-- One statement and the rest of its line. -/
def statement (s : DocState) (cs : List Char) : Option (DocState × List Char) :=
  match cs with
  | '[' :: '[' :: rest => do
    let (path, rest) ← key rest
    match rest with
    | ']' :: ']' :: rest =>
      let s ← s.openElement path
      (statementEnd rest).map fun rest => (s, rest)
    | _ => none
  | '[' :: rest => do
    let (path, rest) ← key rest
    match rest with
    | ']' :: rest =>
      let s ← s.openTable path
      (statementEnd rest).map fun rest => (s, rest)
    | _ => none
  | cs => do
    let (parts, rest) ← key cs
    match rest with
    | '=' :: rest =>
      let (v, rest) ← value (3 * rest.length + 3) (depthLimit - 1) (skipSpace rest)
      let s ← s.add parts v
      (statementEnd rest).map fun rest => (s, rest)
    | _ => none

/-- The statements of a document, one line after the other. -/
def statements : (fuel : Nat) → DocState → List Char → Option DocState
  | 0, _, _ => none
  | fuel + 1, s, cs =>
    match skipSpace cs with
    | [] => some s
    | '#' :: rest => (statementEnd ('#' :: rest)).bind fun rest => statements fuel s rest
    | cs =>
      match lineEnd? cs with
      | some rest => statements fuel s rest
      | none => (statement s cs).bind fun (s, rest) => statements fuel s rest

/-- The root table of a document.  A byte order mark at its beginning is skipped. -/
def parse? (text : String) : Option Table := do
  let cs := match text.toList with
    | '\ufeff' :: rest => rest
    | cs => cs
  let s ← statements (cs.length + 1) {} cs
  let root ← s.close
  some (Draft.toTable root)

end SdkLint.Toml
