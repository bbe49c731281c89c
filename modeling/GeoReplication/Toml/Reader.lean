import GeoReplication.Toml.Scalar

/-!
# Toml/Reader — configuration files

`Toml.read?` reads a whole file line by line: an entry, a header that opens a table, or a header
that adds a table to an array.  Which of them may add to what is there already is decided by
`descend?`, `addValue?` and `openTable?`.
-/

namespace GeoReplication.Toml

open GeoReplication.Text

/-! ## Names -/

/-- A character of a name without quotes. -/
def isBareChar (c : Char) : Bool :=
  c.isDigit || ('a' ≤ c && c ≤ 'z') || ('A' ≤ c && c ≤ 'Z') || c == '_' || c == '-'

/-- One name. -/
def name? (cs : List Char) : Option (String × List Char) :=
  match cs with
  | '"' :: rest => (basicString rest).map fun (text, rest) => (String.ofList text, rest)
  | c :: rest =>
    if c = apostrophe then (literalString rest).map fun (text, rest) => (String.ofList text, rest)
    else
      let bare := cs.takeWhile isBareChar
      if bare.isEmpty then none else some (String.ofList bare, cs.drop bare.length)
  | [] => none

/-- How many names a path may have. -/
def maxNames : Nat := 79

/-- Names with points between them, blanks around each. -/
def path? (cs : List Char) : Option (List String × List Char) :=
  (go cs.length cs).filter fun (names, _) => names.length ≤ maxNames
where
  /-- The same with fuel for every name. -/
  go : Nat → Scan (List String)
    | 0, _ => none
    | fuel + 1, cs => do
      let (name, rest) ← name? (skipBlanksInLine cs)
      match skipBlanksInLine rest with
      | '.' :: rest =>
        let (names, rest) ← go fuel rest
        some (name :: names, rest)
      | rest => some ([name], rest)

/-! ## Inline values -/

/-- How deep brackets may nest. -/
def maxDepth : Nat := 79

/-- Blanks, line breaks and comments dropped. -/
def skipFiller (cs : List Char) : Option (List Char) :=
  go (cs.length + 1) cs
where
  /-- The same with fuel for every piece. -/
  go : Nat → List Char → Option (List Char)
    | 0, _ => none
    | fuel + 1, cs =>
      let cs := skipBlanksInLine cs
      match lineBreak? cs with
      | some rest => go fuel rest
      | none =>
        match cs with
        | '#' :: rest =>
          match lineBreak? (rest.dropWhile isPrintable) with
          | some rest => go fuel rest
          | none => none
        | _ => some cs

/-- The entries of an inline table with a value added under a path. Names on the way stand for
tables that dotted names have made. -/
def addInline? : (path : List String) → (last : String) → Toml → Entries → Option Entries
  | [], last, v, entries =>
    if (entries.lookup last).isSome then none else some (Entries.set last (.value v) entries)
  | name :: path, last, v, entries =>
    match entries.lookup name with
    | none => (addInline? path last v []).map fun es => Entries.set name (.table .dotted es) entries
    | some (.table .dotted es) =>
      (addInline? path last v es).map fun es => Entries.set name (.table .dotted es) entries
    | some _ => none

mutual

/-- Entries without the memory of how they came about. -/
def freeze : Item → Toml
  | .value v => v
  | .table _ entries => .table (freezeEntries entries)
  | .tables items => .array (freezeTables items)

/-- The same for entries. -/
def freezeEntries : List (String × Item) → List (String × Toml)
  | [] => []
  | (k, i) :: rest => (k, freeze i) :: freezeEntries rest

/-- The same for the tables of an array. -/
def freezeTables : List (List (String × Item)) → List Toml
  | [] => []
  | t :: ts => freezeTables ts ++ [.table (freezeEntries t)]

end

/-- The names before the last one, and the last one. -/
def splitPath (path : List String) : List String × String :=
  (path.dropLast, path.getLast?.getD "")

mutual

/-- A value; `depth` counts the brackets that may still be opened. -/
def value? : (fuel depth : Nat) → Scan Toml
  | 0, _, _ => none
  | fuel + 1, depth, cs =>
    match cs with
    | '[' :: rest => if depth = 0 then none else items? fuel (depth - 1) [] rest
    | '{' :: rest =>
      if depth = 0 then none
      else
        match skipBlanksInLine rest with
        | '}' :: rest => some (.table [], rest)
        | rest => entries? fuel (depth - 1) [] rest
    | _ => scalarValue? cs

/-- Items up to the closing bracket; the ones read so far last first. -/
def items? : (fuel depth : Nat) → List Toml → Scan Toml
  | 0, _, _, _ => none
  | fuel + 1, depth, done, cs =>
    match skipFiller cs with
    | none => none
    | some (']' :: rest) => some (.array done.reverse, rest)
    | some cs =>
      match value? fuel depth cs with
      | none => none
      | some (v, rest) =>
        match skipFiller rest with
        | some (',' :: rest) => items? fuel depth (v :: done) rest
        | some (']' :: rest) => some (.array (v :: done).reverse, rest)
        | _ => none

/-- Entries up to the closing brace. -/
def entries? : (fuel depth : Nat) → Entries → Scan Toml
  | 0, _, _, _ => none
  | fuel + 1, depth, done, cs =>
    match path? cs with
    | none => none
    | some (path, rest) =>
      match rest with
      | '=' :: rest =>
        match value? fuel depth (skipBlanksInLine rest) with
        | none => none
        | some (v, rest) =>
          let (before, last) := splitPath path
          match addInline? before last v done with
          | none => none
          | some done =>
            match skipBlanksInLine rest with
            | ',' :: rest => entries? fuel depth done rest
            | '}' :: rest => some (.table (freezeEntries done), rest)
            | _ => none
      | _ => none

end

/-! ## Growing tables -/

/-- The entries with those at the end of `path` changed by `change`. Names on the way that are not
there yet become tables of kind `kind`; with `dotted`, a table opened by a header is not entered. -/
def descend? (dotted : Bool) (change : TableKind → Entries → Option Entries) :
    (path : List String) → (here : TableKind) → Entries → Option Entries
  | [], here, entries => change here entries
  | name :: path, _, entries =>
    match entries.lookup name with
    | none =>
      let kind := if dotted then .dotted else .implied
      (descend? dotted change path kind []).map fun es =>
        Entries.set name (.table kind es) entries
    | some (.table kind es) =>
      if dotted ∧ kind = .header then none
      else (descend? dotted change path kind es).map fun es =>
        Entries.set name (.table kind es) entries
    | some (.tables (last :: before)) =>
      (descend? dotted change path .header last).map fun es =>
        Entries.set name (.tables (es :: before)) entries
    | some _ => none

/-- A value under a dotted name. -/
def addValue? (path : List String) (v : Toml) (entries : Entries) : Option Entries :=
  let (before, last) := splitPath path
  let insert (kind : TableKind) (es : Entries) : Option Entries :=
    if (!before.isEmpty && kind != .dotted) || (es.lookup last).isSome then none
    else some (Entries.set last (.value v) es)
  descend? true insert before .header entries

/-- The table under a path opened by a header. -/
def openTable? (path : List String) (entries : Entries) : Option Entries :=
  let (before, last) := splitPath path
  let insert (_ : TableKind) (es : Entries) : Option Entries :=
    match es.lookup last with
    | none => some (Entries.set last (.table .header []) es)
    | some (.table .implied inner) => some (Entries.set last (.table .header inner) es)
    | some _ => none
  descend? false insert before .header entries

/-- One more table in the array under a path. -/
def appendTable? (path : List String) (entries : Entries) : Option Entries :=
  let (before, last) := splitPath path
  let insert (_ : TableKind) (es : Entries) : Option Entries :=
    match es.lookup last with
    | none => some (Entries.set last (.tables [[]]) es)
    | some (.tables items) => some (Entries.set last (.tables ([] :: items)) es)
    | some _ => none
  descend? false insert before .header entries

/-- Changes the table that the last header opened. -/
def inCurrent? (change : Entries → Option Entries) (path : List String) (entries : Entries) :
    Option Entries :=
  descend? false (fun _ es => change es) path .header entries

/-! ## Files -/

/-- What may follow on a line: blanks and a comment. Gives the rest of the text after the line. -/
def endOfLine? (cs : List Char) : Option (List Char) :=
  let cs := skipBlanksInLine cs
  let cs := match cs with
    | '#' :: rest => rest.dropWhile isPrintable
    | _ => cs
  if cs.isEmpty then some [] else lineBreak? cs

/-- Reads lines into `entries`; `current` is the path of the table the last header opened. -/
def lines? : (fuel : Nat) → (current : List String) → Entries → List Char → Option Entries
  | 0, _, _, _ => none
  | fuel + 1, current, entries, cs =>
    match skipBlanksInLine cs with
    | [] => some entries
    | '[' :: '[' :: rest => do
      let (path, rest) ← path? rest
      let rest ← dropMark? [']', ']'] rest
      let rest ← endOfLine? rest
      lines? fuel path (← appendTable? path entries) rest
    | '[' :: rest => do
      let (path, rest) ← path? rest
      let rest ← dropMark? [']'] rest
      let rest ← endOfLine? rest
      lines? fuel path (← openTable? path entries) rest
    | c :: rest =>
      if c = '#' ∨ c = '\n' ∨ c = '\r' then do
        let rest ← endOfLine? (c :: rest)
        lines? fuel current entries rest
      else do
        let (path, rest) ← path? (c :: rest)
        let rest ← dropMark? ['='] rest
        let (v, rest) ← value? (2 * rest.length + 1) maxDepth (skipBlanksInLine rest)
        let rest ← endOfLine? rest
        lines? fuel current (← inCurrent? (addValue? path v) current entries) rest

/-- The entries of a whole file; a byte order mark may stand in front. -/
def read? (text : String) : Option Entries :=
  let cs := match text.toList with
    | c :: rest => if c.toNat = 0xFEFF then rest else c :: rest
    | [] => []
  lines? (cs.length + 1) [] [] cs

end GeoReplication.Toml
