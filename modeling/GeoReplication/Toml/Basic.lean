import GeoReplication.Json.Basic

/-!
# Toml/Basic — values of a configuration file

A configuration file is a table of values.  Inline values are complete when they are read; a table
that is spelled out by headers or dotted keys grows line by line, and `TableKind` remembers how it
came about, since that decides whether a later line may add to it.
-/

namespace GeoReplication

/-- A complete value. -/
inductive Toml where
  | string (s : String)
  | integer (n : Int)
  | float (x : Float)
  | boolean (b : Bool)
  | datetime (text : String)
  | array (items : List Toml)
  | table (entries : List (String × Toml))

namespace Toml

/-- How a table came about. -/
inductive TableKind where
  /-- as the parent of another one -/
  | implied
  /-- by a dotted key -/
  | dotted
  /-- by a header of its own -/
  | header
deriving DecidableEq, Repr

/-- What a name stands for in a table that still grows. -/
inductive Item where
  | value (v : Toml)
  | table (kind : TableKind) (entries : List (String × Item))
  /-- the tables of an array, the last one first -/
  | tables (items : List (List (String × Item)))

instance : Inhabited Item := ⟨.value (.boolean false)⟩

/-- A table that still grows. -/
abbrev Entries := List (String × Item)

/-- The entries with `name` standing for `item`. -/
def Entries.set (name : String) (item : Item) : Entries → Entries
  | [] => [(name, item)]
  | (k, i) :: rest => if k = name then (k, item) :: rest else (k, i) :: Entries.set name item rest

/-- The name under which a date is handed to whoever asked for a table. -/
def datetimeKey : String := "$__toml_private_datetime"

mutual

/-- A value as a document. -/
def doc : Toml → Json.Doc
  | .string s => .string s
  | .integer n => .number (.whole n)
  | .float x => .number (.real x)
  | .boolean b => .bool b
  | .datetime text => .object [(.name datetimeKey, .string text)] true
  | .array items => .array (docs items) true
  | .table entries => .object (docEntries entries) true

/-- The same for items. -/
def docs : List Toml → List Json.Doc
  | [] => []
  | t :: ts => doc t :: docs ts

/-- The same for entries. -/
def docEntries : List (String × Toml) → List (Json.Key × Json.Doc)
  | [] => []
  | (k, t) :: rest => (.name k, doc t) :: docEntries rest

end

mutual

/-- A grown item as a document. -/
def Item.doc : Item → Json.Doc
  | .value v => v.doc
  | .table _ entries => .object (Item.docEntries entries) true
  | .tables items => .array (Item.docTables items) true

/-- The same for entries. -/
def Item.docEntries : List (String × Item) → List (Json.Key × Json.Doc)
  | [] => []
  | (k, i) :: rest => (.name k, Item.doc i) :: Item.docEntries rest

/-- The same for the tables of an array, put in the order of the file. -/
def Item.docTables : List (List (String × Item)) → List Json.Doc
  | [] => []
  | t :: ts => Item.docTables ts ++ [.object (Item.docEntries t) true]

end

end Toml

end GeoReplication
