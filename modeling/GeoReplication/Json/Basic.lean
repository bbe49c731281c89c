/-!
# Json/Basic — values to write, documents to read

`Json` is what is written: a value with the members of its objects in order.  `Doc` is what was
read: the same value *as far as it could be read*.  A document that breaks off keeps everything
before the break, so a reader of records that stops at the first thing it cannot use finds out, in
reading order, whether the text was malformed there or the value was not the one wanted.  `Json.doc`
puts every value into the documents.
-/

namespace GeoReplication

/-- A number: a whole one of 64 bits, signed or unsigned, or a binary fraction. -/
inductive Json.Number where
  | whole (n : Int)
  | real (x : Float)

/-- A value as it is written. -/
inductive Json where
  | null
  | bool (b : Bool)
  | number (n : Json.Number)
  | string (s : String)
  | array (items : List Json)
  | object (members : List (String × Json))

instance : Inhabited Json := ⟨.null⟩

namespace Json

/-- A whole number. -/
def int (n : Int) : Json := .number (.whole n)

/-- A whole number without sign. -/
def nat (n : Nat) : Json := .number (.whole n)

/-- A binary fraction. -/
def real (x : Float) : Json := .number (.real x)

/-- The value, or `null` where there is none. -/
def optional {α : Type} (write : α → Json) : Option α → Json
  | none => .null
  | some a => write a

/-- A member, or none at all where there is no value. -/
def member? {α : Type} (name : String) (write : α → Json) : Option α → List (String × Json)
  | none => []
  | some a => [(name, write a)]

/-- The name of a member as far as it can be read. -/
inductive Key where
  /-- a readable name -/
  | name (s : String)
  /-- a string that stands for no text, for instance half of a surrogate pair -/
  | unreadable
  /-- a token that begins a value, but not a string -/
  | other
deriving DecidableEq

/-- A document as far as it can be read. `closed` says whether the closing bracket was reached. -/
inductive Doc where
  | null
  | bool (b : Bool)
  | number (n : Number)
  | string (s : String)
  /-- a well-formed token without a value: half of a surrogate pair, a number beyond all floats -/
  | unreadable
  | array (items : List Doc) (closed : Bool)
  | object (members : List (Key × Doc)) (closed : Bool)
  /-- the text is malformed here, or ends -/
  | broken

instance : Inhabited Doc := ⟨.broken⟩

mutual

/-- A value as the document that is read back from it. -/
def doc : Json → Doc
  | .null => .null
  | .bool b => .bool b
  | .number n => .number n
  | .string s => .string s
  | .array items => .array (docs items) true
  | .object members => .object (docMembers members) true

/-- The same for the items of an array. -/
def docs : List Json → List Doc
  | [] => []
  | j :: js => doc j :: docs js

/-- The same for the members of an object. -/
def docMembers : List (String × Json) → List (Key × Doc)
  | [] => []
  | (k, j) :: rest => (.name k, doc j) :: docMembers rest

end

end Json

end GeoReplication
