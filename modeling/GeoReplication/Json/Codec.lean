import GeoReplication.Json.Basic

/-!
# Json/Codec — values that are written and read back

A `Codec α` writes values of `α` and reads them, and what it writes it reads back (`read_write`).
Codecs of pairs, lists and optional values are put together from those of their parts; `iso` changes
how a value is taken apart and `refine` adds a condition that is checked when reading.
-/

namespace GeoReplication.Json

/-- How values are written, and read back. -/
structure Codec (α : Type) where
  write : α → Json
  read : Doc → Option α
  read_write : ∀ a, read (write a).doc = some a

namespace Codec

variable {α β : Type}

/-- The only value there is. -/
def unit : Codec Unit where
  write _ := .null
  read _ := some ()
  read_write _ := rfl

/-- Truth values. -/
def bool : Codec Bool where
  write := .bool
  read
    | .bool b => some b
    | _ => none
  read_write _ := rfl

/-- Whole numbers. -/
def int : Codec Int where
  write := .int
  read
    | .number (.whole n) => some n
    | _ => none
  read_write _ := rfl

/-- Whole numbers without sign. -/
def nat : Codec Nat where
  write := .nat
  read
    | .number (.whole n) => some n.toNat
    | _ => none
  read_write n := congrArg some (Int.toNat_natCast n)

/-- Texts. -/
def string : Codec String where
  write := .string
  read
    | .string s => some s
    | _ => none
  read_write _ := rfl

/-- Two values. -/
def pair (c : Codec α) (d : Codec β) : Codec (α × β) where
  write p := .array [c.write p.1, d.write p.2]
  read
    | .array [x, y] true => (c.read x).bind fun a => (d.read y).map fun b => (a, b)
    | _ => none
  read_write p := by simp [doc, docs, c.read_write, d.read_write]

/-- A value, or none. -/
def optional (c : Codec α) : Codec (Option α) where
  write
    | none => .array []
    | some a => .array [c.write a]
  read
    | .array [] true => some none
    | .array [x] true => (c.read x).map some
    | _ => none
  read_write
    | none => rfl
    | some a => by simp [doc, docs, c.read_write]

/-- All of some items, or nothing. -/
def readAll (c : Codec α) : List Doc → Option (List α)
  | [] => some []
  | x :: xs => (c.read x).bind fun a => (c.readAll xs).map (a :: ·)

theorem readAll_docs (c : Codec α) : ∀ as : List α, c.readAll (docs (as.map c.write)) = some as
  | [] => rfl
  | a :: as => by simp [docs, readAll, c.read_write, c.readAll_docs as]

/-- Any number of values. -/
def list (c : Codec α) : Codec (List α) where
  write as := .array (as.map c.write)
  read
    | .array items true => c.readAll items
    | _ => none
  read_write as := by simp [doc, c.readAll_docs]

/-- Values taken apart into those of another codec. -/
def iso (c : Codec α) (pack : α → β) (unpack : β → α) (pack_unpack : ∀ b, pack (unpack b) = b) :
    Codec β where
  write b := c.write (unpack b)
  read d := (c.read d).map pack
  read_write b := by simp [c.read_write, pack_unpack]

/-- Values with a condition, which is checked when reading. -/
def refine (c : Codec α) (p : α → Prop) [DecidablePred p] : Codec { a : α // p a } where
  write a := c.write a.1
  read d := (c.read d).bind fun a => if h : p a then some ⟨a, h⟩ else none
  read_write a := by simp [c.read_write, a.2]

/-- Words out of a fixed set. -/
def word (text : α → String) (ofText? : String → Option α)
    (ofText?_text : ∀ a, ofText? (text a) = some a) : Codec α where
  write a := .string (text a)
  read
    | .string s => ofText? s
    | _ => none
  read_write a := ofText?_text a

end Codec

end GeoReplication.Json
