import GeoReplication.Json.Basic
import GeoReplication.Text.Decimal
import GeoReplication.Text.Shortest

/-!
# Json/Writer — the text of a value

`Json.text` writes a value without blanks; `Json.pretty` puts every item and member on a line of its
own, two blanks deeper than what it belongs to.  In strings a quote, a backslash and the control
characters are escaped, everything else stands for itself.
-/

namespace GeoReplication.Json

open GeoReplication.Text

/-- A hexadecimal digit in lower case. -/
def hexDigit (n : Nat) : Char := Nat.digitChar (n % 16)

/-- One character inside a string. -/
def escape (c : Char) : List Char :=
  if c = '"' then ['\\', '"']
  else if c = '\\' then ['\\', '\\']
  else if c.toNat < 0x20 then
    if c = '\n' then ['\\', 'n']
    else if c = '\r' then ['\\', 'r']
    else if c = '\t' then ['\\', 't']
    else if c.toNat = 0x08 then ['\\', 'b']
    else if c.toNat = 0x0C then ['\\', 'f']
    else ['\\', 'u', '0', '0', hexDigit (c.toNat / 16), hexDigit c.toNat]
  else [c]

/-- A string between quotes. -/
def quoted (s : String) : List Char := '"' :: (s.toList.flatMap escape ++ ['"'])

/-- A number. -/
def Number.chars : Number → List Char
  | .whole n => intDigits n
  | .real x => floatText x

mutual

/-- The characters of a value, without blanks. -/
def chars : Json → List Char
  | .null => ['n', 'u', 'l', 'l']
  | .bool true => ['t', 'r', 'u', 'e']
  | .bool false => ['f', 'a', 'l', 's', 'e']
  | .number n => n.chars
  | .string s => quoted s
  | .array [] => ['[', ']']
  | .array (j :: js) => '[' :: (chars j ++ itemsRest js)
  | .object [] => ['{', '}']
  | .object ((k, j) :: rest) => '{' :: (quoted k ++ ':' :: (chars j ++ membersRest rest))

/-- The items after the first, and the closing bracket. -/
def itemsRest : List Json → List Char
  | [] => [']']
  | j :: js => ',' :: (chars j ++ itemsRest js)

/-- The members after the first, and the closing brace. -/
def membersRest : List (String × Json) → List Char
  | [] => ['}']
  | (k, j) :: rest => ',' :: (quoted k ++ ':' :: (chars j ++ membersRest rest))

end

/-- The text of a value, without blanks. -/
def text (j : Json) : String := String.ofList j.chars

/-- A line break and the blanks in front of depth `depth`. -/
def newline (depth : Nat) : List Char := '\n' :: List.replicate (2 * depth) ' '

mutual

/-- The characters of a value at depth `depth`, one item or member a line. -/
def prettyChars (depth : Nat) : Json → List Char
  | .null => ['n', 'u', 'l', 'l']
  | .bool true => ['t', 'r', 'u', 'e']
  | .bool false => ['f', 'a', 'l', 's', 'e']
  | .number n => n.chars
  | .string s => quoted s
  | .array [] => ['[', ']']
  | .array (j :: js) =>
    '[' :: (newline (depth + 1) ++ prettyChars (depth + 1) j ++ prettyItems depth js)
  | .object [] => ['{', '}']
  | .object ((k, j) :: rest) =>
    '{' :: (newline (depth + 1) ++ quoted k ++ ':' :: ' ' ::
      (prettyChars (depth + 1) j ++ prettyMembers depth rest))

/-- The items after the first, and the closing bracket. -/
def prettyItems (depth : Nat) : List Json → List Char
  | [] => newline depth ++ [']']
  | j :: js => ',' :: (newline (depth + 1) ++ prettyChars (depth + 1) j ++ prettyItems depth js)

/-- The members after the first, and the closing brace. -/
def prettyMembers (depth : Nat) : List (String × Json) → List Char
  | [] => newline depth ++ ['}']
  | (k, j) :: rest =>
    ',' :: (newline (depth + 1) ++ quoted k ++ ':' :: ' ' ::
      (prettyChars (depth + 1) j ++ prettyMembers depth rest))

end

/-- The text of a value, one item or member a line. -/
def pretty (j : Json) : String := String.ofList (j.prettyChars 0)

end GeoReplication.Json
