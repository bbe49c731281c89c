import GeoReplication.Json.Reader
import GeoReplication.Text.Utf8

/-!
# Url/Escaped — octets written as escapes

A percent sign and two hexadecimal digits stand for an octet, every other character for its own
octets.
-/

namespace GeoReplication.Escaped

open GeoReplication.Text

/-- The octets of an escaped text; an escape without two hexadecimal digits stands for itself. -/
def octets : List Char → List Nat
  | '%' :: a :: b :: rest =>
    match Json.hexValue? a, Json.hexValue? b with
    | some high, some low => (high * 16 + low) :: octets rest
    | _, _ => '%'.toNat :: octets (a :: b :: rest)
  | c :: rest => Utf8.encode c ++ octets rest
  | [] => []

/-- The text that an escaped one stands for, if its octets make one. -/
def decode? (escaped : List Char) : Option (List Char) := Utf8.decode? (octets escaped)

/-- The text that an escaped one stands for, with replacement characters where its octets make none.
-/
def decodeLossy (escaped : List Char) : List Char := Utf8.decodeLossy (octets escaped)

end GeoReplication.Escaped
