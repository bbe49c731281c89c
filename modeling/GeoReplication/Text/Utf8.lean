/-!
# Text/Utf8 — characters from octets

`pieces` cuts a sequence of octets into characters and ill-formed pieces.  An ill-formed piece is as
long as it could still have become a character, and at least one octet, so that the next character
is found again.  `decode?` accepts no such piece, `decodeLossy` puts a replacement character in its
place.
-/

namespace GeoReplication.Text.Utf8

/-- The octets of a character. -/
def encode (c : Char) : List Nat := (String.utf8EncodeChar c).map UInt8.toNat

/-- What a leading octet announces. -/
structure Lead where
  /-- octets to follow -/
  count : Nat
  /-- the least the first of these may be -/
  low : Nat
  /-- the most the first of these may be -/
  high : Nat
  /-- the bits of the leading octet that belong to the character -/
  bits : Nat
deriving DecidableEq, Repr

/-- The announcement of a leading octet; none if no character begins with it. -/
def lead? (b : Nat) : Option Lead :=
  if b < 0x80 then some ⟨0, 0, 0, b⟩
  else if b < 0xC2 then none
  else if b < 0xE0 then some ⟨1, 0x80, 0xBF, b - 0xC0⟩
  else if b = 0xE0 then some ⟨2, 0xA0, 0xBF, 0⟩
  else if b = 0xED then some ⟨2, 0x80, 0x9F, 0xD⟩
  else if b < 0xF0 then some ⟨2, 0x80, 0xBF, b - 0xE0⟩
  else if b = 0xF0 then some ⟨3, 0x90, 0xBF, 0⟩
  else if b < 0xF4 then some ⟨3, 0x80, 0xBF, b - 0xF0⟩
  else if b = 0xF4 then some ⟨3, 0x80, 0x8F, 4⟩
  else none

/-- The octets that follow a leading one: the number they complete, none if they break off, and the
rest. -/
def follow : (count low high bits : Nat) → List Nat → Option Nat × List Nat
  | 0, _, _, bits, bs => (some bits, bs)
  | _ + 1, _, _, _, [] => (none, [])
  | count + 1, low, high, bits, b :: bs =>
    if low ≤ b ∧ b ≤ high then follow count 0x80 0xBF (bits * 64 + (b - 0x80)) bs
    else (none, b :: bs)

theorem length_follow_le (count low high bits : Nat) (bs : List Nat) :
    (follow count low high bits bs).2.length ≤ bs.length := by
  induction count generalizing low high bits bs with
  | zero => simp [follow]
  | succ count ih =>
    cases bs with
    | nil => simp [follow]
    | cons b bs =>
      simp only [follow]
      split
      · exact Nat.le_trans (ih _ _ _ _) (Nat.le_succ _)
      · exact Nat.le_refl _

/-- Characters, and nothing for each ill-formed piece. -/
def pieces : List Nat → List (Option Char)
  | [] => []
  | b :: bs =>
    match lead? b with
    | none => none :: pieces bs
    | some l =>
      ((follow l.count l.low l.high l.bits bs).1.map Char.ofNat) ::
        pieces (follow l.count l.low l.high l.bits bs).2
termination_by bs => bs.length
decreasing_by
  · simp
  · exact Nat.lt_succ_of_le (length_follow_le _ _ _ _ _)

/-- The text, if every octet belongs to a character. -/
def decode? (bs : List Nat) : Option (List Char) := (pieces bs).mapM id

/-- The character that stands for what cannot be read. -/
def replacement : Char := Char.ofNat 0xFFFD

/-- The text, with a replacement character for each ill-formed piece. -/
def decodeLossy (bs : List Nat) : List Char := (pieces bs).map fun piece => piece.getD replacement

end GeoReplication.Text.Utf8
