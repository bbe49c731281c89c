/-!
# Text/Scan — cutting and trimming text

Every reader of this library works on the characters of a text as a list.  This module holds the
cuts they share: at the first or last place of a mark, off both ends, and into lines.  A cut loses
nothing but the mark itself (`append_of_splitOnce?`).
-/

namespace GeoReplication.Text

/-- What follows `mark` when the text starts with it. -/
def dropMark? : (mark text : List Char) → Option (List Char)
  | [], cs => some cs
  | _ :: _, [] => none
  | m :: ms, c :: cs => if m = c then dropMark? ms cs else none

theorem append_of_dropMark? : ∀ {mark text rest : List Char},
    dropMark? mark text = some rest → text = mark ++ rest
  | [], _, _, h => by simpa [dropMark?] using h
  | _ :: _, [], _, h => by simp [dropMark?] at h
  | m :: ms, c :: cs, rest, h => by
      by_cases hm : m = c
      · subst hm
        simp only [dropMark?, if_true] at h
        rw [append_of_dropMark? h, List.cons_append]
      · simp [dropMark?, hm] at h

/-- The text before the first `mark` and the text after it. -/
def splitOnce? (mark : List Char) : List Char → Option (List Char × List Char)
  | [] => if mark.isEmpty then some ([], []) else none
  | c :: cs =>
    match dropMark? mark (c :: cs) with
    | some rest => some ([], rest)
    | none => (splitOnce? mark cs).map fun (before, after) => (c :: before, after)

/-- **A cut loses nothing but the mark.** -/
theorem append_of_splitOnce? {mark : List Char} : ∀ {text before after : List Char},
    splitOnce? mark text = some (before, after) → text = before ++ mark ++ after
  | [], before, after, h => by
      by_cases hm : mark.isEmpty
      · simp only [splitOnce?, hm, if_true, Option.some.injEq, Prod.mk.injEq] at h
        obtain ⟨rfl, rfl⟩ := h
        simpa using hm
      · simp [splitOnce?, hm] at h
  | c :: cs, before, after, h => by
      rw [splitOnce?] at h
      split at h
      · next rest hd =>
          simp only [Option.some.injEq, Prod.mk.injEq] at h
          obtain ⟨rfl, rfl⟩ := h
          simpa using append_of_dropMark? hd
      · obtain ⟨⟨b, a⟩, hs, he⟩ := Option.map_eq_some_iff.mp h
        simp only [Prod.mk.injEq] at he
        obtain ⟨rfl, rfl⟩ := he
        rw [append_of_splitOnce? hs]
        simp

/-- The text before the last `mark` and the text after it. -/
def splitLast? (mark : Char) (text : List Char) : Option (List Char × List Char) :=
  (splitOnce? [mark] text.reverse).map fun (after, before) => (before.reverse, after.reverse)

/-- The text between the marks, all of them: one part more than there are marks. -/
def splitAll (mark : Char) : List Char → List (List Char)
  | [] => [[]]
  | c :: cs =>
    if c = mark then [] :: splitAll mark cs
    else match splitAll mark cs with
      | [] => [[c]]
      | part :: parts => (c :: part) :: parts

/-- Characters satisfying `p` dropped from the end. -/
def trimEnd (p : Char → Bool) (text : List Char) : List Char :=
  (text.reverse.dropWhile p).reverse

/-- Characters satisfying `p` dropped from both ends. -/
def trimBoth (p : Char → Bool) (text : List Char) : List Char :=
  trimEnd p (text.dropWhile p)

/-- Slashes dropped from both ends. -/
def trimSlashes : List Char → List Char := trimBoth (· == '/')

/-- The characters with the Unicode property `White_Space`. -/
def isBlank (c : Char) : Bool :=
  let n := c.toNat
  (0x09 ≤ n && n ≤ 0x0D) || n == 0x20 || n == 0x85 || n == 0xA0 || n == 0x1680 ||
    (0x2000 ≤ n && n ≤ 0x200A) || n == 0x2028 || n == 0x2029 || n == 0x202F || n == 0x205F ||
    n == 0x3000

/-- Blanks dropped from both ends. -/
def trimBlanks : List Char → List Char := trimBoth isBlank

/-- Latin letters of the ASCII range in lower case; every other character as it is. -/
def lower (text : List Char) : List Char := text.map Char.toLower

/-- The first line: what stands before the first line feed, less a carriage return at its end. -/
def firstLine (text : List Char) : List Char :=
  match splitOnce? ['\n'] text with
  | none => text
  | some (line, _) =>
    match line.reverse with
    | '\r' :: rest => rest.reverse
    | _ => line

/-- The parts, with `mark` between neighbours. -/
def joinWith (mark : String) : List String → String
  | [] => ""
  | [part] => part
  | part :: parts => part ++ mark ++ joinWith mark parts

/-- `text` with blanks put in front until it has `width` characters. -/
def padLeft (width : Nat) (text : String) : String :=
  String.ofList (List.replicate (width - text.length) ' ') ++ text

/-- `text` with blanks put behind until it has `width` characters. -/
def padRight (width : Nat) (text : String) : String :=
  text ++ String.ofList (List.replicate (width - text.length) ' ')

end GeoReplication.Text
