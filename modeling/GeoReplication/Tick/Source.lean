import GeoReplication.Store.Candidates

/-!
# Tick/Source — the candidates of one category, page by page

A source hands out the numbers of candidates in ascending order, starting behind `start` and going
round once: when the numbers behind `start` are used up it begins again at the lowest and stops at
`start`.  It looks numbers up a page at a time and forgets none of them.
-/

namespace GeoReplication

/-- The candidates of one category, as far as they have been looked up and taken. -/
structure Source where
  category : Category
  /-- where the last tick left off -/
  start : Int
  /-- the next page begins behind this -/
  afterId : Int
  /-- looked up, not yet taken -/
  buffer : List Int
  /-- the round has passed its lowest number -/
  wrapped : Bool
  /-- there is no further page -/
  exhausted : Bool
  lastTaken : Option Int
deriving DecidableEq, Repr

namespace Source

/-- A source that begins behind `start`. -/
def begin (category : Category) (start : Int) : Source :=
  ⟨category, start, start, [], start == 0, false, none⟩

/-- Nothing is left to hand out. -/
def isDone (s : Source) : Bool := s.exhausted && s.buffer.isEmpty

/-- The next page is due. -/
def isDue (s : Source) : Bool := s.buffer.isEmpty && !s.exhausted

/-- Where the next tick picks up: behind the last number taken, or at the lowest if none is left. -/
def resumeAfter (s : Source) : Int := if s.isDone then 0 else s.lastTaken.getD s.start

/-- The part of a page that belongs to the round: on the second leg nothing behind `start`. -/
def cut (s : Source) (page : List Int) : List Int :=
  if s.wrapped ∧ 0 < s.start then page.takeWhile (· ≤ s.start) else page

/-- The source with a page more. A page that is not full, or was cut, is the last one of its leg. -/
def accept (s : Source) (batchSize : Nat) (page : List Int) : Source :=
  let ids := s.cut page
  let last := page.length < batchSize || ids.length < page.length
  let s := { s with afterId := ids.getLast?.getD s.afterId, buffer := s.buffer ++ ids }
  if last && !s.wrapped then { s with wrapped := true, afterId := 0 }
  else { s with exhausted := last }

/-- The source after a look-up that failed. -/
def giveUp (s : Source) : Source := { s with exhausted := true }

end Source

end GeoReplication
