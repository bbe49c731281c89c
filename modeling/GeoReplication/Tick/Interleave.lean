import GeoReplication.Tick.Source

/-!
# Tick/Interleave — one candidate of each category in turn

Sources take turns.  A source whose turn it is hands out numbers until one is found that is neither
in flight nor taken before; that one is picked.  Rounds go on until enough are picked or every
buffer is empty.  The question whether a number is in flight is asked in a monad, so that the answer
may change meanwhile.
-/

namespace GeoReplication

/-- What has been picked so far. -/
structure Picked where
  /-- in the order of picking -/
  batch : List Int
  /-- picked now or in an earlier batch -/
  seen : List Int
deriving DecidableEq, Repr

namespace Source

variable {m : Type → Type} [Monad m]

/-- The source after handing out one number, the rest of its buffer being `rest`. -/
def pop (s : Source) (id : Int) (rest : List Int) : Source :=
  { s with buffer := rest, lastTaken := some id }

/-- The turn of a source whose buffer holds `ids`. -/
def turnFrom (inFlight : Int → m Bool) (s : Source) (p : Picked) : List Int → m (Source × Picked)
  | [] => pure (s, p)
  | id :: rest => do
    let s := s.pop id rest
    if ← inFlight id then turnFrom inFlight s p rest
    else if p.seen.contains id then turnFrom inFlight s p rest
    else pure (s, ⟨p.batch ++ [id], id :: p.seen⟩)

/-- The turn of a source. -/
def turn (inFlight : Int → m Bool) (s : Source) (p : Picked) : m (Source × Picked) :=
  turnFrom inFlight s p s.buffer

/-- A round: every source has a turn while there is capacity. -/
def round (inFlight : Int → m Bool) (capacity : Nat) :
    List Source → Picked → m (List Source × Picked)
  | [], p => pure ([], p)
  | s :: ss, p => do
    if capacity ≤ p.batch.length then pure (s :: ss, p)
    else
      let (s, p) ← s.turn inFlight p
      let (ss, p) ← round inFlight capacity ss p
      pure (s :: ss, p)

/-- The number of ids that have been looked up and not taken. -/
def buffered (ss : List Source) : Nat := ss.foldr (fun s count => s.buffer.length + count) 0

/-- Rounds until enough are picked or every buffer is empty; each takes at least one number, so no
more are needed than there are numbers in the buffers. -/
def rounds (inFlight : Int → m Bool) (capacity : Nat) :
    (count : Nat) → List Source → Picked → m (List Source × Picked)
  | 0, ss, p => pure (ss, p)
  | count + 1, ss, p => do
    if p.batch.length < capacity && ss.any fun s => !s.buffer.isEmpty then
      let (ss, p) ← round inFlight capacity ss p
      rounds inFlight capacity count ss p
    else pure (ss, p)

/-- Up to `capacity` numbers from the buffers, one of each source in turn. -/
def interleave (inFlight : Int → m Bool) (capacity : Nat) (ss : List Source) (seen : List Int) :
    m (List Source × Picked) :=
  rounds inFlight capacity (buffered ss) ss ⟨[], seen⟩

end Source

end GeoReplication
