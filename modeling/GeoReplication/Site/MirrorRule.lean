import GeoReplication.Error
import GeoReplication.Model.Project

/-!
# Site/MirrorRule — how copies are made to go

A rule says of the copies it applies to how long they take, what happens meanwhile and how they end.
A copy goes by the first rule that applies and is not used up; without one it succeeds at once.
-/

namespace GeoReplication

/-- What happens in the course of a copy, in the order of the fields. -/
structure MirrorRule where
  /-- the project copied; none for any -/
  projectId : Option Int
  /-- the part copied; none for either -/
  part : Option Part
  /-- copies the rule is still good for; none for all of them -/
  times : Option Nat
  /-- the clocks move on by this, in milliseconds -/
  advance : Nat
  /-- waiting that no clock sees, in milliseconds -/
  delay : Nat
  /-- the part is updated on the primary -/
  touch : Bool
  /-- the part is to be copied again to this node -/
  resyncNode : Option Int
  /-- the copy fails -/
  error : Option Error
deriving DecidableEq, Repr

namespace MirrorRule

/-- A copy that takes no time and succeeds. -/
def smooth : MirrorRule := ⟨none, none, none, 0, 0, false, none, none⟩

/-- The rule applies to a copy of a part. -/
def appliesTo (r : MirrorRule) (projectId : Int) (part : Part) : Bool :=
  r.times != some 0 && r.projectId.all (· == projectId) && r.part.all (· == part)

/-- The rule that a copy goes by, and the rules afterwards. -/
def choose (projectId : Int) (part : Part) : List MirrorRule → MirrorRule × List MirrorRule
  | [] => (smooth, [])
  | r :: rs =>
    if r.appliesTo projectId part then (r, { r with times := r.times.map (· - 1) } :: rs)
    else
      let (chosen, rs) := choose projectId part rs
      (chosen, r :: rs)

/-- Without rules every copy is smooth. -/
@[simp] theorem choose_nil (projectId : Int) (part : Part) :
    choose projectId part [] = (smooth, []) := rfl

end MirrorRule

end GeoReplication
