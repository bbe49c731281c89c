import GeoReplication.Store.Call

/-!
# Site/Fault — operations of the store that are made to fail

A fault lets some operations of its kind pass, fails some, and is spent.  An operation is put to the
faults in the order of their making; the first that fails it ends the round, and a fault that lets
it pass leaves it to the next.
-/

namespace GeoReplication

/-- Failures to come of one kind of operation. -/
structure Fault where
  kind : Call.Kind
  /-- operations to let pass first -/
  skip : Nat
  /-- operations to fail then; none for all of them -/
  times : Option Nat
  error : Error
deriving DecidableEq, Repr

namespace Fault

/-- What the fault does to an operation of its kind: its error if it fails it, and the fault
afterwards. -/
def strike (f : Fault) : Option Error × Fault :=
  match f.skip, f.times with
  | skip + 1, _ => (none, { f with skip })
  | 0, none => (some f.error, f)
  | 0, some 0 => (none, f)
  | 0, some (times + 1) => (some f.error, { f with times := some times })

/-- Puts an operation to faults in their order. -/
def ask (kind : Call.Kind) : List Fault → Option Error × List Fault
  | [] => (none, [])
  | f :: fs =>
    if f.kind = kind then
      match f.strike with
      | (some e, f) => (some e, f :: fs)
      | (none, f) =>
        let (outcome, fs) := ask kind fs
        (outcome, f :: fs)
    else
      let (outcome, fs) := ask kind fs
      (outcome, f :: fs)

/-- Without faults nothing fails. -/
@[simp] theorem ask_nil (kind : Call.Kind) : ask kind [] = (none, []) := rfl

end Fault

end GeoReplication
