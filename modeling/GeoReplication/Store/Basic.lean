import GeoReplication.Store.Rows
import GeoReplication.Store.Table

/-!
# Store/Basic — the tables, and what is done to them

A `Store` is the tables of one database.  An `Action` is what a caller does to it: statements, each
of which takes effect as a whole or not at all, one after another.  An action that fails halfway
keeps what its earlier statements have written, unless it is a `transaction`, which then puts
everything back.
-/

namespace GeoReplication

open GeoReplication.Store

/-- The tables of one database. -/
structure Store where
  namespaces : Numbered NamespaceRow
  projects : Numbered ProjectRow
  nodes : Numbered NodeRow
  /-- which namespaces a node is restricted to: pairs of node and namespace -/
  links : Table (Int × Int) Unit
  /-- registries, under node and project -/
  registries : Table (Int × Int) RegistryRow
  uploads : Numbered UploadRow
  lfsObjects : Numbered LfsObjectRow
  /-- which projects use a large object: pairs of object and project -/
  lfsLinks : Table (Int × Int) Unit
  /-- copied files, under node, kind and file -/
  copies : Table (Int × FileType × Int) CopyRow
  /-- files that could not be copied, under node, kind and file -/
  failures : Table (Int × FileType × Int) FailureRow
  events : Numbered EventRow
  /-- how far nodes have come in the event log -/
  cursors : Table Int Int
  leases : Table String LeaseRow
  heartbeat : Option String

namespace Store

/-- A new database. -/
def empty : Store where
  namespaces := .empty
  projects := .empty
  nodes := .empty
  links := .empty
  registries := .empty
  uploads := .empty
  lfsObjects := .empty
  lfsLinks := .empty
  copies := .empty
  failures := .empty
  events := .empty
  cursors := .empty
  leases := .empty
  heartbeat := none

end Store

/-- What a caller does to the store. -/
def Action (α : Type) : Type := Store → Except Error α × Store

namespace Action

variable {α β : Type}

/-- The outcome on a store. -/
def run (a : Action α) (s : Store) : Except Error α × Store := a s

/-- Nothing is done. -/
def done (a : α) : Action α := fun s => (.ok a, s)

/-- One action after another; the second is not begun when the first fails. -/
def andThen (a : Action α) (next : α → Action β) : Action β := fun s =>
  match a s with
  | (.ok x, s') => next x s'
  | (.error e, s') => (.error e, s')

instance : Monad Action where
  pure := done
  bind := andThen

/-- The action fails. -/
def fail (e : Error) : Action α := fun s => (.error e, s)

/-- A look into the store. -/
def read (f : Store → Except Error α) : Action α := fun s => (f s, s)

/-- A statement: it takes effect as a whole or not at all. -/
def statement (f : Store → Except Error (α × Store)) : Action α := fun s =>
  match f s with
  | .ok (a, s') => (.ok a, s')
  | .error e => (.error e, s)

/-- Everything the action does, or nothing. -/
def transaction (a : Action α) : Action α := fun s =>
  match a s with
  | (.ok x, s') => (.ok x, s')
  | (.error e, _) => (.error e, s)

@[simp] theorem run_pure (a : α) (s : Store) : (pure a : Action α).run s = (.ok a, s) := rfl

@[simp] theorem run_bind (a : Action α) (next : α → Action β) (s : Store) :
    (a >>= next).run s =
      match a.run s with
      | (.ok x, s') => (next x).run s'
      | (.error e, s') => (.error e, s') := rfl

@[simp] theorem run_fail (e : Error) (s : Store) : (fail e : Action α).run s = (.error e, s) := rfl

@[simp] theorem run_read (f : Store → Except Error α) (s : Store) : (read f).run s = (f s, s) := rfl

@[simp] theorem run_statement (f : Store → Except Error (α × Store)) (s : Store) :
    (statement f).run s =
      match f s with
      | .ok (a, s') => (.ok a, s')
      | .error e => (.error e, s) := rfl

@[simp] theorem run_transaction (a : Action α) (s : Store) :
    (transaction a).run s =
      match a.run s with
      | (.ok x, s') => (.ok x, s')
      | (.error e, _) => (.error e, s) := rfl

end Action

end GeoReplication
