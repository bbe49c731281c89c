import GeoReplication.Store.Candidates
import GeoReplication.Store.Counts
import GeoReplication.Store.Files
import GeoReplication.Store.Leases
import GeoReplication.Store.Nodes
import GeoReplication.Store.Projects
import GeoReplication.Store.Registries

/-!
# Store/Call — the operations of the store as data

`Call` lists every operation with its arguments, `Call.Reply` says what it answers and `Call.run`
carries it out at a given time.  Having the operations as data lets programs be written as trees of
calls, and lets a statement speak of all of them, or of all sequences of them, at once.
-/

namespace GeoReplication

open GeoReplication.Time

/-- An operation of the store. -/
inductive Call where
  | prepare
  | ping
  | createNamespace (name : String) (parentId : Option Int)
  | getNamespace (id : Int)
  | createProject (p : NewProject)
  | getProject (id : Int)
  | deleteProject (id : Int)
  | touchProject (id : Int) (part : Part) (time : Instant)
  | expireRepositoryCache (id : Int)
  | createUpload (u : NewUpload)
  | createLfsObject (oid : String) (size : Int)
  | linkLfsObject (lfsObjectId projectId : Int)
  | createNode (n : NewNode)
  | getNode (id : Int)
  | findNodeByUrl (url : String)
  | getPrimaryNode
  | listNodes
  | updateNode (n : Node)
  | deleteNode (id : Int)
  | getRegistry (nodeId projectId : Int)
  | recordSyncSuccess (nodeId projectId : Int) (part : Part) (started : Instant)
  | recordSyncFailure (nodeId projectId : Int) (part : Part) (reason : String)
  | requestResync (nodeId projectId : Int) (part : Part)
  | deleteRegistry (nodeId projectId : Int)
  | findCandidates (c : Category) (f : CandidateFilter) (afterId : Int) (limit : Nat)
  | countProjects (scope : Scope)
  | countRegistries (scope : Scope) (part : Part) (state : SyncState)
  | countFiles (scope : Scope) (c : FileClass)
  | recordFileSynced (f : FileCopy)
  | recordFileFailure (nodeId : Int) (fileType : FileType) (fileId : Int) (reason : String)
  | appendEvent (e : NewEvent)
  | getEvent (id : Int)
  | lastEvent
  | listEventsAfter (afterId : Int) (limit : Nat)
  | getCursor (nodeId : Int)
  | advanceCursor (nodeId eventId : Int)
  | obtainLease (key holder : String) (ttlMillis : Nat)
  | renewLease (key holder : String) (ttlMillis : Nat)
  | releaseLease (key holder : String)
  | writeHeartbeat (time : Instant)
  | lastHeartbeat
deriving DecidableEq, Repr

namespace Call

/-- The answer of an operation that succeeds. -/
abbrev Reply : Call → Type
  | createNamespace _ _ => Namespace
  | getNamespace _ => Option Namespace
  | createProject _ => Project
  | getProject _ => Option Project
  | deleteProject _ => Bool
  | createUpload _ => Upload
  | createLfsObject _ _ => LfsObject
  | createNode _ => Node
  | getNode _ => Option Node
  | findNodeByUrl _ => Option Node
  | getPrimaryNode => Option Node
  | listNodes => List Node
  | deleteNode _ => Bool
  | getRegistry _ _ => Option Registry
  | recordSyncSuccess _ _ _ _ => Registry
  | recordSyncFailure _ _ _ _ => Registry
  | deleteRegistry _ _ => Bool
  | findCandidates _ _ _ _ => List Int
  | countProjects _ => Nat
  | countRegistries _ _ _ => Nat
  | countFiles _ _ => FileCounts
  | appendEvent _ => Event
  | getEvent _ => Option Event
  | lastEvent => Option Event
  | listEventsAfter _ _ => List Event
  | getCursor _ => Option EventCursor
  | advanceCursor _ _ => Int
  | obtainLease _ _ _ => Bool
  | renewLease _ _ _ => Bool
  | releaseLease _ _ => Bool
  | lastHeartbeat => Option Instant
  | _ => Unit

/-- An action as a program sees it: its errors are failures. -/
def lift {α : Type} (a : Action α) (s : Store) : Except Failure α × Store :=
  match a.run s with
  | (.ok x, s') => (.ok x, s')
  | (.error e, s') => (.error (.error e), s')

theorem snd_lift {α : Type} (a : Action α) (s : Store) : (lift a s).2 = (a.run s).2 := by
  rw [lift]
  split <;> next he => rw [he]

/-- What is answered through `lift` is what the action gives. -/
theorem run_of_lift {α : Type} {a : Action α} {s : Store} {x : α} (h : (lift a s).1 = .ok x) :
    (a.run s).1 = .ok x := by
  rw [lift] at h
  split at h
  · next he =>
    obtain rfl := Except.ok.inj h
    rw [he]
  · exact absurd h (by rintro ⟨⟩)

theorem lift_ne_overflow {α : Type} (a : Action α) (s : Store) (o : Overflow) :
    (lift a s).1 ≠ .error (.overflow o) := by
  rw [lift]
  split <;> exact fun h => by cases h

/-- A look into the store changes nothing. -/
theorem snd_lift_read {α : Type} (f : Store → Except Error α) (s : Store) :
    (lift (.read f) s).2 = s := snd_lift _ s

/-- It is answered with what it finds. -/
theorem fst_lift_read {α : Type} {f : Store → Except Error α} {s : Store} {x : α} :
    (lift (.read f) s).1 = .ok x ↔ f s = .ok x := by
  rw [lift, Action.run_read]
  cases f s <;> simp

/-- What is found decides what is answered. -/
theorem lift_read_congr {α : Type} {f : Store → Except Error α} {s s' : Store} (h : f s = f s') :
    (lift (.read f) s).1 = (lift (.read f) s').1 := by
  rw [lift, lift, Action.run_read, Action.run_read, h]
  cases f s' <;> rfl

theorem lift_read_eq_ok_iff {α : Type} {f : Store → Except Error α} {s : Store} {x : α} :
    lift (.read f) s = (.ok x, s) ↔ f s = .ok x := by
  rw [← fst_lift_read (f := f), Prod.ext_iff, snd_lift_read]
  exact and_iff_left rfl

/-- An action that needs the end of a lease which begins now. -/
def withLeaseEnd {α : Type} (now : Instant) (ttlMillis : Nat) (a : String → Action α) (s : Store) :
    Except Failure α × Store :=
  match Store.leaseEnd now ttlMillis with
  | .ok expiresAt => lift (a expiresAt) s
  | .error f => (.error f, s)

/-- Carries out an operation at a given time. -/
def run (now : Instant) : (c : Call) → Store → Except Failure c.Reply × Store
  | prepare => lift (pure ())
  | ping => lift (pure ())
  | createNamespace name parentId => lift (Store.createNamespace now name parentId)
  | getNamespace id => lift (Store.getNamespace now id)
  | createProject p => lift (Store.createProject now p)
  | getProject id => lift (Store.getProject now id)
  | deleteProject id => lift (Store.deleteProject id)
  | touchProject id part time => lift (Store.touchProject id part time)
  | expireRepositoryCache id => lift (Store.expireRepositoryCache id)
  | createUpload u => lift (Store.createUpload now u)
  | createLfsObject oid size => lift (Store.createLfsObject now oid size)
  | linkLfsObject lfsObjectId projectId => lift (Store.linkLfsObject lfsObjectId projectId)
  | createNode n => lift (Store.createNode now n)
  | getNode id => lift (Store.getNode now id)
  | findNodeByUrl url => lift (Store.findNodeByUrl now url)
  | getPrimaryNode => lift (Store.getPrimaryNode now)
  | listNodes => lift (Store.listNodes now)
  | updateNode n => lift (Store.updateNode now n)
  | deleteNode id => lift (Store.deleteNode id)
  | getRegistry nodeId projectId => lift (Store.getRegistry now nodeId projectId)
  | recordSyncSuccess nodeId projectId part started =>
    lift (Store.recordSyncSuccess now nodeId projectId part started)
  | recordSyncFailure nodeId projectId part reason =>
    lift (Store.recordSyncFailure now nodeId projectId part reason)
  | requestResync nodeId projectId part => lift (Store.requestResync now nodeId projectId part)
  | deleteRegistry nodeId projectId => lift (Store.deleteRegistry nodeId projectId)
  | findCandidates c f afterId limit => lift (Store.findCandidates f c afterId limit)
  | countProjects scope => lift (Store.countProjects scope)
  | countRegistries scope part state => lift (Store.countRegistries scope part state)
  | countFiles scope c => lift (Store.countFiles scope c)
  | recordFileSynced f => lift (Store.recordFileSynced f)
  | recordFileFailure nodeId fileType fileId reason =>
    lift (Store.recordFileFailure now nodeId fileType fileId reason)
  | appendEvent e => lift (Store.appendEvent now e)
  | getEvent id => lift (Store.getEvent now id)
  | lastEvent => lift (Store.lastEvent now)
  | listEventsAfter afterId limit => lift (Store.listEventsAfter now afterId limit)
  | getCursor nodeId => lift (Store.getCursor nodeId)
  | advanceCursor nodeId eventId => lift (Store.advanceCursor nodeId eventId)
  | obtainLease key holder ttl => withLeaseEnd now ttl (Store.obtainLease now key holder)
  | renewLease key holder ttl => withLeaseEnd now ttl (Store.extendLease key holder)
  | releaseLease key holder => lift (Store.releaseLease key holder)
  | writeHeartbeat time => lift (Store.writeHeartbeat time)
  | lastHeartbeat => lift (Store.lastHeartbeat now)

/-- Operations by name only. -/
inductive Kind where
  | prepare | ping | createNamespace | getNamespace | createProject | getProject | deleteProject
  | touchProject | expireRepositoryCache | createUpload | createLfsObject | linkLfsObject
  | createNode | getNode | findNodeByUrl | getPrimaryNode | listNodes | updateNode | deleteNode
  | getRegistry | recordSyncSuccess | recordSyncFailure | requestResync | deleteRegistry
  | findUnsynced | findFailed | findDirty
  | countProjects | countRegistries | countFiles | recordFileSynced | recordFileFailure
  | appendEvent | getEvent | lastEvent | listEventsAfter | getCursor | advanceCursor
  | obtainLease | renewLease | releaseLease | writeHeartbeat | lastHeartbeat
deriving DecidableEq, Repr

/-- The name of an operation. -/
def kind : Call → Kind
  | prepare => .prepare
  | ping => .ping
  | createNamespace _ _ => .createNamespace
  | getNamespace _ => .getNamespace
  | createProject _ => .createProject
  | getProject _ => .getProject
  | deleteProject _ => .deleteProject
  | touchProject _ _ _ => .touchProject
  | expireRepositoryCache _ => .expireRepositoryCache
  | createUpload _ => .createUpload
  | createLfsObject _ _ => .createLfsObject
  | linkLfsObject _ _ => .linkLfsObject
  | createNode _ => .createNode
  | getNode _ => .getNode
  | findNodeByUrl _ => .findNodeByUrl
  | getPrimaryNode => .getPrimaryNode
  | listNodes => .listNodes
  | updateNode _ => .updateNode
  | deleteNode _ => .deleteNode
  | getRegistry _ _ => .getRegistry
  | recordSyncSuccess _ _ _ _ => .recordSyncSuccess
  | recordSyncFailure _ _ _ _ => .recordSyncFailure
  | requestResync _ _ _ => .requestResync
  | deleteRegistry _ _ => .deleteRegistry
  | findCandidates .neverSynced _ _ _ => .findUnsynced
  | findCandidates .failed _ _ _ => .findFailed
  | findCandidates .dirty _ _ _ => .findDirty
  | countProjects _ => .countProjects
  | countRegistries _ _ _ => .countRegistries
  | countFiles _ _ => .countFiles
  | recordFileSynced _ => .recordFileSynced
  | recordFileFailure _ _ _ _ => .recordFileFailure
  | appendEvent _ => .appendEvent
  | getEvent _ => .getEvent
  | lastEvent => .lastEvent
  | listEventsAfter _ _ => .listEventsAfter
  | getCursor _ => .getCursor
  | advanceCursor _ _ => .advanceCursor
  | obtainLease _ _ _ => .obtainLease
  | renewLease _ _ _ => .renewLease
  | releaseLease _ _ => .releaseLease
  | writeHeartbeat _ => .writeHeartbeat
  | lastHeartbeat => .lastHeartbeat

end Call

end GeoReplication
