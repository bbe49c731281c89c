import GeoReplication.Console.Command
import GeoReplication.Console.Dialogue
import GeoReplication.Console.Poll
import GeoReplication.Site.Basic
import GeoReplication.Url.Socket
import GeoReplication.Wire.Config

/-!
# Console/Run — a command carried out on a disc

A `Disc` is what a run finds and leaves: databases and configuration files, by path.  The
administrative commands need no more; the service is checked up to the point where it would listen,
and a status needs an answer from elsewhere.
-/

namespace GeoReplication.Console

open GeoReplication.Time

/-- Databases and texts by path. -/
structure Disc where
  databases : List (String × Store)
  texts : List (String × String)

namespace Disc

/-- Nothing. -/
def empty : Disc := ⟨[], []⟩

/-- What a list has for a path. -/
def at? {α : Type} (path : String) (entries : List (String × α)) : Option α :=
  (entries.find? fun entry => Path.place entry.1 == Path.place path).map Prod.snd

/-- A list with the value for a path set. -/
def put {α : Type} (path : String) (value : α) : List (String × α) → List (String × α)
  | [] => [(path, value)]
  | (p, v) :: rest =>
    if Path.place p = Path.place path then (p, value) :: rest else (p, v) :: put path value rest

/-- The disc with a database. -/
def setDatabase (d : Disc) (path : String) (s : Store) : Disc :=
  { d with databases := put path s d.databases }

/-- The disc with a text. -/
def setText (d : Disc) (path text : String) : Disc := { d with texts := put path text d.texts }

/-- The database at a path. -/
def database? (d : Disc) (path : String) : Option Store := at? path d.databases

/-- The text at a path. -/
def text? (d : Disc) (path : String) : Option String := at? path d.texts

/-- Something lies below the path. -/
def isFolder (d : Disc) (path : String) : Bool :=
  (d.databases.map Prod.fst ++ d.texts.map Prod.fst).any fun p =>
    Path.place p != Path.place path && (Path.place p).1 == (Path.place path).1 &&
      (Path.parts path).isPrefixOf (Path.parts p)

end Disc

/-- What is said of a file that is not there. -/
def noSuchFile : Error := .io "No such file or directory (os error 2)"

/-- What is said of a folder in the place of a file. -/
def isAFolder : Error := .io "Is a directory (os error 21)"

/-- What is said of a file that holds no text. -/
def isNoText : Error := .io "stream did not contain valid UTF-8"

/-- A dialogue with a database: what it prints, how it ends and what it leaves. -/
def converse (now : Instant) (s : Store) (dialogue : Dialogue Unit) : Outcome × Store :=
  let (outcome, site) := (dialogue.run.run "").run (Site.start now s [])
  match outcome with
  | .ok (.ok (), out) => (.success out, site.store)
  | .ok (.error message, out) => (.failure out message, site.store)
  | .error (.error e) => (.failure "" (errorText e), site.store)
  | .error (.overflow o) => (.failure "" o.message, site.store)

/-- A dialogue with the database at a path. It has to be there, or else is `whenMissing`. -/
def onDatabase (now : Instant) (d : Disc) (path : String) (whenMissing : Option Store)
    (dialogue : Dialogue Unit) : Outcome × Disc :=
  match (d.database? path).or whenMissing with
  | none =>
    (.failure "" ("Database not found at " ++ path ++ ". Run 'geosync admin init' first."), d)
  | some s =>
    let (outcome, s) := converse now s dialogue
    (outcome, d.setDatabase path s)

/-- The settings in a file, the standard ones without a file. -/
def loadConfig (d : Disc) : Option String → Except Error Config
  | none => .ok .standard
  | some path =>
    match d.text? path with
    | none =>
      .error (if (d.database? path).isSome then isNoText
        else if d.isFolder path then isAFolder
        else noSuchFile)
    | some text => Config.ofToml path text

/-- What the service comes to before it listens. -/
def runServe (d : Disc) (i : Installation) (configPath : Option String) : Except String Unit := do
  match loadConfig d configPath with
  | .error e => throw (errorText e)
  | .ok _ => pure ()
  if (d.database? i.databasePath).isNone then
    throw "Database not found. Run 'geosync admin init' first to create it."
  match Socket.parse? i.socketText with
  | none => throw "invalid socket address syntax"
  | some socket => throw ("cannot listen on " ++ socket.text)

/-- Carries out a command. -/
def runCommand (now : Instant) (d : Disc) : Command → Outcome × Disc
  | .init dataDir nodeUrl role interactive =>
    let path := Command.databaseIn dataDir
    onDatabase now d path (some .empty) (runInit path nodeUrl role interactive)
  | .addNode dataDir url role namespaceIds repos files enabled =>
    onDatabase now d (Command.databaseIn dataDir) none
      (runAddNode url role namespaceIds repos files enabled)
  | .listNodes dataDir asJson =>
    onDatabase now d (Command.databaseIn dataDir) none (runListNodes asJson)
  | .removeNode dataDir id interactive confirmed =>
    onDatabase now d (Command.databaseIn dataDir) none
      (runRemoveNode id interactive confirmed)
  | .serve i configPath =>
    match runServe d i configPath with
    | .ok () => (.success "", d)
    | .error message => (.failure "" message, d)
  | .status url _ => (.failure "" ("cannot reach " ++ url), d)

/-- Carries out a command line. -/
def run (now : Instant) (d : Disc) (args : List String) : Outcome × Disc :=
  match Command.parse? args with
  | none => (.misuse, d)
  | some command => runCommand now d command

end GeoReplication.Console
