import GeoReplication.Config
import GeoReplication.Console.Arguments
import GeoReplication.Model.Node

/-!
# Console/Command — what can be asked on the command line

`Command.parse?` reads the words of a command and its options.  Every value is checked before
anything is done.
-/

namespace GeoReplication.Console

open GeoReplication.Text

/-- A command. -/
inductive Command where
  /-- sets up a database and registers this installation -/
  | init (dataDir : String) (nodeUrl : Option String) (role : NodeRole) (interactive : Bool)
  /-- registers a node -/
  | addNode (dataDir url : String) (role : NodeRole) (namespaceIds : List Int)
      (reposMaxCapacity filesMaxCapacity : UInt32) (enabled : Bool)
  | listNodes (dataDir : String) (asJson : Bool)
  /-- removes a node, after asking unless `confirmed` -/
  | removeNode (dataDir : String) (id : Option Int) (interactive confirmed : Bool)
  | serve (installation : Installation) (configPath : Option String)
  /-- shows the status of an installation, once or again and again -/
  | status (url : String) (watch : Bool)
deriving DecidableEq, Repr

namespace Command

/-- Where data lie unless said otherwise. -/
def standardDataDir : String := Installation.standard.dataDir

/-- The option for the place of the data. -/
def dataDirOption : OptionSpec := .value "data-dir"

/-- The place of the data. -/
def dataDir (given : Given) : String := given.getD "data-dir" standardDataDir

/-- A whole number up to `max`, read as a signed one. -/
def bounded? (max : Nat) (text : String) : Option Nat :=
  (signed? 0 max text.toList).map Int.toNat

/-- The role given, or the one for want of it. -/
def role? (given : Given) (standard : NodeRole) : Option NodeRole :=
  NodeRole.ofWord? (given.getD "role" standard.word)

/-- Sets up a database. -/
def parseInit? (args : List String) : Option Command := do
  let given ← given? [dataDirOption, .value "node-url", .value "role", .flag "non-interactive"] args
  let role ← role? given .primary
  return init (dataDir given) (given.get? "node-url") role (!given.has "non-interactive")

/-- Registers a node. -/
def parseAdd? (args : List String) : Option Command := do
  let given ← given? [dataDirOption, .value "url", .value "role", ⟨"namespace", none, true, true⟩,
    .value "repos-max-capacity", .value "files-max-capacity", .flag "disabled"] args
  let url ← given.get? "url"
  let role ← role? given .secondary
  let namespaceIds ← (given.values "namespace").mapM fun text => id? text.toList
  let repos ← bounded? Node.maxCapacity
    (given.getD "repos-max-capacity" (decimal NewNode.defaultReposCapacity.toNat))
  let files ← bounded? Node.maxCapacity
    (given.getD "files-max-capacity" (decimal NewNode.defaultFilesCapacity.toNat))
  return addNode (dataDir given) url role namespaceIds (.ofNat repos) (.ofNat files)
    (!given.has "disabled")

/-- Lists the nodes. -/
def parseList? (args : List String) : Option Command := do
  let given ← given? [dataDirOption, .flag "json"] args
  return listNodes (dataDir given) (given.has "json")

/-- Removes a node. -/
def parseRemove? (args : List String) : Option Command := do
  let given ← given? [dataDirOption, .value "id", .flag "non-interactive",
    ⟨"yes", some 'y', false, false⟩] args
  let id ← match given.get? "id" with
    | none => some none
    | some text => (id? text.toList).map some
  return removeNode (dataDir given) id (!given.has "non-interactive") (given.has "yes")

/-- Starts the service. -/
def parseServe? (args : List String) : Option Command := do
  let given ← given? [.value "host", ⟨"port", some 'p', true, false⟩, dataDirOption,
    .value "node-url", .value "config"] args
  let standard := Installation.standard
  let port ← bounded? Address.maxPort (given.getD "port" (decimal standard.port))
  if given.get? "config" = some "" then none
  return serve ⟨given.getD "host" standard.host, port, dataDir given, given.get? "node-url"⟩
    (given.get? "config")

/-- Shows the status. -/
def parseStatus? (args : List String) : Option Command := do
  let given ← given? [.value "url", .flag "watch"] args
  return status (given.getD "url" "http://127.0.0.1:8080") (given.has "watch")

/-- Reads a command line. -/
def parse? : List String → Option Command
  | "admin" :: "init" :: args => parseInit? args
  | "admin" :: "node" :: "add" :: args => parseAdd? args
  | "admin" :: "node" :: "list" :: args => parseList? args
  | "admin" :: "node" :: "remove" :: args => parseRemove? args
  | "serve" :: args => parseServe? args
  | "status" :: args => parseStatus? args
  | _ => none

/-- The database in a data directory. -/
def databaseIn (dataDir : String) : String := { Installation.standard with dataDir }.databasePath

/-- The database that a command works on. -/
def databasePath? : Command → Option String
  | init dataDir _ _ _ => some (databaseIn dataDir)
  | addNode dataDir _ _ _ _ _ _ => some (databaseIn dataDir)
  | listNodes dataDir _ => some (databaseIn dataDir)
  | removeNode dataDir _ _ _ => some (databaseIn dataDir)
  | serve installation _ => some installation.databasePath
  | status _ _ => none

/-- The settings file that a command names. -/
def configPath? : Command → Option String
  | serve _ configPath => configPath
  | _ => none

/-- The folder that a command makes where it is not there yet. -/
def newFolder? : Command → Option String
  | init dataDir _ _ _ => if dataDir = "" then none else some dataDir
  | _ => none

end Command

end GeoReplication.Console
