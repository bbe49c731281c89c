import GeoReplication.Json.Writer
import GeoReplication.Program
import GeoReplication.Wire.Node

/-!
# Console/Dialogue — administration of nodes

A `Dialogue` prints lines while it works and may end with a message.  What was printed and written
before stays.  Questions are never answered, because there is no terminal.
-/

namespace GeoReplication.Console

open GeoReplication.Text

/-- A program that prints and may end with a message. -/
abbrev Dialogue := ExceptT String (StateT String Program)

/-- Prints a line. -/
def say (line : String) : Dialogue Unit := modify fun printed => printed ++ line ++ "\n"

/-- An error as it is shown: its wording, and what lies behind it. -/
def errorText (e : Error) : String :=
  let behind (cause : String) : String := e.message ++ "\n\nCaused by:\n    " ++ cause
  match e with
  | .database cause => behind cause.message
  | .io detail => behind detail
  | .json detail => behind detail
  | _ => e.message

/-- A program whose errors end the dialogue. -/
def ask {α : Type} (t : Program α) : Dialogue α := do
  let outcome : Except Error α ← liftM t.attempt
  match outcome with
  | .ok a => pure a
  | .error e => throw (errorText e)

/-- A question to the user. -/
def question {α : Type} : Dialogue α := throw "The input device is not a TTY"

/-- The node to be registered at a URL. -/
def newNode (url : String) (role : NodeRole) : Dialogue NewNode :=
  match NewNode.ofUrl? url role with
  | some n => pure n
  | none =>
    throw ("Invalid node URL " ++ quoted ++ ", expected scheme://host[:port]/[path]")
where
  /-- The URL in quotes. -/
  quoted : String := "'" ++ url ++ "'"

/-- A node as it is named in messages. -/
def nodeText (n : Node) : String := "#" ++ decimal n.id ++ " (" ++ n.url ++ ")"

/-- Registers this installation in a new database. -/
def runInit (databasePath : String) (nodeUrl : Option String) (role : NodeRole)
    (interactive : Bool) : Dialogue Unit := do
  let nodes : List Node ← ask (Program.call .listNodes)
  if !nodes.isEmpty then say ("Database already initialized at " ++ databasePath)
  else
    if nodeUrl.isNone && interactive then question
    say ""
    say ("Initialized database at " ++ databasePath)
    match nodeUrl with
    | none => pure ()
    | some url =>
      let n : Node ← ask (Program.call (.createNode (← newNode url role)))
      say ("Registered this installation as " ++ n.role.word ++ " node " ++ nodeText n)
    say ""

/-- Refuses namespaces that do not exist. -/
def checkNamespaces : List Int → Dialogue Unit
  | [] => pure ()
  | id :: ids => do
    let found : Option Namespace ← ask (Program.call (.getNamespace id))
    if found.isNone then throw ("Namespace " ++ decimal id ++ " does not exist")
    checkNamespaces ids

/-- Registers a node. -/
def runAddNode (url : String) (role : NodeRole) (namespaceIds : List Int) (repos files : UInt32)
    (enabled : Bool) : Dialogue Unit := do
  let n ← newNode url role
  checkNamespaces namespaceIds
  let n : Node ← ask (Program.call (.createNode { n with
    namespaceIds, enabled, reposMaxCapacity := repos, filesMaxCapacity := files }))
  say ""
  say ("Added " ++ n.role.word ++ " node " ++ nodeText n)
  say ""

/-- A node as a record of the list. -/
def nodeJson (n : Node) : Json :=
  .object [("id", .int n.id), ("url", .string n.url), ("role", n.role.json),
    ("enabled", .bool n.enabled), ("namespace_ids", .array (n.namespaceIds.map .int)),
    ("repos_max_capacity", .nat n.reposMaxCapacity.toNat),
    ("files_max_capacity", .nat n.filesMaxCapacity.toNat)]

/-- What a node copies. -/
def scopeText (n : Node) : String :=
  if n.restrictsNamespaces then
    "namespaces [" ++ joinWith ", " (n.namespaceIds.map decimal) ++ "]"
  else "all namespaces"

/-- A node as a line of the list. -/
def nodeLine (n : Node) : String :=
  padLeft 4 (decimal n.id) ++ "  " ++ n.role.word ++ "  "
    ++ padRight 8 (if n.enabled then "enabled" else "disabled") ++ "  " ++ n.url
    ++ "  (" ++ scopeText n ++ ", capacity " ++ decimal n.reposMaxCapacity.toNat ++ "/"
    ++ decimal n.filesMaxCapacity.toNat ++ ")"

/-- Lists the nodes. -/
def runListNodes (asJson : Bool) : Dialogue Unit := do
  let nodes : List Node ← ask (Program.call .listNodes)
  if asJson then say (Json.array (nodes.map nodeJson)).pretty
  else if nodes.isEmpty then say "No Geo nodes registered"
  else nodes.forM fun n => say (nodeLine n)

/-- The node to remove. -/
def nodeToRemove (id : Option Int) (interactive : Bool) : Dialogue Node := do
  match id with
  | some id =>
    let found : Option Node ← ask (Program.call (.getNode id))
    match found with
    | some n => pure n
    | none => throw ("Node " ++ decimal id ++ " not found")
  | none =>
    if !interactive then throw "--id is required in non-interactive mode"
    let nodes : List Node ← ask (Program.call .listNodes)
    if nodes.isEmpty then throw "No Geo nodes registered"
    question

/-- Removes a node. -/
def runRemoveNode (id : Option Int) (interactive confirmed : Bool) : Dialogue Unit := do
  let n ← nodeToRemove id interactive
  if interactive && !confirmed then question
  let _ : Bool ← ask (Program.call (.deleteNode n.id))
  say ""
  say ("Removed node " ++ nodeText n)
  say ""

end GeoReplication.Console
