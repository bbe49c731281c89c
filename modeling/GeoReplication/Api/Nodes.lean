import GeoReplication.Api.Refusal
import GeoReplication.StatusReport
import GeoReplication.Wire.Node
import GeoReplication.Wire.Status

/-!
# Api/Nodes — nodes over the interface

Nodes are registered, listed, shown, changed and removed, and their state of replication is
reported.  A change reads the node, applies what was asked for and writes all of it back.
-/

namespace GeoReplication.Api

open GeoReplication.Http

/-- What answers requests: an installation with its settings. -/
structure Server where
  config : Config
  /-- the URL under which the installation is registered -/
  nodeUrl : String

namespace Server

/-- The node as this installation shows it. -/
def view (s : Server) (n : Node) : Json := (NodeView.of n s.nodeUrl).json

/-- The report on a node, as this installation sees it. -/
def report (s : Server) (n : Node) : Program NodeStatus :=
  StatusReport.compute (.localTo s.config s.nodeUrl) s.config.features n

/-- The node of an id. -/
def node (id : Int) : Handler Node := do
  Handler.orMissing "Node not found"
    (← Handler.during "Failed to get node" (Program.call (.getNode id)))

/-- The node that this installation is. -/
def currentNode (s : Server) : Handler Node := do
  Handler.orMissing "This installation is not registered as a Geo node"
    (← Handler.during "Failed to look up current node" (Program.call (.findNodeByUrl s.nodeUrl)))

/-- Refuses a node whose address cannot be one of an installation. -/
def checkAddress (a : Address) : Handler Unit :=
  if a.scheme ≠ "http" ∧ a.scheme ≠ "https" then throw ⟨400, "Schema must be http or https"⟩
  else if a.host.isEmpty || a.host.toList.any fun c => Text.isBlank c || c == '/' then
    throw ⟨400, "Host must be a bare host name"⟩
  else pure ()

/-- Registers a node. -/
def createNode (s : Server) (n : NewNode) : Handler Response := do
  checkAddress n.address
  let n ← Handler.during "Failed to create node" (Program.call (.createNode n))
  return success 201 (s.view n)

/-- Lists the nodes. -/
def listNodes (s : Server) : Handler Response := do
  let nodes : List Node ← Handler.during "Failed to list nodes" (Program.call .listNodes)
  return success 200 (.array (nodes.map s.view))

/-- Shows a node. -/
def showNode (s : Server) (id : Int) : Handler Response := do
  return success 200 (s.view (← node id))

/-- Changes a node. -/
def updateNode (s : Server) (id : Int) (u : NodeUpdate) : Handler Response := do
  let n ← node id
  Handler.during "Failed to update node" (Program.call (.updateNode (u.apply n)))
  return success 200 (s.view (← node id))

/-- Removes a node. -/
def deleteNode (id : Int) : Handler Response := do
  let deleted : Bool ← Handler.during "Failed to delete node" (Program.call (.deleteNode id))
  if deleted then return .bare 204 else throw (.missing "Node not found")

/-- Reports on a node. -/
def nodeStatus (s : Server) (id : Int) : Handler Response := do
  let n ← node id
  return success 200 (← liftM (s.report n)).json

/-- Reports on the node that this installation is, without an envelope. -/
def currentStatus (s : Server) : Handler Response := do
  let n ← s.currentNode
  return ⟨200, .json (← liftM (s.report n)).json⟩

end Server

end GeoReplication.Api
