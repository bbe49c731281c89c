import GeoReplication.Model.Node
import GeoReplication.Wire.Field

/-!
# Wire/Node — nodes as records

The record of a node holds its address as four fields of its own.  `NodeView` is a node as the
interface shows it: with its URL, and whether it is the one that answers.
-/

namespace GeoReplication

open GeoReplication.Json GeoReplication.Wire GeoReplication.Time

namespace NodeRole

/-- A role as a record holds it. -/
def json (r : NodeRole) : Json := .string r.word

/-- Reads a role. -/
def decode : Decoder NodeRole := Doc.asWord ofWord?

end NodeRole

namespace Node

/-- The fields of the record. -/
def members (n : Node) : List (String × Json) :=
  [("id", .int n.id), ("schema", .string n.address.scheme), ("host", .string n.address.host),
    ("port", .nat n.address.port.toNat), ("relative_url_root", .string n.address.root),
    ("role", n.role.json), ("enabled", .bool n.enabled),
    ("namespace_ids", .array (n.namespaceIds.map .int)),
    ("repos_max_capacity", .nat n.reposMaxCapacity.toNat),
    ("files_max_capacity", .nat n.filesMaxCapacity.toNat),
    ("created_at", time n.createdAt), ("updated_at", time n.updatedAt)]

/-- The record. -/
def json (n : Node) : Json := .object n.members

/-- The fields in order, the two times read by `readTime`. -/
def recordWith (readTime : String → RecordReader Instant) : RecordReader Node :=
  (fun id scheme host port root => Node.mk id ⟨scheme, host, port, root⟩) <$> .field "id" Doc.asId
    <*> .field "schema" Doc.asString <*> .field "host" Doc.asString
    <*> .field "port" asPort <*> .field "relative_url_root" Doc.asString
    <*> .field "role" NodeRole.decode <*> .field "enabled" Doc.asBool
    <*> .field "namespace_ids" (Doc.asList Doc.asId)
    <*> .field "repos_max_capacity" asCapacity <*> .field "files_max_capacity" asCapacity
    <*> readTime "created_at" <*> readTime "updated_at"

/-- The fields in order. -/
def record : RecordReader Node := recordWith fun name => .field name Doc.asInstant

end Node

namespace NewNode

/-- The record. -/
def json (n : NewNode) : Json :=
  .object [("schema", .string n.address.scheme), ("host", .string n.address.host),
    ("port", .nat n.address.port.toNat), ("relative_url_root", .string n.address.root),
    ("role", n.role.json), ("enabled", .bool n.enabled),
    ("namespace_ids", .array (n.namespaceIds.map .int)),
    ("repos_max_capacity", .nat n.reposMaxCapacity.toNat),
    ("files_max_capacity", .nat n.filesMaxCapacity.toNat)]

/-- The fields in order; all but host, port and role may be missing. -/
def record : RecordReader NewNode :=
  (fun scheme host port root => NewNode.mk ⟨scheme, host, port, root⟩)
    <$> .fieldOr "schema" Doc.asString "http" <*> .field "host" Doc.asString
    <*> .field "port" asPort <*> .fieldOr "relative_url_root" Doc.asString ""
    <*> .field "role" NodeRole.decode <*> .fieldOr "enabled" Doc.asBool true
    <*> .fieldOr "namespace_ids" (Doc.asList Doc.asId) []
    <*> .fieldOr "repos_max_capacity" asCapacity defaultReposCapacity
    <*> .fieldOr "files_max_capacity" asCapacity defaultFilesCapacity

end NewNode

namespace NodeUpdate

/-- The fields in order; any of them may be missing. -/
def record : RecordReader NodeUpdate :=
  NodeUpdate.mk <$> .optionalFieldOr "enabled" Doc.asBool
    <*> .optionalFieldOr "role" NodeRole.decode
    <*> .optionalFieldOr "namespace_ids" (Doc.asList Doc.asId)
    <*> .optionalFieldOr "repos_max_capacity" asCapacity
    <*> .optionalFieldOr "files_max_capacity" asCapacity

end NodeUpdate

/-- A node as the interface shows it. -/
structure NodeView where
  node : Node
  url : String
  /-- it is the node that answers -/
  current : Bool

namespace NodeView

/-- A node as the installation at `currentUrl` shows it. -/
def of (n : Node) (currentUrl : String) : NodeView :=
  ⟨n, n.url, Address.sameUrl n.url currentUrl⟩

/-- The record: the fields of the node and two more. -/
def json (v : NodeView) : Json :=
  .object (v.node.members ++ [("url", .string v.url), ("current", .bool v.current)])

end NodeView

end GeoReplication
