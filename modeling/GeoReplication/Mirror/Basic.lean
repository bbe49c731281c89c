import GeoReplication.Config
import GeoReplication.Model.Project

/-!
# Mirror/Basic — where copies lie and come from

A copy lies on the storage of its project, at the disk path with the suffix of the part; it comes
from the same path below the URL of the primary.  Only storages whose folder is there can take
copies.
-/

namespace GeoReplication.Mirror

/-- The path of a copy; the storage has to be one of those known. -/
def localPath (storages : List (String × String)) (storage diskPath : String) (part : Part) :
    Except Error String :=
  match storages.lookup storage with
  | none => .error (.mirror ("unknown repository storage: " ++ storage))
  | some root => .ok (Path.join root (diskPath ++ part.pathSuffix))

/-- Where a copy comes from. -/
def remoteUrl (primaryUrl diskPath : String) (part : Part) : String :=
  String.ofList (Text.trimEnd (· == '/') primaryUrl.toList) ++ "/" ++ diskPath ++ part.pathSuffix

/-- The storages whose folder is there, in their order. -/
def healthyStorages (isFolder : String → Bool) (storages : List (String × String)) : List String :=
  (storages.filter fun (_, path) => isFolder path).map Prod.fst

end GeoReplication.Mirror
