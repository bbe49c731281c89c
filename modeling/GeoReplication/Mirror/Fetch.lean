import GeoReplication.Mirror.Basic
import GeoReplication.Url.Escaped

/-!
# Mirror/Fetch — what a fetch does to the copies on disc

A fetch makes the references of a copy those of the repository it comes from: new ones appear,
others move, and those that are gone go.  A copy that is not there yet is made first, which fails
where a plain file is in its way.
-/

namespace GeoReplication.Mirror

/-- Names of references and what they point at. -/
abbrev Refs := List (String × String)

/-- What lies at a path. -/
inductive Entry where
  | file
  | folder
  | repository (refs : Refs)
deriving DecidableEq, Repr

/-- What lies where, under the parts of its path. -/
abbrev Entries := List (List String × Entry)

namespace Entries

/-- What lies at a path. -/
def at? (es : Entries) (path : List String) : Option Entry := es.lookup path

/-- Something put at a path, in place of what lay there. -/
def put (es : Entries) (path : List String) (e : Entry) : Entries :=
  (path, e) :: es.filter fun (p, _) => p ≠ path

/-- A plain file lies on the way to a path. -/
def isBlocked (es : Entries) (path : List String) : Bool :=
  es.any fun (p, e) => e == .file && p ≠ path && p.isPrefixOf path

end Entries

/-- The references of the copy at a path. -/
def refsAt (es : Entries) (path : List String) : Refs :=
  match es.at? path with
  | some (.repository refs) => refs
  | _ => []

/-- The copies with one at a path, made if it is not there yet. -/
def prepareCopy (copies : Entries) (path : List String) : Except Error Entries :=
  if copies.isBlocked path then .error (.io "Not a directory (os error 20)")
  else
    match copies.at? path with
    | some .file => .error (.mirror "git init: File exists")
    | some (.repository _) => .ok copies
    | _ => .ok (copies.put path (.repository []))

/-- The scheme of URLs that name files of this machine. -/
def fileScheme : String := "file://"

/-- The places where a repository is looked for, given the path that names it: a folder of
repository data below it, itself, and the same with the usual ending. -/
def repositoryPlaces (path : List String) : List (List String) :=
  let ended := path.dropLast ++ (path.getLast?.toList.map (· ++ ".git"))
  [path ++ [".git"], path, ended ++ [".git"], ended]

/-- The repository that a path names, if there is one. -/
def repositoryBelow? (origin : Entries) (path : List String) : Option Refs :=
  (repositoryPlaces path).findSome? fun place =>
    match origin.at? place with
    | some (.repository refs) => some refs
    | _ => none

/-- The repository that a URL names, if there is one. -/
def repositoryAt? (origin : Entries) (url : String) : Option Refs := do
  let path ← Text.dropMark? fileScheme.toList url.toList
  let path ← Escaped.decode? path
  repositoryBelow? origin (Path.parts (String.ofList path))

/-- Fetches a part of a project from the primary at a URL, whose repositories are `origin`. -/
def fetch (storages : List (String × String)) (origin copies : Entries)
    (primaryUrl storage diskPath : String) (part : Part) : Except Error Unit × Entries :=
  match localPath storages storage diskPath part with
  | .error e => (.error e, copies)
  | .ok path =>
    let path := Path.parts path
    match prepareCopy copies path with
    | .error e => (.error e, copies)
    | .ok copies =>
      let url := remoteUrl primaryUrl diskPath part
      match repositoryAt? origin url with
      | none => (.error (.mirror ("git fetch " ++ url ++ ": not a repository")), copies)
      | some refs => (.ok (), copies.put path (.repository refs))

end GeoReplication.Mirror
