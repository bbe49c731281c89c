import GeoReplication.Text.Decimal

/-!
# Url/Address — where an installation is reached

An address is a scheme, a host, a port and the path below which the installation lives.
`Address.url` prints it with a slash at the end and leaves out a port that is the scheme's own;
`Address.parse?` reads a URL.  `Address.lookupKey` is the form in which URLs are compared when an
installation looks for itself.
-/

namespace GeoReplication

open GeoReplication.Text

/-- Where an installation is reached. -/
structure Address where
  scheme : String
  host : String
  port : UInt16
  /-- path below which the installation lives -/
  root : String
deriving DecidableEq, Repr, Inhabited

namespace Address

/-- The largest port. -/
def maxPort : Nat := 65535

/-- The port goes without saying for the scheme. -/
def hasDefaultPort (a : Address) : Bool :=
  (a.scheme == "http" && a.port == 80) || (a.scheme == "https" && a.port == 443)

/-- The root without slashes around it. -/
def trimmedRoot (a : Address) : String := String.ofList (trimSlashes a.root.toList)

/-- The address with the root trimmed, as it is stored. -/
def trimmed (a : Address) : Address := { a with root := a.trimmedRoot }

/-- Host and port, the port only where it has to be said. -/
def authority (a : Address) : String :=
  if a.hasDefaultPort then a.host else a.host ++ ":" ++ decimal a.port.toNat

/-- The URL, always ending in a slash. -/
def url (a : Address) : String :=
  if a.trimmedRoot = "" then a.scheme ++ "://" ++ a.authority ++ "/"
  else a.scheme ++ "://" ++ a.authority ++ "/" ++ a.trimmedRoot ++ "/"

/-- Reads a port. -/
def port? (cs : List Char) : Option UInt16 := (unsigned? maxPort cs).map .ofNat

/-- Host and port of an authority; a missing port is the scheme's own. -/
def parseAuthority? (scheme authority : List Char) : Option (List Char × UInt16) :=
  match splitLast? ':' authority with
  | some (host, port) => (port? port).map fun port => (host, port)
  | none => some (authority, if scheme = ['h', 't', 't', 'p', 's'] then 443 else 80)

/-- Reads `scheme://host[:port][/root]`; the host must not be empty. -/
def parse? (text : String) : Option Address :=
  match splitOnce? [':', '/', '/'] text.toList with
  | none => none
  | some (scheme, rest) =>
    let (authority, path) := (splitOnce? ['/'] rest).getD (rest, [])
    match parseAuthority? scheme authority with
    | none => none
    | some (host, port) =>
      if host.isEmpty then none
      else some ⟨String.ofList scheme, String.ofList host, port, String.ofList (trimSlashes path)⟩

/-- URLs are compared without blanks around them, without regard to case, with a slash at the end.
-/
def lookupKey (url : String) : List Char :=
  let cs := lower (trimBlanks url.toList)
  if cs.getLast? = some '/' then cs else cs ++ ['/']

/-- URLs name the same place when they agree without slashes at the end and without regard to case.
-/
def sameUrl (a b : String) : Bool :=
  lower (trimEnd (· == '/') a.toList) == lower (trimEnd (· == '/') b.toList)

end Address

end GeoReplication
