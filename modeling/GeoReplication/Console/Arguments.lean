import GeoReplication.Text.Scan

/-!
# Console/Arguments — options of a command line

Options have a long name, perhaps a letter, and may want a value, which stands behind an equals sign
or is the next argument; the next argument is no value if it looks like an option itself.  Letters
may be grouped.  An option that is not repeatable is given once at most, and nothing but options is
accepted.
-/

namespace GeoReplication.Console

open GeoReplication.Text

/-- An option that a command knows. -/
structure OptionSpec where
  name : String
  letter : Option Char
  wantsValue : Bool
  repeatable : Bool
deriving DecidableEq, Repr

namespace OptionSpec

/-- An option with a value. -/
def value (name : String) : OptionSpec := ⟨name, none, true, false⟩

/-- An option without a value. -/
def flag (name : String) : OptionSpec := ⟨name, none, false, false⟩

end OptionSpec

/-- Options as given: their names and values, those of a flag empty. -/
abbrev Given := List (String × String)

/-- Options as far as one argument gives them; the last may still want its value. -/
abbrev Partial := Option (Given × Option OptionSpec)

/-- A long option. -/
def longOption? (specs : List OptionSpec) (body : List Char) : Partial :=
  let (name, value) := match splitOnce? ['='] body with
    | some (name, value) => (String.ofList name, some (String.ofList value))
    | none => (String.ofList body, none)
  match specs.find? (·.name == name), value with
  | none, _ => none
  | some spec, none => if spec.wantsValue then some ([], some spec) else some ([(name, "")], none)
  | some spec, some value => if spec.wantsValue then some ([(name, value)], none) else none

/-- A group of letters. -/
def letterOptions? (specs : List OptionSpec) : List Char → Partial
  | [] => some ([], none)
  | c :: cs =>
    match specs.find? (·.letter == some c) with
    | none => none
    | some spec =>
      if spec.wantsValue then
        match cs with
        | [] => some ([], some spec)
        | '=' :: value => some ([(spec.name, String.ofList value)], none)
        | value => some ([(spec.name, String.ofList value)], none)
      else (letterOptions? specs cs).map fun (given, wanting) => ((spec.name, "") :: given, wanting)

/-- The options in one argument. -/
def option? (specs : List OptionSpec) (arg : String) : Partial :=
  match arg.toList with
  | '-' :: '-' :: body => longOption? specs body
  | '-' :: c :: cs => letterOptions? specs (c :: cs)
  | _ => none

/-- The argument is an option rather than a value. -/
def looksLikeOption (arg : String) : Bool :=
  match arg.toList with
  | '-' :: _ :: _ => true
  | _ => false

/-- The options of all arguments. -/
def options? (specs : List OptionSpec) : List String → Option Given
  | [] => some []
  | ["--"] => some []
  | arg :: rest =>
    match option? specs arg, rest with
    | none, _ => none
    | some (given, none), rest => (options? specs rest).map (given ++ ·)
    | some (_, some _), [] => none
    | some (given, some spec), value :: rest =>
      if looksLikeOption value then none
      else (options? specs rest).map fun others => given ++ (spec.name, value) :: others

/-- The values given for an option, in order. -/
def Given.values (given : Given) (name : String) : List String :=
  (given.filter (·.1 == name)).map (·.2)

/-- Reads options; one that is not repeatable may not be repeated. -/
def given? (specs : List OptionSpec) (args : List String) : Option Given := do
  let given ← options? specs args
  if specs.all fun spec => spec.repeatable || (given.values spec.name).length ≤ 1 then some given
  else none

namespace Given

/-- The option is given. -/
def has (given : Given) (name : String) : Bool := !(given.values name).isEmpty

/-- The value of an option, if it is given. -/
def get? (given : Given) (name : String) : Option String := (given.values name).head?

/-- The value of an option, or `standard` if it is not given. -/
def getD (given : Given) (name standard : String) : String := (given.get? name).getD standard

end Given

end GeoReplication.Console
