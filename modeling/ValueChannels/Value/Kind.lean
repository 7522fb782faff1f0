/-!
The kinds of values and of environments, with the names they go by.
-/

namespace ValueChannels

/-- Which environment a frame is. All but the local ones belong to one context each, and are
known to every other context by this name only. -/
inductive EnvironmentKind where
  | empty
  | base
  | baseNamespace
  | global
  | packageEnv (name : String)
  | namespaceEnv (name : String)
  | localEnv
  deriving DecidableEq, Inhabited

def EnvironmentKind.isLocal : EnvironmentKind → Bool
  | .localEnv => true
  | _ => false

def EnvironmentKind.display : EnvironmentKind → String
  | .empty => "<environment: R_EmptyEnv>"
  | .base => "<environment: base>"
  | .baseNamespace => "<environment: namespace:base>"
  | .global => "<environment: R_GlobalEnv>"
  | .packageEnv name => "<environment: package:" ++ name ++ ">"
  | .namespaceEnv name => "<environment: namespace:" ++ name ++ ">"
  | .localEnv => "<environment>"

inductive ValueKind where
  | null
  | unbound
  | logical
  | integer
  | double
  | character
  | list
  | environment
  | promise
  | closure
  | language
  | connection
  deriving DecidableEq, Inhabited

def ValueKind.name : ValueKind → String
  | .null => "NULL"
  | .unbound => "unbound"
  | .logical => "logical"
  | .integer => "integer"
  | .double => "double"
  | .character => "character"
  | .list => "list"
  | .environment => "environment"
  | .promise => "promise"
  | .closure => "closure"
  | .language => "language"
  | .connection => "connection"

def ValueKind.all : List ValueKind :=
  [.null, .unbound, .logical, .integer, .double, .character, .list, .environment, .promise,
    .closure, .language, .connection]

def ValueKind.ofName? (name : String) : Option ValueKind :=
  ValueKind.all.find? fun kind => kind.name == name

/-- Whether values of the kind cannot be taken apart and travel in encoded form. -/
def ValueKind.needsEncoding : ValueKind → Bool
  | .closure | .environment | .connection | .language => true
  | _ => false

end ValueChannels
