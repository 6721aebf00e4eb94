import ServiceScaffold.Keyed
import ServiceScaffold.Number.Decimal
import ServiceScaffold.Schema.Roles

/-!
# Schemas

What a schema text declares: interfaces, type aliases and constants under their names, the roles of
its declarations, and the version of the protocol.
-/

namespace ServiceScaffold

/-- A property of an interface; its type is kept as source text. -/
structure Property where
  name : String
  type : String
  isOptional : Bool
  description : Option String
  deriving DecidableEq, Repr, Inhabited

/-- An exported interface. -/
structure Interface where
  name : String
  description : Option String
  parents : List String
  properties : List Property
  deriving DecidableEq, Repr, Inhabited

/-- An exported type alias; its type is kept as source text. -/
structure TypeAlias where
  name : String
  type : String
  description : Option String
  deriving DecidableEq, Repr, Inhabited

/-- The value of an exported constant. -/
inductive ConstantValue where
  | bool (b : Bool)
  | number (x : Binary64)
  | text (s : String)
  deriving DecidableEq, Repr, Inhabited

/-- The text of a constant's value. -/
def ConstantValue.show : ConstantValue → String
  | .bool b => if b then "true" else "false"
  | .number x => String.ofList (Number.plainText x)
  | .text s => s

/-- How many declarations of each kind and how many names of each role there are. -/
structure Summary where
  interfaces : Nat
  types : Nat
  constants : Nat
  resources : Nat
  tools : Nat
  prompts : Nat
  capabilities : Nat
  deriving DecidableEq, Repr, Inhabited

/-- What a schema text declares. -/
structure Schema where
  version : String
  interfaces : List (String × Interface)
  types : List (String × TypeAlias)
  constants : List (String × ConstantValue)
  roles : RoleLists
  summary : Summary
  deriving DecidableEq, Repr, Inhabited

namespace Schema

/-- The constant that holds the version of the protocol. -/
def versionConstant : String := "LATEST_PROTOCOL_VERSION"

/-- The version of a schema that does not declare one. -/
def unknownVersion : String := "unknown"

/-- A schema with the counts of its declarations. -/
def ofDeclarations (version : String) (interfaces : List (String × Interface))
    (types : List (String × TypeAlias)) (constants : List (String × ConstantValue))
    (roles : RoleLists) : Schema where
  version := version
  interfaces := interfaces
  types := types
  constants := constants
  roles := roles
  summary :=
    { interfaces := interfaces.length
      types := types.length
      constants := constants.length
      resources := roles.resources.length
      tools := roles.tools.length
      prompts := roles.prompts.length
      capabilities := roles.capabilities.length }

/-- The interface declared under a name. -/
def interface? (s : Schema) (name : String) : Option Interface := Keyed.lookup name s.interfaces

/-- The type alias declared under a name. -/
def alias? (s : Schema) (name : String) : Option TypeAlias := Keyed.lookup name s.types

/-- The name is declared as an interface or as a type alias. -/
def isDeclared (s : Schema) (name : String) : Bool :=
  (s.interface? name).isSome || (s.alias? name).isSome

/-- The description of a declaration: that of the interface, else that of the type alias. -/
def descriptionOf (s : Schema) (name : String) : Option String :=
  ((s.interface? name).bind (·.description)).orElse fun _ => (s.alias? name).bind (·.description)

end Schema

end ServiceScaffold
