/-!
# Roles of declarations

A declaration may be a resource, a tool, a prompt or a capability of the protocol, in any
combination.  `RoleLists` keeps the names of each role without repetition, in the order in which
they were added, and `RoleLists.classify` adds the names that follow a naming convention.
-/

namespace ServiceScaffold

/-- A role in the protocol. -/
inductive Role where
  | resource
  | tool
  | prompt
  | capability
  deriving DecidableEq, Repr, Inhabited

namespace Role

/-- The roles, in the order in which they are listed everywhere. -/
def all : List Role := [.resource, .tool, .prompt, .capability]

/-- The documentation tag that marks a declaration with the role. -/
def tag : Role → String
  | .resource => "resource"
  | .tool => "tool"
  | .prompt => "prompt"
  | .capability => "capability"

/-- The role that a documentation tag marks. -/
def ofTag? (tag : String) : Option Role := all.find? (·.tag == tag)

/-- `part` occurs in `cs`. -/
def occurs (part : List Char) : List Char → Bool
  | [] => part.isEmpty
  | c :: cs => part.isPrefixOf (c :: cs) || occurs part cs

/-- The naming convention of the role: an ending, or for capabilities a part of the name. -/
def matchesName (role : Role) (name : String) : Bool :=
  match role with
  | .resource => "Resource".toList.isSuffixOf name.toList
  | .tool => "Tool".toList.isSuffixOf name.toList
  | .prompt => "Prompt".toList.isSuffixOf name.toList
  | .capability => occurs "Capabilit".toList name.toList

end Role

/-- The names that have been given each role. -/
structure RoleLists where
  resources : List String := []
  tools : List String := []
  prompts : List String := []
  capabilities : List String := []
  deriving DecidableEq, Repr, Inhabited

namespace RoleLists

/-- The names with a role. -/
def list (t : RoleLists) : Role → List String
  | .resource => t.resources
  | .tool => t.tools
  | .prompt => t.prompts
  | .capability => t.capabilities

/-- Replaces the names with a role. -/
def setList (t : RoleLists) (role : Role) (names : List String) : RoleLists :=
  match role with
  | .resource => { t with resources := names }
  | .tool => { t with tools := names }
  | .prompt => { t with prompts := names }
  | .capability => { t with capabilities := names }

/-- The name has the role. -/
def contains (t : RoleLists) (role : Role) (name : String) : Bool := (t.list role).contains name

/-- Gives a name a role; a name that has it already stays where it is. -/
def insert (t : RoleLists) (role : Role) (name : String) : RoleLists :=
  if t.contains role name then t else t.setList role (t.list role ++ [name])

/-- The roles of a name, in the order of roles. -/
def rolesOf (t : RoleLists) (name : String) : List Role := Role.all.filter (t.contains · name)

/-- The names of all roles, role after role. -/
def allNames (t : RoleLists) : List String := Role.all.flatMap t.list

/-- Gives a name every role in a list. -/
def insertAll (t : RoleLists) (roles : List Role) (name : String) : RoleLists :=
  roles.foldl (fun t role => t.insert role name) t

/-- Gives each name the roles whose naming convention it follows. -/
def classify (t : RoleLists) (names : List String) : RoleLists :=
  names.foldl (fun t name => t.insertAll (Role.all.filter (·.matchesName name)) name) t

end RoleLists

end ServiceScaffold
