import Mathlib.Data.List.Perm.Basic
import ServiceScaffold.Lint
import ServiceScaffold.Proofs.Project.Definitions
import ServiceScaffold.Proofs.Results
import ServiceScaffold.Proofs.Service.DeclaredTypes

/-!
# Names of defined types

The type definitions of a service hold its types and, for each resource, the messages of its
operations.  All of them share one name space.  The messages of all resources have different names,
so that a name stands twice only if the schema declares it as an interface and as an alias, or
declares a type with the name of a message.

* `messageName_inj` : the name of a message tells the operation, the resource and the part in it;
* `Service.definedNames` : the names in the type definitions;
* `Service.nodup_typeNames_iff`, `Service.nodup_messageNames` : when the types of a service have
  different names, and that the messages have;
* `Service.definedNames_unambiguous_iff` : **exactly when all of them are different**;
* `Service.definedNames_clash` : the lint does not see that they are not.
-/

namespace ServiceScaffold

open Syntax

/-! ### Names of messages -/

theorem OperationKind.eq_of_head?_verb {k k' : OperationKind}
    (h : k.verb.toList.head? = k'.verb.toList.head?) : k = k' := by
  cases k <;> cases k' <;> first | rfl | exact absurd h (by decide)

/-- The parts that messages have in their operations. -/
def messageRoles : List String := ["Request", "Result"]

/-- **The name of a message** tells the operation, the resource and the part in it. -/
theorem messageName_inj {k k' : OperationKind} {a b role role' : String}
    (hrole : role ∈ messageRoles) (hrole' : role' ∈ messageRoles)
    (h : messageName k.verb a role = messageName k'.verb b role') :
    k = k' ∧ a = b ∧ role = role' := by
  have hhead (k : OperationKind) (resource role : String) :
      (messageName k.verb resource role).head? = k.verb.toList.head? := by
    cases k <;> rfl
  obtain rfl : k = k' := by
    refine OperationKind.eq_of_head?_verb ?_
    rw [← hhead k a role, h, hhead]
  have htail : a.toList ++ role.toList = b.toList ++ role'.toList := List.append_cancel_left h
  -- the last letters tell the part
  have hlast := congrArg List.reverse htail
  obtain rfl : role = role' := by
    simp only [messageRoles, List.mem_cons, List.not_mem_nil, or_false] at hrole hrole'
    obtain rfl | rfl := hrole <;> obtain rfl | rfl := hrole' <;> first | rfl | simp at hlast
  exact ⟨rfl, String.toList_inj.1 (List.append_cancel_right htail), rfl⟩

/-- The names of the messages for a resource: a request for each operation, and the results that
are no resources. -/
def messageNamesOf (resource : String) : List String :=
  OperationKind.all.map (·.inputType resource) ++
    [OperationKind.list, OperationKind.delete].map (·.outputType resource)

namespace Resource

/-- The operations of the messages, with the parts that these have in them. -/
def messageKinds : List (OperationKind × String) :=
  [(.get, "Request"), (.list, "Request"), (.list, "Result"), (.create, "Request"),
    (.update, "Request"), (.delete, "Request"), (.delete, "Result")]

theorem mem_messageKinds {m : OperationKind × String} (h : m ∈ messageKinds) :
    m.2 ∈ messageRoles := by
  revert m
  decide

/-- The names of the messages of a resource. -/
def messageNames (r : Resource) : List String := r.messages.map fun m => String.ofList m.1

theorem messageNames_eq (r : Resource) : r.messageNames =
    messageKinds.map fun m => String.ofList (messageName m.1.verb r.name m.2) := rfl

theorem perm_messageNames (r : Resource) : r.messageNames.Perm (messageNamesOf r.name) := by
  have hrequest (k : OperationKind) :
      String.ofList (messageName k.verb r.name "Request") = k.inputType r.name := by
    simp [messageName, OperationKind.inputType, String.ext_iff]
  have hresult {k : OperationKind} (hk : k ∈ [OperationKind.list, .delete]) :
      String.ofList (messageName k.verb r.name "Result") = k.outputType r.name := by
    obtain rfl | rfl : k = .list ∨ k = .delete := by simpa using hk
    all_goals simp [messageName, OperationKind.verb, OperationKind.outputType, String.ext_iff]
  simp only [messageNames_eq, messageKinds, List.map_cons, List.map_nil, hrequest,
    hresult (k := .list) (by decide), hresult (k := .delete) (by decide)]
  -- the result of a list comes before the other requests
  refine .cons _ (.cons _ ?_)
  exact (@List.perm_middle _ _ [_, _, _] _).symm

theorem nodup_messageNames (r : Resource) : r.messageNames.Nodup := by
  have hkinds : messageKinds.Nodup := by decide
  rw [messageNames_eq]
  refine hkinds.map_on fun m hm m' hm' heq => ?_
  obtain ⟨hkind, -, hrole⟩ := messageName_inj (mem_messageKinds hm) (mem_messageKinds hm')
    (String.ofList_injective heq)
  exact Prod.ext hkind hrole

theorem disjoint_messageNames {r r' : Resource} (h : r.name ≠ r'.name) :
    List.Disjoint r.messageNames r'.messageNames := by
  intro n hn hn'
  rw [messageNames_eq] at hn hn'
  obtain ⟨m, hm, rfl⟩ := List.mem_map.1 hn
  obtain ⟨m', hm', heq⟩ := List.mem_map.1 hn'
  obtain ⟨-, hname, -⟩ := messageName_inj (mem_messageKinds hm) (mem_messageKinds hm')
    (String.ofList_injective heq.symm)
  exact h hname

end Resource

/-! ### Names of declarations -/

/-- The name that is declared. -/
def Syntax.DeclarationText.name : DeclarationText → List Char
  | typeAlias x _ => x
  | interface x _ => x

theorem DeclaredType.name_lines (t : DeclaredType) : t.lines.declaration.name = t.name.toList := by
  rw [DeclaredType.lines]
  split_ifs <;> rfl

namespace Service

/-- The names in the type definitions of a service, in order. -/
def definedNames (s : Service) : List String :=
  s.definitionLines.map fun e => String.ofList e.declaration.name

theorem definedNames_eq (s : Service) :
    s.definedNames = s.types.map DeclaredType.name ++ s.messageNames := by
  rw [definedNames, definitionLines, List.map_append, List.map_map, List.map_flatMap]
  refine congrArg₂ _ (List.map_congr_left fun t _ => ?_) rfl
  rw [Function.comp_apply, DeclaredType.name_lines, String.ofList_toList]

variable {name source path : String} {x : Extraction} {schema : Schema} {service : Service}

theorem mem_typeNames_iff (hschema : schema.WellFormed) (h : ofSchema name schema = .ok service)
    {n : String} : n ∈ service.types.map DeclaredType.name ↔ schema.isDeclared n = true := by
  rw [← List.count_pos_iff, count_typeNames hschema h]
  split_ifs with hn
  · simpa using Schema.isDeclared_iff.2 (@hschema.declared .resource n hn)
  · rw [Schema.isDeclared]
    cases (schema.interface? n).isSome <;> cases (schema.alias? n).isSome <;> decide

/-- The types of a service have different names, unless a name that is no resource is declared
twice. -/
theorem nodup_typeNames_iff (hschema : schema.WellFormed) (h : ofSchema name schema = .ok service) :
    (service.types.map DeclaredType.name).Nodup ↔
      ∀ n ∈ Keyed.keys schema.interfaces, n ∈ Keyed.keys schema.types →
        n ∈ schema.roles.resources := by
  rw [List.nodup_iff_count_le_one]
  refine forall_congr' fun n => ?_
  rw [count_typeNames hschema h, ← Keyed.lookup_isSome, ← Keyed.lookup_isSome]
  change _ ↔ ((schema.interface? n).isSome = true → (schema.alias? n).isSome = true → _)
  split_ifs with hn
  · simp [hn]
  · simp only [hn]
    cases (schema.interface? n).isSome <;> cases (schema.alias? n).isSome <;> decide

/-- The messages of a service have different names. -/
theorem nodup_messageNames (hnodup : (service.resources.map Resource.name).Nodup) :
    service.messageNames.Nodup := by
  refine List.nodup_flatMap.2 ⟨fun r _ => r.nodup_messageNames, ?_⟩
  rw [List.nodup_iff_pairwise_ne, List.pairwise_map] at hnodup
  exact hnodup.imp fun hne => Resource.disjoint_messageNames hne

theorem perm_messageNames (h : ofSchema name schema = .ok service) :
    service.messageNames.Perm (schema.roles.resources.flatMap messageNamesOf) := by
  rw [← (isRouted_ofSchema h).2, List.flatMap_map]
  exact List.Perm.flatMap_left _ fun r _ => r.perm_messageNames

/-- **The names in the type definitions of a service** are those of its types and, for each
resource, of the five requests and the two results.  They are different if and only if no name but
that of a resource is declared both as an interface and as an alias, and no type that is declared
has the name of a message: whatever the lint reports, it does not look at either.  This holds for the
schema of every tree. -/
theorem definedNames_unambiguous_iff (hx : schema.IsOfTree)
    (h : ofSchema name schema = .ok service) :
    service.definedNames.Perm (service.types.map DeclaredType.name ++
      schema.roles.resources.flatMap messageNamesOf) ∧
    (service.definedNames.Nodup ↔
      (∀ n ∈ Keyed.keys schema.interfaces, n ∈ Keyed.keys schema.types →
        n ∈ schema.roles.resources) ∧
      ∀ resource ∈ schema.roles.resources, ∀ n ∈ messageNamesOf resource,
        schema.isDeclared n = false) := by
  have hschema := hx.wellFormed
  have hmessages : service.messageNames.Nodup := by
    refine nodup_messageNames ?_
    rw [(isRouted_ofSchema h).2]
    exact hschema.distinct .resource
  have hperm := perm_messageNames h
  rw [definedNames_eq]
  refine ⟨hperm.append_left _, ?_⟩
  rw [List.nodup_append, nodup_typeNames_iff hschema h]
  simp only [hmessages, true_and]
  refine and_congr_right fun _ => ⟨fun hne resource hresource n hn => ?_, ?_⟩
  · rw [← Bool.not_eq_true, ← mem_typeNames_iff hschema h]
    have hmessage := hperm.mem_iff.2 (List.mem_flatMap.2 ⟨resource, hresource, hn⟩)
    exact fun htype => hne n htype n hmessage rfl
  · rintro hfree n htype m hmessage rfl
    obtain ⟨resource, hresource, hn⟩ := List.mem_flatMap.1 (hperm.mem_iff.1 hmessage)
    rw [mem_typeNames_iff hschema h, hfree resource hresource n hn] at htype
    cases htype

/-- A resource that is an interface and an alias, beside a name that is close to a request. -/
def requestedNote : String :=
  "/** @resource */ export interface Note \x7b\x7d export type Note = 1; " ++
    "export type NoteRequest = 1;"

theorem definedNames_unambiguous_requestedNote : ∃ x service,
    Schema.ofSource requestedNote "note.ts" = .ok x ∧ ofSchema "notes" x.schema = .ok service ∧
    "Note" ∈ Keyed.keys x.schema.interfaces ∧ "Note" ∈ Keyed.keys x.schema.types ∧
    service.definedNames.Nodup := by
  have hkernel : (Schema.ofSource requestedNote "note.ts").toOption.any (fun x : Extraction =>
      (ofSchema "notes" x.schema).toOption.isSome &&
        decide ("Note" ∈ Keyed.keys x.schema.interfaces ∧ "Note" ∈ Keyed.keys x.schema.types) &&
        decide (∀ n ∈ Keyed.keys x.schema.interfaces, n ∈ Keyed.keys x.schema.types →
          n ∈ x.schema.roles.resources) &&
        decide (∀ resource ∈ x.schema.roles.resources, ∀ n ∈ messageNamesOf resource,
          x.schema.isDeclared n = false)) = true := by
    have hletters : requestedNote.toList = _ :=
      String.toList_append.trans (congrArg₂ _ String.toList_ofList String.toList_ofList)
    rw [Schema.ofSource, hletters]
    decide +kernel
  obtain ⟨x, hx, hpassed⟩ := exists_ok_of_any hkernel
  simp only [Bool.and_eq_true, decide_eq_true_eq] at hpassed
  obtain ⟨⟨⟨hmapped, hinterface, halias⟩, hdeclared⟩, hmessages⟩ := hpassed
  obtain ⟨service, hservice⟩ := exists_ok_of_isSome hmapped
  exact ⟨x, service, hx, hservice, hinterface, halias,
    (definedNames_unambiguous_iff (Schema.isOfTree_of_ofSource hx) hservice).2.2 ⟨hdeclared, hmessages⟩⟩

/-- A resource, and an interface with the name of one of its requests. -/
def requestedTwice : String :=
  "/** @resource */ export interface Note \x7b id: string; \x7d " ++
    "export interface GetNoteRequest \x7b verbose: boolean; \x7d"

/-- The lint does not see two types of one name. -/
theorem definedNames_clash : ∃ x service,
    Schema.ofSource requestedTwice "schema.ts" = .ok x ∧
    ofSchema "schema" x.schema = .ok service ∧
    Lint.hasErrors (Lint.issues x.schema service) = false ∧
    ¬service.definedNames.Nodup := by
  have hkernel : (Schema.ofSource requestedTwice "schema.ts").toOption.any (fun x =>
      (ofSchema "schema" x.schema).toOption.any fun service =>
        !Lint.hasErrors (Lint.issues x.schema service) &&
          !decide service.definedNames.Nodup) = true := by
    have hletters : requestedTwice.toList = _ :=
      String.toList_append.trans (congrArg₂ _ String.toList_ofList String.toList_ofList)
    rw [Schema.ofSource, hletters]
    decide +kernel
  obtain ⟨x, hx, hmapped⟩ := exists_ok_of_any hkernel
  obtain ⟨service, hservice, hclash⟩ := exists_ok_of_any hmapped
  exact ⟨x, service, hx, hservice, by simpa using hclash⟩

end Service

end ServiceScaffold
