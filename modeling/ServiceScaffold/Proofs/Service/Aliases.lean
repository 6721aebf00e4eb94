import ServiceScaffold.Proofs.Lint.RouteCollisions
import ServiceScaffold.Proofs.Naming.Camel
import ServiceScaffold.Proofs.Results
import ServiceScaffold.Schema.Extraction

/-!
# Aliases of resources

A generated server binds the module of every resource to the camel case of its name, while the lint
compares route segments, which come from kebab case.

* `Service.aliases_unambiguous_iff` : **for a service without lint errors**, the aliases differ if
  and only if no two resources have one camel case and two kebab cases; two resources whose names
  are cut at hyphens never do;
* `Service.aliases_clash` : the lint does not see two names that camel case cuts at other places.
-/

namespace ServiceScaffold

open Naming (camel kebab isCutAtHyphens)

/-- The aliases to which a server binds the modules of its resources. -/
def Service.aliases (service : Service) : List String :=
  service.resources.map fun r => camel r.name

/-- **The aliases of a service without lint errors.**  They differ if and only if no two resources
with one alias have different kebab cases; and a resource whose name is cut at hyphens shares its
alias with no other such resource. -/
theorem Service.aliases_unambiguous_iff {name : String} {schema : Schema} {service : Service}
    (h : Service.ofSchema name schema = .ok service)
    (hlint : Lint.hasErrors (Lint.issues schema service) = false) :
    (service.aliases.Nodup ↔ ∀ r ∈ service.resources, ∀ r' ∈ service.resources,
      camel r.name = camel r'.name → kebab r.name = kebab r'.name) ∧
    ∀ r ∈ service.resources, ∀ r' ∈ service.resources,
      isCutAtHyphens r.name.toList = true → isCutAtHyphens r'.name.toList = true →
      camel r.name = camel r'.name → r = r' := by
  obtain ⟨hrouted, -⟩ := Service.isRouted_ofSchema h
  obtain ⟨hnodup, hsegment⟩ := Lint.resources_of_hasErrors hlint
  have hkebab : ∀ r ∈ service.resources, ∀ r' ∈ service.resources,
      kebab r.name = kebab r'.name → r = r' := by
    intro r hr r' hr' heq
    refine hsegment r hr r' hr' ?_
    rw [(hrouted r hr).segment, (hrouted r' hr').segment, Naming.routeSegment, heq]
    rfl
  refine ⟨?_, fun r hr r' hr' hcut hcut' halias => ?_⟩
  · rw [aliases, List.nodup_map_iff_inj_on hnodup]
    constructor
    · intro hinj r hr r' hr' halias
      rw [hinj r hr r' hr' halias]
    · intro hsame r hr r' hr' halias
      exact hkebab r hr r' hr' (hsame r hr r' hr' halias)
  · exact hkebab r hr r' hr' (Naming.kebab_eq_of_camel_eq hcut hcut' halias)

/-- Names that are cut at hyphens, two of them with the same letters. -/
def threeCalendars : Schema :=
  Schema.ofDeclarations "1" [] [("Calendar", ⟨"Calendar", "1", none⟩),
    ("CalendarEvent", ⟨"CalendarEvent", "1", none⟩),
    ("Calendarevent", ⟨"Calendarevent", "1", none⟩)] []
    { resources := ["Calendar", "CalendarEvent", "Calendarevent"] }

theorem Service.aliases_unambiguous_threeCalendars : ∃ service,
    Service.ofSchema "calendar" threeCalendars = .ok service ∧
    Lint.hasErrors (Lint.issues threeCalendars service) = false ∧
    (∀ r ∈ service.resources, isCutAtHyphens r.name.toList = true) ∧ service.aliases.Nodup := by
  have hkernel : (Service.ofSchema "calendar" threeCalendars).toOption.any (fun service =>
      !Lint.hasErrors (Lint.issues threeCalendars service) &&
        service.resources.all fun r => isCutAtHyphens r.name.toList) = true := by
    decide +kernel
  obtain ⟨service, h, hpassed⟩ := exists_ok_of_any hkernel
  simp only [Bool.and_eq_true, Bool.not_eq_true', List.all_eq_true] at hpassed
  obtain ⟨hlint, hcut⟩ := hpassed
  obtain ⟨hiff, hunique⟩ := Service.aliases_unambiguous_iff h hlint
  refine ⟨service, h, hlint, hcut, hiff.2 fun r hr r' hr' halias => ?_⟩
  rw [hunique r hr r' hr' (hcut r hr) (hcut r' hr') halias]

/-- Two names of one alias, which kebab case cuts in two ways. -/
def twoServers : String :=
  "/** @resource */ export type HTTPServer = 1; /** @resource */ export type HttpServer = 1;"

/-- The lint does not see two resources of one alias. -/
theorem Service.aliases_clash : ∃ x service,
    Schema.ofSource twoServers "schema.ts" = .ok x ∧
    Service.ofSchema "web" x.schema = .ok service ∧
    Lint.hasErrors (Lint.issues x.schema service) = false ∧
    service.aliases = ["httpServer", "httpServer"] := by
  have hkernel : (Schema.ofSource twoServers "schema.ts").toOption.any (fun x =>
      (Service.ofSchema "web" x.schema).toOption.any fun service =>
        !Lint.hasErrors (Lint.issues x.schema service) &&
          service.aliases == ["httpServer", "httpServer"]) = true := by
    have hletters : twoServers.toList = _ := String.toList_ofList
    rw [Schema.ofSource, hletters]
    decide +kernel
  obtain ⟨x, hx, hmapped⟩ := exists_ok_of_any hkernel
  obtain ⟨service, hservice, hclash⟩ := exists_ok_of_any hmapped
  exact ⟨x, service, hx, hservice, by simpa using hclash⟩

end ServiceScaffold
