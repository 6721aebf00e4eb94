import Mathlib.Data.List.Nodup
import ServiceScaffold.Proofs.Naming
import ServiceScaffold.Service.Lowering

/-!
# Routes of a service

The operations of a resource have a route of its collection or one of its items.  As plurals end in
an `s`, no collection is an item (`Resource.IsRouted.route_ne`), and so the requests of a
service are told apart by method and route if and only if its route segments differ
(`nodup_requests_iff`).
-/

namespace ServiceScaffold

/-- The segment of a resource is the plural of its name, and its operations follow from both. -/
structure Resource.IsRouted (r : Resource) : Prop where
  segment : r.pluralPath = Naming.routeSegment r.name
  nonempty : r.pluralPath ≠ ""
  operations : r.operations = Operation.allOf r.name r.pluralPath

theorem Resource.isRouted_ofName {schema : Schema} {name : String} {r : Resource}
    (h : Resource.ofName schema name = .ok r) : r.IsRouted ∧ r.name = name := by
  simp only [Resource.ofName] at h
  split_ifs at h with hdecl hempty
  obtain rfl := Except.ok.inj h
  exact ⟨⟨rfl, by simpa [String.isEmpty_iff] using hempty, rfl⟩, rfl⟩

/-- The resources of names are those of each name, in order. -/
theorem Resource.ofName_of_ofNames {schema : Schema} {names : List String} {rs : List Resource}
    (h : Resource.ofNames schema names = .ok rs) :
    (∀ r ∈ rs, Resource.ofName schema r.name = .ok r) ∧ rs.map Resource.name = names := by
  induction names generalizing rs with
  | nil =>
    obtain rfl := Except.ok.inj h
    exact ⟨by simp, rfl⟩
  | cons name names ih =>
    rw [Resource.ofNames] at h
    rcases hr : Resource.ofName schema name with p | r
    · simp [hr] at h
    rcases hrs : Resource.ofNames schema names with p | rest
    · simp [hr, hrs, Except.map] at h
    obtain rfl : r :: rest = rs := by simpa [hr, hrs, Except.map] using h
    obtain ⟨hothers, hnames⟩ := ih hrs
    obtain ⟨-, hname⟩ := Resource.isRouted_ofName hr
    refine ⟨List.forall_mem_cons.2 ⟨by rw [hname, hr], hothers⟩, ?_⟩
    rw [List.map_cons, hname, hnames]

theorem Resource.isRouted_ofNames {schema : Schema} {names : List String} {rs : List Resource}
    (h : Resource.ofNames schema names = .ok rs) :
    (∀ r ∈ rs, r.IsRouted) ∧ rs.map Resource.name = names := by
  obtain ⟨hrs, hnames⟩ := Resource.ofName_of_ofNames h
  exact ⟨fun r hr => (Resource.isRouted_ofName (hrs r hr)).1, hnames⟩

/-- The resources of a service are those of the names with that role, in order. -/
theorem Service.isRouted_ofSchema {name : String} {schema : Schema} {service : Service}
    (h : Service.ofSchema name schema = .ok service) :
    (∀ r ∈ service.resources, r.IsRouted) ∧
      service.resources.map Resource.name = schema.roles.resources := by
  unfold Service.ofSchema at h
  split at h
  · simp at h
  · rename_i rs hrs
    obtain rfl := Except.ok.inj h
    exact Resource.isRouted_ofNames hrs

/-! ### Collections and items -/

namespace OperationKind

theorem toList_route (kind : OperationKind) (segment : String) :
    (kind.route segment).toList =
      '/' :: (segment.toList ++ if kind.onItem then "/:id".toList else []) := by
  unfold route
  split <;> simp [String.toList_append]

theorem route_injective {k k' : OperationKind} (hk : k.onItem = k'.onItem) {p q : String}
    (h : k.route p = k'.route q) : p = q := by
  have hlist := congrArg String.toList h
  rw [toList_route, toList_route, hk] at hlist
  exact String.toList_inj.1 (List.append_cancel_right (List.cons.inj hlist).2)

end OperationKind

namespace Resource.IsRouted

variable {r r' : Resource}

theorem mem_operations (h : r.IsRouted) {o : Operation} :
    o ∈ r.operations ↔ ∃ kind : OperationKind, o = kind.operation r.name r.pluralPath := by
  rw [h.operations, Operation.allOf, List.mem_map]
  refine ⟨fun ⟨kind, _, ho⟩ => ⟨kind, ho.symm⟩, fun ⟨kind, ho⟩ => ⟨kind, ?_, ho.symm⟩⟩
  cases kind <;> decide

/-- The collection of a resource is no item of any resource: it ends in an `s`. -/
theorem route_ne (h : r.IsRouted) {k k' : OperationKind} (hk : k.onItem = false)
    (hk' : k'.onItem = true) (segment : String) : k.route r.pluralPath ≠ k'.route segment := by
  intro heq
  obtain ⟨stem, hstem⟩ := Naming.plural_ends (h.segment ▸ h.nonempty)
  have hlast := congrArg (fun s : String => s.toList.getLast?) heq
  simp only [OperationKind.toList_route, hk, hk', h.segment, Naming.routeSegment, hstem] at hlast
  simp [List.getLast?_cons, List.getLast?_append] at hlast

theorem route_ne_of_onItem (h : r.IsRouted) (h' : r'.IsRouted) {k k' : OperationKind}
    (hk : k.onItem ≠ k'.onItem) : k.route r.pluralPath ≠ k'.route r'.pluralPath := by
  cases hitem : k.onItem with
  | false => exact h.route_ne hitem (by simpa [hitem] using hk) _
  | true => exact (h'.route_ne (by simpa [hitem] using hk) hitem _).symm

end Resource.IsRouted

/-! ### Requests -/

/-- What a request for an operation is told by. -/
def Operation.request (o : Operation) : HttpMethod × String := (o.method, o.route)

/-- The requests of a service, resource after resource. -/
def Service.requests (service : Service) : List (HttpMethod × String) :=
  service.resources.flatMap fun r => r.operations.map Operation.request

namespace Resource.IsRouted

variable {r r' : Resource}

theorem nodup_requests (h : r.IsRouted) : (r.operations.map Operation.request).Nodup := by
  have hne : OperationKind.list.route r.pluralPath ≠ OperationKind.get.route r.pluralPath :=
    h.route_ne rfl rfl r.pluralPath
  rw [h.operations]
  simp [Operation.allOf, OperationKind.all, Operation.request, OperationKind.operation,
    OperationKind.method, hne.symm]

/-- Two resources have a request in common if and only if they have one segment. -/
theorem disjoint_requests_iff (h : r.IsRouted) (h' : r'.IsRouted) :
    List.Disjoint (r.operations.map Operation.request) (r'.operations.map Operation.request) ↔
      r.pluralPath ≠ r'.pluralPath := by
  constructor
  · intro hdisj hpath
    -- with one segment, both have the request for an item
    refine hdisj (a := (.get, OperationKind.get.route r.pluralPath)) ?_ ?_
    · exact List.mem_map.2 ⟨_, h.mem_operations.2 ⟨.get, rfl⟩, rfl⟩
    · exact List.mem_map.2 ⟨_, h'.mem_operations.2 ⟨.get, rfl⟩, by rw [hpath]; rfl⟩
  · intro hpath request hmem hmem'
    obtain ⟨o, ho, rfl⟩ := List.mem_map.1 hmem
    obtain ⟨o', ho', heq⟩ := List.mem_map.1 hmem'
    obtain ⟨k, rfl⟩ := h.mem_operations.1 ho
    obtain ⟨k', rfl⟩ := h'.mem_operations.1 ho'
    have hroute : k'.route r'.pluralPath = k.route r.pluralPath := congrArg Prod.snd heq
    -- both kinds are about an item or both about the collection, or the routes differ
    by_cases hitem : k.onItem = k'.onItem
    · exact hpath (OperationKind.route_injective hitem.symm hroute).symm
    · exact h.route_ne_of_onItem h' hitem hroute.symm

end Resource.IsRouted

/-- **Requests are told apart if and only if the segments differ.** -/
theorem Service.nodup_requests_iff {service : Service} (h : ∀ r ∈ service.resources, r.IsRouted) :
    service.requests.Nodup ↔ (service.resources.map Resource.pluralPath).Nodup := by
  rw [Service.requests, List.nodup_flatMap, List.nodup_iff_pairwise_ne, List.pairwise_map]
  constructor
  · rintro ⟨-, hpair⟩
    exact hpair.imp_of_mem fun hr hr' hdisj =>
      ((h _ hr).disjoint_requests_iff (h _ hr')).1 hdisj
  · intro hpair
    exact ⟨fun r hr => (h r hr).nodup_requests, hpair.imp_of_mem fun hr hr' hne =>
      ((h _ hr).disjoint_requests_iff (h _ hr')).2 hne⟩

end ServiceScaffold
