import IdentityServerMongoDB.ConfigurationStore

namespace IdentityServerMongoDB

/-- A call that adds a document to a configuration store. -/
inductive Addition
  | addClient (entity : Entities.Client)
  | addIdentityResource (entity : Entities.IdentityResource)
  | addApiResource (entity : Entities.ApiResource)
  | addApiScope (entity : Entities.ApiScope)

/-- What a document of each collection is looked up by. -/
inductive Identifier
  | clientId (clientId : Option String)
  | identityResource (name : Option String)
  | apiResource (name : Option String)
  | apiScope (name : Option String)
  deriving DecidableEq

def Addition.identifier : Addition → Identifier
  | .addClient entity => .clientId entity.clientId
  | .addIdentityResource entity => .identityResource entity.name
  | .addApiResource entity => .apiResource entity.name
  | .addApiScope entity => .apiScope entity.name

def Addition.exec : Addition → ConfigurationDocs → Option ConfigurationDocs
  | .addClient entity => IdentityServerMongoDB.addClient entity
  | .addIdentityResource entity => IdentityServerMongoDB.addIdentityResource entity
  | .addApiResource entity => IdentityServerMongoDB.addApiResource entity
  | .addApiScope entity => IdentityServerMongoDB.addApiScope entity

def Addition.client? : Addition → Option Entities.Client
  | .addClient entity => some entity
  | _ => none

def Addition.identityResource? : Addition → Option Entities.IdentityResource
  | .addIdentityResource entity => some entity
  | _ => none

def Addition.apiResource? : Addition → Option Entities.ApiResource
  | .addApiResource entity => some entity
  | _ => none

def Addition.apiScope? : Addition → Option Entities.ApiScope
  | .addApiScope entity => some entity
  | _ => none

/-- The additions in the order in which they take effect. One that fails leaves the store as
it is. -/
def runAdditions : List Addition → ConfigurationDocs → ConfigurationDocs
  | [], store => store
  | addition :: additions, store =>
    runAdditions additions ((addition.exec store).getD store)

def ConfigurationDocs.identifiers (store : ConfigurationDocs) : List Identifier :=
  store.clients.map (fun x => .clientId x.clientId) ++
    (store.identityResources.map (fun x => .identityResource x.name) ++
      (store.apiResources.map (fun x => .apiResource x.name) ++
        store.apiScopes.map (fun x => .apiScope x.name)))

/-- Each client id is that of at most one client, and so each name in its collection. -/
structure ConfigurationDocs.Unique (store : ConfigurationDocs) : Prop where
  clients : KeysUnique Entities.Client.clientId store.clients
  identityResources : KeysUnique Entities.IdentityResource.name store.identityResources
  apiResources : KeysUnique Entities.ApiResource.name store.apiResources
  apiScopes : KeysUnique Entities.ApiScope.name store.apiScopes

/-- The same documents, in whatever order. -/
structure ConfigurationDocs.SameDocs (store store' : ConfigurationDocs) : Prop where
  clients : store.clients.Perm store'.clients
  identityResources : store.identityResources.Perm store'.identityResources
  apiResources : store.apiResources.Perm store'.apiResources
  apiScopes : store.apiScopes.Perm store'.apiScopes

/-- An addition is never refused, and goes to the collection of its kind. -/
theorem exec_eq (addition : Addition) (store : ConfigurationDocs) :
    addition.exec store = some
      { clients := store.clients ++ addition.client?.toList
        identityResources := store.identityResources ++ addition.identityResource?.toList
        apiResources := store.apiResources ++ addition.apiResource?.toList
        apiScopes := store.apiScopes ++ addition.apiScope?.toList } := by
  cases addition with
  | addClient entity =>
    simp [Addition.exec, addClient_eq, Addition.client?, Addition.identityResource?,
      Addition.apiResource?, Addition.apiScope?]
  | addIdentityResource entity =>
    simp [Addition.exec, addIdentityResource_eq, Addition.client?, Addition.identityResource?,
      Addition.apiResource?, Addition.apiScope?]
  | addApiResource entity =>
    simp [Addition.exec, addApiResource_eq, Addition.client?, Addition.identityResource?,
      Addition.apiResource?, Addition.apiScope?]
  | addApiScope entity =>
    simp [Addition.exec, addApiScope_eq, Addition.client?, Addition.identityResource?,
      Addition.apiResource?, Addition.apiScope?]

theorem nodup_identifiers_iff {store : ConfigurationDocs} :
    store.identifiers.Nodup ↔ store.Unique := by
  have hclients := nodup_map_comp (fun _ _ h => Identifier.clientId.inj h)
    Entities.Client.clientId store.clients
  have hidentity := nodup_map_comp (fun _ _ h => Identifier.identityResource.inj h)
    Entities.IdentityResource.name store.identityResources
  have hresources := nodup_map_comp (fun _ _ h => Identifier.apiResource.inj h)
    Entities.ApiResource.name store.apiResources
  have hscopes := nodup_map_comp (fun _ _ h => Identifier.apiScope.inj h)
    Entities.ApiScope.name store.apiScopes
  unfold ConfigurationDocs.identifiers
  constructor
  · intro h
    obtain ⟨h1, h, _⟩ := List.nodup_append.mp h
    obtain ⟨h2, h, _⟩ := List.nodup_append.mp h
    obtain ⟨h3, h4, _⟩ := List.nodup_append.mp h
    exact ⟨hclients.mp h1, hidentity.mp h2, hresources.mp h3, hscopes.mp h4⟩
  · intro h
    have h34 := List.nodup_append.mpr
      ⟨hresources.mpr h.apiResources, hscopes.mpr h.apiScopes, by simp⟩
    have h234 := List.nodup_append.mpr
      ⟨hidentity.mpr h.identityResources, h34, by simp [or_imp, forall_and]⟩
    exact List.nodup_append.mpr ⟨hclients.mpr h.clients, h234, by simp [or_imp, forall_and]⟩

/-- All an addition does to the identifiers is to add its own. -/
theorem identifiers_of_exec {addition : Addition} {store store' : ConfigurationDocs}
    (h : addition.exec store = some store') :
    store'.identifiers.Perm (addition.identifier :: store.identifiers) := by
  rw [exec_eq] at h
  cases Option.some.inj h
  apply List.perm_iff_count.mpr
  intro id
  simp only [ConfigurationDocs.identifiers, List.map_append, List.count_append, List.count_cons]
  have hown : addition.client?.toList.map (fun x => Identifier.clientId x.clientId) ++
      (addition.identityResource?.toList.map (fun x => Identifier.identityResource x.name) ++
        (addition.apiResource?.toList.map (fun x => Identifier.apiResource x.name) ++
          addition.apiScope?.toList.map (fun x => Identifier.apiScope x.name))) =
      [addition.identifier] := by
    cases addition <;> rfl
  have hcount := congrArg (List.count id) hown
  simp only [List.count_append, List.count_cons, List.count_nil] at hcount
  omega

theorem identifiers_of_run (additions : List Addition) (store : ConfigurationDocs) :
    (runAdditions additions store).identifiers.Perm
      (additions.map Addition.identifier ++ store.identifiers) := by
  induction additions generalizing store with
  | nil => exact List.Perm.refl _
  | cons addition additions ih =>
    have hstep := exec_eq addition store
    have htail := (identifiers_of_exec hstep).append_left (additions.map Addition.identifier)
    simp only [runAdditions, hstep, Option.getD_some, List.map_cons, List.cons_append]
    exact (ih _).trans (htail.trans List.perm_middle)

theorem unique_run_iff (additions : List Addition) :
    (runAdditions additions {}).Unique ↔ (additions.map Addition.identifier).Nodup := by
  rw [← nodup_identifiers_iff]
  have hperm := identifiers_of_run additions {}
  have hempty : ({} : ConfigurationDocs).identifiers = [] := rfl
  rw [hempty, List.append_nil] at hperm
  exact hperm.nodup_iff

theorem filterMap_cons_toList {α β : Type} (f : α → Option β) (x : α) (xs : List α) :
    (x :: xs).filterMap f = (f x).toList ++ xs.filterMap f := by
  cases h : f x with
  | none => simp [h]
  | some y => simp [h]

/-- Each collection ends up with what was added to it, in that order. -/
theorem runAdditions_eq (additions : List Addition) (store : ConfigurationDocs) :
    runAdditions additions store =
      { clients := store.clients ++ additions.filterMap Addition.client?
        identityResources :=
          store.identityResources ++ additions.filterMap Addition.identityResource?
        apiResources := store.apiResources ++ additions.filterMap Addition.apiResource?
        apiScopes := store.apiScopes ++ additions.filterMap Addition.apiScope? } := by
  induction additions generalizing store with
  | nil => simp [runAdditions]
  | cons addition additions ih =>
    rw [runAdditions, exec_eq, Option.getD_some, ih]
    simp only [filterMap_cons_toList, List.append_assoc]

theorem sameDocs_of_perm {additions additions' : List Addition}
    (h : additions.Perm additions') :
    (runAdditions additions {}).SameDocs (runAdditions additions' {}) := by
  rw [runAdditions_eq, runAdditions_eq]
  exact
    { clients := h.filterMap Addition.client?
      identityResources := h.filterMap Addition.identityResource?
      apiResources := h.filterMap Addition.apiResource?
      apiScopes := h.filterMap Addition.apiScope? }

end IdentityServerMongoDB
