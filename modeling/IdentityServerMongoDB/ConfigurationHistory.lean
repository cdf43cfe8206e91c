import IdentityServerMongoDB.ConfigurationAdditions
import IdentityServerMongoDB.CorsPolicyService

namespace IdentityServerMongoDB

/-- What a caller adds to a configuration store, before it is mapped to a document. -/
inductive ConfigurationModel (lib : IdentityServerModels)
  | client (client : Models.Client lib)
  | identityResource (resource : Models.IdentityResource)
  | apiResource (resource : Models.ApiResource)
  | apiScope (scope : Models.ApiScope)

def ConfigurationModel.addition {lib : IdentityServerModels} : ConfigurationModel lib → Addition
  | .client c => .addClient c.toEntity
  | .identityResource r => .addIdentityResource r.toEntity
  | .apiResource r => .addApiResource r.toEntity
  | .apiScope s => .addApiScope s.toEntity

def ConfigurationModel.client? {lib : IdentityServerModels} :
    ConfigurationModel lib → Option (Models.Client lib)
  | .client c => some c
  | _ => none

def ConfigurationModel.identityResource? {lib : IdentityServerModels} :
    ConfigurationModel lib → Option Models.IdentityResource
  | .identityResource r => some r
  | _ => none

def ConfigurationModel.apiResource? {lib : IdentityServerModels} :
    ConfigurationModel lib → Option Models.ApiResource
  | .apiResource r => some r
  | _ => none

def ConfigurationModel.apiScope? {lib : IdentityServerModels} :
    ConfigurationModel lib → Option Models.ApiScope
  | .apiScope s => some s
  | _ => none

/-- What is kept of a resource that is mapped to a document and back. -/
def Models.ApiResource.stored (r : Models.ApiResource) : Models.ApiResource :=
  { r with showInDiscoveryDocument := true, allowedAccessTokenSigningAlgorithms := [] }

def Models.ApiScope.stored (s : Models.ApiScope) : Models.ApiScope :=
  { s with enabled := true, properties := Dictionary.empty }

/-- One of the client's origins is not null and equals the given one. -/
def Models.Client.allows {lib : IdentityServerModels} (toUpperInvariant : Char → Char)
    (origin : Option String) (client : Models.Client lib) : Bool :=
  client.allowedCorsOrigins.any
    (fun y => decide (y ≠ none) && ordinalIgnoreCase toUpperInvariant y origin)

/-- Every read answers from what was added: a client id with the first client of the id,
a list of names with what has one of them, in some order, an origin with whether any
client allows it. None of them throws. -/
structure ReadsHistory {lib : IdentityServerModels} (toUpperInvariant : Char → Char)
    (history : List (ConfigurationModel lib)) (store : ConfigurationDocs) : Prop where
  clients : ∀ clientId, findClientByIdAsync lib clientId store =
    .ok (((history.filterMap ConfigurationModel.client?).find?
      (fun c => c.clientId = clientId)).map Models.Client.stored)
  origins : ∀ origin, isOriginAllowedAsync toUpperInvariant origin store =
    .ok ((history.filterMap ConfigurationModel.client?).any
      (fun c => c.allows toUpperInvariant origin))
  identityResources : ∀ names, (findIdentityResourcesByScopeNameAsync names store).Perm
    ((history.filterMap ConfigurationModel.identityResource?).filter
      (fun r => names.contains r.name))
  apiScopes : ∀ names, (findApiScopesByNameAsync names store).Perm
    (((history.filterMap ConfigurationModel.apiScope?).filter
      (fun s => names.contains s.name)).map Models.ApiScope.stored)
  apiResources : ∀ names, (findApiResourcesByNameAsync names store).Perm
    (((history.filterMap ConfigurationModel.apiResource?).filter
      (fun r => names.contains r.name)).map Models.ApiResource.stored)
  apiResourcesByScope : ∀ names, (findApiResourcesByScopeNameAsync names store).Perm
    (((history.filterMap ConfigurationModel.apiResource?).filter
      (fun r => r.scopes.any (fun y => names.contains y))).map Models.ApiResource.stored)
  all : (getAllResourcesAsync store).Perm
    { identityResources := history.filterMap ConfigurationModel.identityResource?
      apiResources :=
        (history.filterMap ConfigurationModel.apiResource?).map Models.ApiResource.stored
      apiScopes := (history.filterMap ConfigurationModel.apiScope?).map Models.ApiScope.stored }

/-- Documents that were mapped from models, read by what a query sees of them. -/
theorem map_filter_map {α β γ : Type} {toEntity : α → β} {toModel : β → γ} {stored : α → γ}
    (round : ∀ a, toModel (toEntity a) = stored a) {p : β → Bool} {q : α → Bool}
    (h : ∀ a, p (toEntity a) = q a) (models : List α) :
    ((models.map toEntity).filter p).map toModel = (models.filter q).map stored := by
  rw [List.filter_map, List.map_map]
  have hround : toModel ∘ toEntity = stored := funext round
  have hquery : p ∘ toEntity = q := funext h
  rw [hround, hquery]

section History

variable {lib : IdentityServerModels}

/-- The documents of a history. -/
def historyDocs (history : List (ConfigurationModel lib)) : ConfigurationDocs where
  clients := (history.filterMap ConfigurationModel.client?).map Models.Client.toEntity
  identityResources :=
    (history.filterMap ConfigurationModel.identityResource?).map Models.IdentityResource.toEntity
  apiResources :=
    (history.filterMap ConfigurationModel.apiResource?).map Models.ApiResource.toEntity
  apiScopes := (history.filterMap ConfigurationModel.apiScope?).map Models.ApiScope.toEntity

/-- A history leaves the documents of its models, kind by kind. -/
theorem runAdditions_history (history : List (ConfigurationModel lib)) :
    runAdditions (history.map ConfigurationModel.addition) {} = historyDocs history := by
  unfold historyDocs
  rw [runAdditions_eq]
  simp only [List.filterMap_map, List.map_filterMap, List.nil_append]
  congr 1
  · apply List.filterMap_congr
    intro m _
    cases m <;> rfl
  · apply List.filterMap_congr
    intro m _
    cases m <;> rfl
  · apply List.filterMap_congr
    intro m _
    cases m <;> rfl
  · apply List.filterMap_congr
    intro m _
    cases m <;> rfl

theorem find?_toEntity (clients : List (Models.Client lib)) (clientId : Option String) :
    (clients.map Models.Client.toEntity).find? (fun x => x.clientId = clientId) =
      (clients.find? (fun c => c.clientId = clientId)).map Models.Client.toEntity := by
  rw [List.find?_map]
  rfl

/-- A document mapped from a client has a list of origins, if only an empty one. -/
theorem allows_toEntity {toUpperInvariant : Char → Char} {origin : Option String}
    (client : Models.Client lib) :
    client.toEntity.Allows toUpperInvariant origin ↔
      client.allows toUpperInvariant origin = true := by
  unfold Entities.Client.Allows Models.Client.allows
  rw [List.any_eq_true]
  constructor
  · rintro ⟨origins, hlist, y, hy, hnull, he⟩
    have hlist : client.allowedCorsOrigins.map Entities.ClientCorsOrigin.mk = origins :=
      Option.some.inj hlist
    rw [← hlist] at hy
    obtain ⟨o, ho, rfl⟩ := List.mem_map.mp hy
    exact ⟨o, ho, by simpa [he] using hnull⟩
  · rintro ⟨o, ho, hboth⟩
    have hboth : o ≠ none ∧ ordinalIgnoreCase toUpperInvariant o origin = true := by
      simpa using hboth
    exact ⟨_, rfl, ⟨o⟩, List.mem_map.mpr ⟨o, ho, rfl⟩, hboth.1, hboth.2⟩

theorem isOriginAllowedAsync_history (toUpperInvariant : Char → Char) (origin : Option String)
    (clients : List (Models.Client lib)) :
    isOriginAllowedAsync toUpperInvariant origin { clients := clients.map Models.Client.toEntity } =
      .ok (clients.any (fun c => c.allows toUpperInvariant origin)) := by
  induction clients with
  | nil => rfl
  | cons client clients ih =>
    rw [List.map_cons, List.any_cons]
    cases h : client.allows toUpperInvariant origin with
    | true => exact isOriginAllowedAsync_of_allows ((allows_toEntity client).mpr h)
    | false =>
      have hpassed : ¬client.toEntity.Allows toUpperInvariant origin := by
        rw [allows_toEntity, h]
        exact Bool.false_ne_true
      have hlist : client.toEntity.allowedCorsOrigins ≠ none := Option.some_ne_none _
      rw [isOriginAllowedAsync_of_passed hlist hpassed, ih]
      rfl

theorem readsHistory_docs (toUpperInvariant : Char → Char)
    (history : List (ConfigurationModel lib)) :
    ReadsHistory toUpperInvariant history (historyDocs history) := by
  refine ⟨?_, ?_, ?_, ?_, ?_, ?_, ?_⟩
  · intro clientId
    unfold findClientByIdAsync historyDocs
    rw [find?_toEntity]
    cases (history.filterMap ConfigurationModel.client?).find?
        (fun c => c.clientId = clientId) with
    | none => rfl
    | some client =>
      simp only [Option.map_some, toModel_toEntity_client]
      rfl
  · intro origin
    exact isOriginAllowedAsync_history toUpperInvariant origin _
  · intro names
    rw [← List.map_id' ((history.filterMap ConfigurationModel.identityResource?).filter _)]
    exact List.Perm.of_eq (map_filter_map toModel_toEntity_identityResource (fun _ => rfl) _)
  · intro names
    exact List.Perm.of_eq (map_filter_map toModel_toEntity_apiScope (fun _ => rfl) _)
  · intro names
    exact List.Perm.of_eq (map_filter_map toModel_toEntity_apiResource (fun _ => rfl) _)
  · intro names
    exact List.Perm.of_eq (map_filter_map toModel_toEntity_apiResource (fun _ => rfl) _)
  · have hidentity : Entities.IdentityResource.toModel ∘ Models.IdentityResource.toEntity = id :=
      funext toModel_toEntity_identityResource
    have hresources : Entities.ApiResource.toModel ∘ Models.ApiResource.toEntity =
        Models.ApiResource.stored := funext toModel_toEntity_apiResource
    have hscopes : Entities.ApiScope.toModel ∘ Models.ApiScope.toEntity = Models.ApiScope.stored :=
      funext toModel_toEntity_apiScope
    simp only [getAllResourcesAsync, historyDocs, List.map_map, hidentity, hresources, hscopes, List.map_id]
    exact Models.Resources.Perm.refl _

/-- A configuration store is its history of additions: every read of it can be
answered from the models that were added. -/
theorem configuration_reads_history (toUpperInvariant : Char → Char)
    (history : List (ConfigurationModel lib)) :
    ReadsHistory toUpperInvariant history
      (runAdditions (history.map ConfigurationModel.addition) {}) := by
  rw [runAdditions_history]
  exact readsHistory_docs toUpperInvariant history

end History

/-- What is read of a store to which more has been added, from what was read of it before
and what would be read of the additions alone. The listings are so in some order. -/
structure ReadsCompose (lib : IdentityServerModels) (toUpperInvariant : Char → Char)
    (store more store' : ConfigurationDocs) : Prop where
  clients : ∀ clientId, findClientByIdAsync lib clientId store' =
    match findClientByIdAsync lib clientId store with
    | .ok none => findClientByIdAsync lib clientId more
    | answer => answer
  origins : ∀ origin, isOriginAllowedAsync toUpperInvariant origin store' =
    match isOriginAllowedAsync toUpperInvariant origin store with
    | .ok false => isOriginAllowedAsync toUpperInvariant origin more
    | answer => answer
  identityResources : ∀ names, (findIdentityResourcesByScopeNameAsync names store').Perm
    (findIdentityResourcesByScopeNameAsync names store ++
      findIdentityResourcesByScopeNameAsync names more)
  apiScopes : ∀ names, (findApiScopesByNameAsync names store').Perm
    (findApiScopesByNameAsync names store ++ findApiScopesByNameAsync names more)
  apiResources : ∀ names, (findApiResourcesByNameAsync names store').Perm
    (findApiResourcesByNameAsync names store ++ findApiResourcesByNameAsync names more)
  apiResourcesByScope : ∀ names, (findApiResourcesByScopeNameAsync names store').Perm
    (findApiResourcesByScopeNameAsync names store ++ findApiResourcesByScopeNameAsync names more)
  all : (getAllResourcesAsync store').Perm
    ((getAllResourcesAsync store).append (getAllResourcesAsync more))

/-- The documents of two stores, those of the first before those of the second. -/
def ConfigurationDocs.append (store more : ConfigurationDocs) : ConfigurationDocs where
  clients := store.clients ++ more.clients
  identityResources := store.identityResources ++ more.identityResources
  apiResources := store.apiResources ++ more.apiResources
  apiScopes := store.apiScopes ++ more.apiScopes

theorem runAdditions_append (additions : List Addition) (store : ConfigurationDocs) :
    runAdditions additions store = store.append (runAdditions additions {}) := by
  rw [runAdditions_eq, runAdditions_eq additions {}]
  rfl

theorem findClientByIdAsync_append (lib : IdentityServerModels) (clientId : Option String)
    (store more : ConfigurationDocs) :
    findClientByIdAsync lib clientId (store.append more) =
      match findClientByIdAsync lib clientId store with
      | .ok none => findClientByIdAsync lib clientId more
      | answer => answer := by
  have hfind : (store.append more).clients.find? (fun x => x.clientId = clientId) =
      (store.clients.find? (fun x => x.clientId = clientId)).or
        (more.clients.find? (fun x => x.clientId = clientId)) := List.find?_append
  unfold findClientByIdAsync
  rw [hfind]
  cases store.clients.find? (fun x => x.clientId = clientId) with
  | none => rfl
  | some e =>
    simp only [Option.some_or]
    cases e.toModel lib with
    | error ex => rfl
    | ok c => rfl

theorem isOriginAllowedAsync_append {toUpperInvariant : Char → Char} {origin : Option String}
    (clients more : List Entities.Client) :
    isOriginAllowedAsync toUpperInvariant origin { clients := clients ++ more } =
      match isOriginAllowedAsync toUpperInvariant origin { clients := clients } with
      | .ok false => isOriginAllowedAsync toUpperInvariant origin { clients := more }
      | answer => answer := by
  induction clients with
  | nil => rfl
  | cons client clients ih =>
    rw [List.cons_append]
    by_cases hlist : client.allowedCorsOrigins = none
    · rw [isOriginAllowedAsync_of_missing hlist, isOriginAllowedAsync_of_missing hlist]
    · by_cases hallows : client.Allows toUpperInvariant origin
      · rw [isOriginAllowedAsync_of_allows hallows, isOriginAllowedAsync_of_allows hallows]
      · rw [isOriginAllowedAsync_of_passed hlist hallows, isOriginAllowedAsync_of_passed hlist hallows]
        exact ih

theorem map_filter_append {α β : Type} (p : α → Bool) (f : α → β) (xs ys : List α) :
    (((xs ++ ys).filter p).map f).Perm ((xs.filter p).map f ++ (ys.filter p).map f) := by
  rw [List.filter_append, List.map_append]

/-- Whatever a run of additions brings to a store, it is read besides what was there: a
client that is found stays as it is, an id that cannot be read cannot be read any more,
an origin that is allowed stays so, and where the service throws it goes on throwing. -/
theorem reads_compose_of_run (lib : IdentityServerModels) (toUpperInvariant : Char → Char)
    (additions : List Addition) (store : ConfigurationDocs) :
    ReadsCompose lib toUpperInvariant store (runAdditions additions {})
      (runAdditions additions store) := by
  rw [runAdditions_append additions store]
  refine ⟨?_, ?_, ?_, ?_, ?_, ?_, ?_⟩
  · exact fun clientId => findClientByIdAsync_append lib clientId _ _
  · exact fun origin => isOriginAllowedAsync_append _ _
  · exact fun names => map_filter_append _ _ _ _
  · exact fun names => map_filter_append _ _ _ _
  · exact fun names => map_filter_append _ _ _ _
  · exact fun names => map_filter_append _ _ _ _
  · simp only [getAllResourcesAsync, ConfigurationDocs.append, List.map_append]
    exact Models.Resources.Perm.refl _

end IdentityServerMongoDB
