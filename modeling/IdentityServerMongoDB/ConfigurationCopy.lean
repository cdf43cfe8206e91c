import IdentityServerMongoDB.ClientRoundTrip
import IdentityServerMongoDB.ConfigurationHistory
import Mathlib.Data.List.Forall2

namespace IdentityServerMongoDB

/-- All that a store holds, as models to be added to another one. -/
def ConfigurationDocs.models (lib : IdentityServerModels) (store : ConfigurationDocs) :
    Except Exception (List (ConfigurationModel lib)) := do
  let clients ← store.clients.mapM (fun client => client.toModel lib)
  let resources := getAllResourcesAsync store
  return clients.map .client ++ (resources.identityResources.map .identityResource ++
    (resources.apiResources.map .apiResource ++ resources.apiScopes.map .apiScope))

/-- Every read of the copy is that of the original, but that the copy also answers
where a missing list of origins makes the original throw. -/
structure CopiedReads (lib : IdentityServerModels) (toUpperInvariant : Char → Char)
    (store copy : ConfigurationDocs) : Prop where
  clients : ∀ clientId,
    findClientByIdAsync lib clientId copy = findClientByIdAsync lib clientId store
  origins : ∀ origin, ∃ isAllowed,
    isOriginAllowedAsync toUpperInvariant origin copy = .ok isAllowed ∧
      (isOriginAllowedAsync toUpperInvariant origin store = .ok isAllowed ∨
        isOriginAllowedAsync toUpperInvariant origin store = .error .nullReference)
  identityResources : ∀ names, findIdentityResourcesByScopeNameAsync names copy =
    findIdentityResourcesByScopeNameAsync names store
  apiScopes : ∀ names, findApiScopesByNameAsync names copy = findApiScopesByNameAsync names store
  apiResources : ∀ names,
    findApiResourcesByNameAsync names copy = findApiResourcesByNameAsync names store
  apiResourcesByScope : ∀ names,
    findApiResourcesByScopeNameAsync names copy = findApiResourcesByScopeNameAsync names store
  all : getAllResourcesAsync copy = getAllResourcesAsync store

section Copy

variable {lib : IdentityServerModels}

/-- The second document is read as the first is, and has its origins in a list. -/
structure Entities.Client.CopiedAs (lib : IdentityServerModels) (e d : Entities.Client) : Prop where
  clientId : d.clientId = e.clientId
  model : d.toModel lib = e.toModel lib
  origins : d.allowedCorsOrigins = some (e.allowedCorsOrigins.getD [])

theorem copiedAs_of_read {e : Entities.Client} {c : Models.Client lib}
    (h : e.toModel lib = .ok c) : e.CopiedAs lib c.toEntity := by
  have hmodel : c.toEntity.toModel lib = e.toModel lib := by
    rw [toModel_toEntity_client, stored_of_toModel h, h]
  obtain ⟨properties, types, rfl⟩ := toModelWith_of_toModel h
  refine ⟨rfl, hmodel, ?_⟩
  rw [toEntity_of_toModelWith]
  rfl

theorem copiedAs_of_reads {entities : List Entities.Client} {clients : List (Models.Client lib)}
    (h : entities.mapM (fun client => client.toModel lib) = .ok clients) :
    List.Forall₂ (Entities.Client.CopiedAs lib) entities (clients.map Models.Client.toEntity) := by
  induction entities generalizing clients with
  | nil =>
    cases Except.ok.inj h
    exact List.Forall₂.nil
  | cons e entities ih =>
    rw [List.mapM_cons] at h
    cases he : e.toModel lib with
    | error ex =>
      rw [he] at h
      cases h
    | ok c =>
      cases hrest : entities.mapM (fun client => client.toModel lib) with
      | error ex =>
        rw [he, hrest] at h
        cases h
      | ok rest =>
        rw [he, hrest] at h
        cases Except.ok.inj h
        exact List.Forall₂.cons (copiedAs_of_read he) (ih hrest)

theorem stored_toModel_identityResource (e : Entities.IdentityResource) :
    e.toModel.toEntity.toModel = e.toModel := toModel_toEntity_identityResource e.toModel

theorem stored_toModel_apiResource (e : Entities.ApiResource) :
    e.toModel.toEntity.toModel = e.toModel := toModel_toEntity_apiResource e.toModel

theorem stored_toModel_apiScope (e : Entities.ApiScope) :
    e.toModel.toEntity.toModel = e.toModel := toModel_toEntity_apiScope e.toModel

/-- The documents of the copy. -/
theorem runAdditions_models {store : ConfigurationDocs} {models : List (ConfigurationModel lib)}
    (h : store.models lib = .ok models) :
    ∃ clients, List.Forall₂ (Entities.Client.CopiedAs lib) store.clients clients ∧
      runAdditions (models.map ConfigurationModel.addition) {} =
        { clients := clients
          identityResources :=
            store.identityResources.map (fun e => e.toModel.toEntity)
          apiResources := store.apiResources.map (fun e => e.toModel.toEntity)
          apiScopes := store.apiScopes.map (fun e => e.toModel.toEntity) } := by
  unfold ConfigurationDocs.models at h
  cases hclients : store.clients.mapM (fun client => client.toModel lib) with
  | error ex =>
    rw [hclients] at h
    cases h
  | ok clients =>
    rw [hclients] at h
    cases Except.ok.inj h
    refine ⟨clients.map Models.Client.toEntity, copiedAs_of_reads hclients, ?_⟩
    rw [runAdditions_history]
    simp [historyDocs, getAllResourcesAsync, List.filterMap_append, List.filterMap_map, Function.comp_def,
      ConfigurationModel.client?, ConfigurationModel.identityResource?,
      ConfigurationModel.apiResource?, ConfigurationModel.apiScope?]

theorem findClientByIdAsync_copied (clientId : Option String) {store copy : ConfigurationDocs}
    (h : List.Forall₂ (Entities.Client.CopiedAs lib) store.clients copy.clients) :
    findClientByIdAsync lib clientId copy = findClientByIdAsync lib clientId store := by
  unfold findClientByIdAsync
  generalize store.clients = entities at h
  generalize copy.clients = copies at h
  induction h with
  | nil => rfl
  | @cons e d entities copies hed _ ih =>
    by_cases hid : e.clientId = clientId
    · have hd : d.clientId = clientId := hed.clientId.trans hid
      rw [List.find?_cons_of_pos (by simpa using hd), List.find?_cons_of_pos (by simpa using hid)]
      simp only [hed.model]
    · have hd : d.clientId ≠ clientId := by rwa [hed.clientId]
      rw [List.find?_cons_of_neg (by simpa using hd), List.find?_cons_of_neg (by simpa using hid)]
      exact ih

/-- Of a document that has its origins in a list, the copy has the same. -/
theorem allows_copied {toUpperInvariant : Char → Char} {origin : Option String}
    {e d : Entities.Client} (h : e.CopiedAs lib d) (hlist : e.allowedCorsOrigins ≠ none) :
    d.Allows toUpperInvariant origin ↔ e.Allows toUpperInvariant origin := by
  obtain ⟨origins, hsome⟩ := Option.ne_none_iff_exists'.mp hlist
  unfold Entities.Client.Allows
  rw [h.origins, hsome]
  rfl

theorem isOriginAllowedAsync_copied {toUpperInvariant : Char → Char} {origin : Option String}
    {entities copies : List Entities.Client}
    (h : List.Forall₂ (Entities.Client.CopiedAs lib) entities copies) :
    ∃ isAllowed, isOriginAllowedAsync toUpperInvariant origin { clients := copies } = .ok isAllowed ∧
      (isOriginAllowedAsync toUpperInvariant origin { clients := entities } = .ok isAllowed ∨
        isOriginAllowedAsync toUpperInvariant origin { clients := entities } =
          .error .nullReference) := by
  induction h with
  | nil => exact ⟨false, rfl, Or.inl rfl⟩
  | @cons e d entities copies hed _ ih =>
    have hlist : d.allowedCorsOrigins ≠ none := by
      rw [hed.origins]
      exact Option.some_ne_none _
    obtain ⟨isAllowed, hcopy, horiginal⟩ := ih
    by_cases horigins : e.allowedCorsOrigins = none
    · have hempty : ¬d.Allows toUpperInvariant origin := by
        rintro ⟨origins, hsome, y, hy, _⟩
        rw [hed.origins, horigins] at hsome
        cases Option.some.inj hsome
        cases hy
      rw [isOriginAllowedAsync_of_passed hlist hempty, isOriginAllowedAsync_of_missing horigins]
      exact ⟨isAllowed, hcopy, Or.inr rfl⟩
    · have hiff := @allows_copied lib toUpperInvariant origin e d hed horigins
      by_cases hallows : e.Allows toUpperInvariant origin
      · rw [isOriginAllowedAsync_of_allows (hiff.mpr hallows), isOriginAllowedAsync_of_allows hallows]
        exact ⟨true, rfl, Or.inl rfl⟩
      · rw [isOriginAllowedAsync_of_passed hlist (fun h => hallows (hiff.mp h)),
          isOriginAllowedAsync_of_passed horigins hallows]
        exact ⟨isAllowed, hcopy, horiginal⟩

/-- A store copied through its models is read as the original is. -/
theorem copy_reads_same {store : ConfigurationDocs} {models : List (ConfigurationModel lib)}
    (h : store.models lib = .ok models) (toUpperInvariant : Char → Char) :
    CopiedReads lib toUpperInvariant store
      (runAdditions (models.map ConfigurationModel.addition) {}) := by
  obtain ⟨clients, hclients, hcopy⟩ := runAdditions_models h
  rw [hcopy]
  refine ⟨?_, ?_, ?_, ?_, ?_, ?_, ?_⟩
  · intro clientId
    exact findClientByIdAsync_copied clientId hclients
  · intro origin
    exact isOriginAllowedAsync_copied hclients
  · intro names
    exact map_filter_map stored_toModel_identityResource (fun _ => rfl) _
  · intro names
    exact map_filter_map stored_toModel_apiScope (fun _ => rfl) _
  · intro names
    exact map_filter_map stored_toModel_apiResource (fun _ => rfl) _
  · intro names
    apply map_filter_map stored_toModel_apiResource
    intro e
    simp [Models.ApiResource.toEntity, Entities.ApiResource.toModel, mapCollection]
  · have hidentity : (fun e : Entities.IdentityResource => e.toModel.toEntity.toModel) =
        Entities.IdentityResource.toModel := funext stored_toModel_identityResource
    have hresources : (fun e : Entities.ApiResource => e.toModel.toEntity.toModel) =
        Entities.ApiResource.toModel := funext stored_toModel_apiResource
    have hscopes : (fun e : Entities.ApiScope => e.toModel.toEntity.toModel) =
        Entities.ApiScope.toModel := funext stored_toModel_apiScope
    simp only [getAllResourcesAsync, List.map_map, Function.comp_def, hidentity, hresources, hscopes]

end Copy

/-- A client without lists, one with a repeated redirect, a claim with an id and
a scope without a description. -/
def exampleStore : ConfigurationDocs where
  clients := [{ clientId := some "machine" }, exampleEntity]
  identityResources := [{ name := some "openid", userClaims := some [⟨⟨7, some "sub"⟩⟩] }]
  apiResources := [{ name := some "api1", scopes := some [some "api1.read", none] }]
  apiScopes := [{ name := some "api1.read" }]

theorem copy_reads_same_example :
    ∃ models, exampleStore.models exampleModels = .ok models ∧
      CopiedReads exampleModels Char.toUpper exampleStore
        (runAdditions (models.map ConfigurationModel.addition) {}) := by
  cases h : exampleStore.models exampleModels with
  | error ex => cases h
  | ok models => exact ⟨models, rfl, copy_reads_same h Char.toUpper⟩

end IdentityServerMongoDB
