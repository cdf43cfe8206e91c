import IdentityServerMongoDB.ConfigurationStore
import IdentityServerMongoDB.Selection

namespace IdentityServerMongoDB

deriving instance DecidableEq for Dictionary
deriving instance DecidableEq for Models.ApiResource
deriving instance DecidableEq for Models.ApiScope
deriving instance DecidableEq for Models.IdentityResource

/-- A finder gives of one section of the full listing what has a key among the names. So
neither their order nor a repetition matters, and two lists of names together give the
union of what they give apart. -/
structure AgreesWithListing {α : Type} [DecidableEq α]
    (find : List (Option String) → ConfigurationDocs → List α)
    (listed : Models.Resources → List α) (keys : α → List (Option String)) : Prop where
  agrees : ∀ (names : List String) (store : ConfigurationDocs),
    (find (names.map some) store : Multiset α) =
      select keys (names.map some) (listed (getAllResourcesAsync store))
  sameNames : ∀ (names names' : List String) (store : ConfigurationDocs),
    (∀ name, name ∈ names ↔ name ∈ names') →
    (find (names.map some) store : Multiset α) = find (names'.map some) store
  union : ∀ (names names' : List String) (store : ConfigurationDocs),
    (find ((names ++ names').map some) store : Multiset α) =
      (find (names.map some) store : Multiset α) ∪ find (names'.map some) store

theorem agreesWithListing_of_select {α : Type} [DecidableEq α]
    {find : List (Option String) → ConfigurationDocs → List α}
    {listed : Models.Resources → List α} {keys : α → List (Option String)}
    (h : ∀ names store, (find names store : Multiset α) =
      select keys names (listed (getAllResourcesAsync store))) :
    AgreesWithListing find listed keys where
  agrees := fun names store => h (names.map some) store
  sameNames := by
    intro names names' store hsame
    rw [h, h]
    apply select_congr
    intro name
    cases name with
    | none => simp
    | some name => simpa using hsame name
  union := by
    intro names names' store
    rw [h, h, h, List.map_append]
    exact select_append _ _ _

/-- By name an element has one key, and by scope as many as it has scopes. -/
theorem contains_name_iff {names : List (Option String)} {name : Option String} :
    names.contains name = true ↔ ∃ k ∈ [name], k ∈ names := by
  simp

theorem findIdentityResourcesByScopeNameAsync_eq (names : List (Option String))
    (store : ConfigurationDocs) :
    (findIdentityResourcesByScopeNameAsync names store : Multiset Models.IdentityResource) =
      select (fun x => [x.name]) names (getAllResourcesAsync store).identityResources := by
  apply select_map
  intro d
  exact contains_name_iff

theorem findApiScopesByNameAsync_eq (names : List (Option String)) (store : ConfigurationDocs) :
    (findApiScopesByNameAsync names store : Multiset Models.ApiScope) =
      select (fun x => [x.name]) names (getAllResourcesAsync store).apiScopes := by
  apply select_map
  intro d
  exact contains_name_iff

theorem findApiResourcesByNameAsync_eq (names : List (Option String))
    (store : ConfigurationDocs) :
    (findApiResourcesByNameAsync names store : Multiset Models.ApiResource) =
      select (fun x => [x.name]) names (getAllResourcesAsync store).apiResources := by
  apply select_map
  intro d
  exact contains_name_iff

theorem findApiResourcesByScopeNameAsync_eq (names : List (Option String))
    (store : ConfigurationDocs) :
    (findApiResourcesByScopeNameAsync names store : Multiset Models.ApiResource) =
      select (fun x => x.scopes) names (getAllResourcesAsync store).apiResources := by
  apply select_map
  intro d
  have hscopes : d.toModel.scopes = d.scopes.getD [] := by
    simp [Entities.ApiResource.toModel, mapCollection]
  rw [hscopes, List.any_eq_true]
  simp only [List.contains_iff_mem]

theorem resource_lookups_agree :
    AgreesWithListing findIdentityResourcesByScopeNameAsync
      Models.Resources.identityResources (fun x => [x.name]) ∧
    AgreesWithListing findApiScopesByNameAsync
      Models.Resources.apiScopes (fun x => [x.name]) ∧
    AgreesWithListing findApiResourcesByNameAsync
      Models.Resources.apiResources (fun x => [x.name]) ∧
    AgreesWithListing findApiResourcesByScopeNameAsync
      Models.Resources.apiResources (fun x => x.scopes) := by
  refine ⟨?_, ?_, ?_, ?_⟩
  · exact agreesWithListing_of_select findIdentityResourcesByScopeNameAsync_eq
  · exact agreesWithListing_of_select findApiScopesByNameAsync_eq
  · exact agreesWithListing_of_select findApiResourcesByNameAsync_eq
  · exact agreesWithListing_of_select findApiResourcesByScopeNameAsync_eq

end IdentityServerMongoDB
