import IdentityServerMongoDB.ConfigurationStore

namespace IdentityServerMongoDB

/-- Added to the store, the resource is the one of its name that is read, by its
name and among all resources. -/
def IdentityResourceSurvives (r : Models.IdentityResource) (store : ConfigurationDocs) : Prop :=
  ∃ store', addIdentityResource r.toEntity store = some store' ∧
    (∀ names, r.name ∈ names →
      (findIdentityResourcesByScopeNameAsync names store').filter (fun x => x.name = r.name) =
        [r]) ∧
    (getAllResourcesAsync store').identityResources.filter (fun x => x.name = r.name) = [r]

theorem identityResources_after_add {r : Models.IdentityResource}
    {store store' : ConfigurationDocs} (absent : ∀ d ∈ store.identityResources, d.name ≠ r.name)
    (h : addIdentityResource r.toEntity store = some store') {p : Entities.IdentityResource → Bool}
    (hp : p r.toEntity = true) :
    ((store'.identityResources.filter p).map Entities.IdentityResource.toModel).filter
      (fun m => m.name = r.name) = [r] := by
  rw [addIdentityResource_eq] at h
  cases Option.some.inj h
  have hone : (((store.identityResources ++ [r.toEntity]).filter p).map
      Entities.IdentityResource.toModel).filter (fun m => m.name = r.name) =
      [r.toEntity.toModel] :=
    filter_key_of_absent (f := Entities.IdentityResource.toModel) (fun _ => rfl) absent hp
  rw [toModel_toEntity_identityResource] at hone
  exact hone

theorem identityResource_survives {r : Models.IdentityResource} {store : ConfigurationDocs}
    (absent : ∀ d ∈ store.identityResources, d.name ≠ r.name) :
    IdentityResourceSurvives r store := by
  refine ⟨_, addIdentityResource_eq .., ?_, ?_⟩
  · intro names hmem
    apply identityResources_after_add absent (addIdentityResource_eq ..)
    simpa [Models.IdentityResource.toEntity] using hmem
  · have hone := identityResources_after_add absent (addIdentityResource_eq ..)
      (p := fun _ => true) rfl
    rw [List.filter_true] at hone
    exact hone

theorem identityResource_survives_custom :
    IdentityResourceSurvives
      { name := some "custom", displayName := some "Custom", required := true, enabled := false
        userClaims := [some "role", some "location", some "role"]
        properties := ⟨[("key", some "value"), ("other", none)], by decide⟩ }
      { identityResources := [{ name := some "openid" }] } :=
  identityResource_survives (by simp)

end IdentityServerMongoDB
