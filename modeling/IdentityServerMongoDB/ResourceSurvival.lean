import IdentityServerMongoDB.ConfigurationStore

namespace IdentityServerMongoDB

/-- Equal in every scalar, and with the same elements in every collection. -/
structure Models.ApiScope.Same (a b : Models.ApiScope) : Prop where
  scalars : { a with userClaims := b.userClaims, properties := b.properties } = b
  userClaims : a.userClaims.Perm b.userClaims
  properties : a.properties.entries.Perm b.properties.entries

structure Models.ApiResource.Same (a b : Models.ApiResource) : Prop where
  scalars : { a with
    userClaims := b.userClaims
    properties := b.properties
    apiSecrets := b.apiSecrets
    scopes := b.scopes
    allowedAccessTokenSigningAlgorithms := b.allowedAccessTokenSigningAlgorithms } = b
  userClaims : a.userClaims.Perm b.userClaims
  properties : a.properties.entries.Perm b.properties.entries
  apiSecrets : a.apiSecrets.Perm b.apiSecrets
  scopes : a.scopes.Perm b.scopes
  allowedAccessTokenSigningAlgorithms :
    a.allowedAccessTokenSigningAlgorithms.Perm b.allowedAccessTokenSigningAlgorithms

/-- Added to the store, the scope is among those read by its name and among all resources. -/
def ApiScopeSurvives (s : Models.ApiScope) (store : ConfigurationDocs) : Prop :=
  ∃ store', addApiScope s.toEntity store = some store' ∧
    (∀ names, s.name ∈ names → ∃ m ∈ findApiScopesByNameAsync names store', m.Same s) ∧
    ∃ m ∈ (getAllResourcesAsync store').apiScopes, m.Same s

/-- Added to the store, the resource is the one of its name that is read by that
name, and by any of its scopes. -/
def ApiResourceSurvives (r : Models.ApiResource) (store : ConfigurationDocs) : Prop :=
  ∃ store', addApiResource r.toEntity store = some store' ∧
    (∀ names, r.name ∈ names → ∃ m,
      (findApiResourcesByNameAsync names store').filter (fun x => x.name = r.name) = [m] ∧
        m.Same r) ∧
    ∀ names scope, scope ∈ r.scopes → scope ∈ names → ∃ m,
      (findApiResourcesByScopeNameAsync names store').filter (fun x => x.name = r.name) = [m] ∧
        m.Same r

theorem apiScope_same_iff {s : Models.ApiScope} :
    s.toEntity.toModel.Same s ↔ s.enabled = true ∧ s.properties.entries = [] := by
  rw [toModel_toEntity_apiScope]
  constructor
  · intro h
    refine ⟨?_, ?_⟩
    · exact (congrArg Models.ApiScope.enabled h.scalars).symm
    · exact h.properties.symm.eq_nil
  · rintro ⟨henabled, hproperties⟩
    refine ⟨?_, List.Perm.refl _, ?_⟩
    · rw [← henabled]
    · rw [hproperties]
      exact List.Perm.refl _

theorem apiResource_same_iff {r : Models.ApiResource} :
    r.toEntity.toModel.Same r ↔
      r.showInDiscoveryDocument = true ∧ r.allowedAccessTokenSigningAlgorithms = [] := by
  rw [toModel_toEntity_apiResource]
  constructor
  · intro h
    refine ⟨?_, ?_⟩
    · exact (congrArg Models.ApiResource.showInDiscoveryDocument h.scalars).symm
    · exact h.allowedAccessTokenSigningAlgorithms.symm.eq_nil
  · rintro ⟨hshow, halgorithms⟩
    refine ⟨?_, List.Perm.refl _, List.Perm.refl _, List.Perm.refl _, List.Perm.refl _, ?_⟩
    · rw [← hshow]
    · rw [halgorithms]

section AfterAdd

variable {store store' : ConfigurationDocs}

/-- Only the scope that was added has its name, by whichever way it is read. -/
theorem apiScopes_after_add {s : Models.ApiScope} (absent : ∀ d ∈ store.apiScopes, d.name ≠ s.name)
    (h : addApiScope s.toEntity store = some store') {p : Entities.ApiScope → Bool}
    (hp : p s.toEntity = true) :
    ((store'.apiScopes.filter p).map Entities.ApiScope.toModel).filter (fun m => m.name = s.name) =
      [s.toEntity.toModel] := by
  rw [addApiScope_eq] at h
  cases Option.some.inj h
  exact filter_key_of_absent (f := Entities.ApiScope.toModel) (fun _ => rfl) absent hp

theorem apiResources_after_add {r : Models.ApiResource}
    (absent : ∀ d ∈ store.apiResources, d.name ≠ r.name)
    (h : addApiResource r.toEntity store = some store') {p : Entities.ApiResource → Bool}
    (hp : p r.toEntity = true) :
    ((store'.apiResources.filter p).map Entities.ApiResource.toModel).filter
      (fun m => m.name = r.name) = [r.toEntity.toModel] := by
  rw [addApiResource_eq] at h
  cases Option.some.inj h
  exact filter_key_of_absent (f := Entities.ApiResource.toModel) (fun _ => rfl) absent hp

end AfterAdd

theorem eq_of_filter_singleton {α : Type} {p : α → Bool} {l : List α} {a x : α}
    (h : l.filter p = [a]) (hx : x ∈ l) (hp : p x = true) : x = a := by
  have hmem := List.mem_filter.mpr ⟨hx, hp⟩
  rw [h] at hmem
  exact List.mem_singleton.mp hmem

theorem mem_of_filter_singleton {α : Type} {p : α → Bool} {l : List α} {a : α}
    (h : l.filter p = [a]) : a ∈ l := by
  have hmem : a ∈ l.filter p := by simp [h]
  exact (List.mem_filter.mp hmem).1

/-- A scope survives exactly when it is enabled and has no properties: its
document keeps neither. -/
theorem apiScope_survives_iff {s : Models.ApiScope} {store : ConfigurationDocs}
    (absent : ∀ d ∈ store.apiScopes, d.name ≠ s.name) :
    ApiScopeSurvives s store ↔ s.enabled = true ∧ s.properties.entries = [] := by
  rw [← apiScope_same_iff]
  constructor
  · rintro ⟨store', hadd, hfind, _⟩
    obtain ⟨m, hm, hsame⟩ := hfind [s.name] (by simp)
    have hone := apiScopes_after_add absent hadd (p := fun x => [s.name].contains x.name)
      (by simp [Models.ApiScope.toEntity])
    have hname := congrArg Models.ApiScope.name hsame.scalars
    have heq := eq_of_filter_singleton hone hm (by simpa using hname)
    rw [← heq]
    exact hsame
  · intro hsame
    refine ⟨_, addApiScope_eq .., ?_, ?_⟩
    · intro names hmem
      have hone := apiScopes_after_add absent (addApiScope_eq ..)
        (p := fun x => names.contains x.name) (by simpa [Models.ApiScope.toEntity] using hmem)
      exact ⟨_, mem_of_filter_singleton hone, hsame⟩
    · have hone := apiScopes_after_add absent (addApiScope_eq ..) (p := fun _ => true) rfl
      rw [List.filter_true] at hone
      exact ⟨_, mem_of_filter_singleton hone, hsame⟩

theorem apiScope_survives_enabled :
    ApiScopeSurvives { name := some "api1", userClaims := [some "name"] }
      { apiScopes := [{ name := some "api2" }] } :=
  (apiScope_survives_iff (by simp)).mpr ⟨rfl, rfl⟩

/-- A scope that was switched off is read back switched on. -/
theorem disabled_apiScope_not_survives :
    ¬∀ (s : Models.ApiScope) (store : ConfigurationDocs),
      (∀ d ∈ store.apiScopes, d.name ≠ s.name) → ApiScopeSurvives s store := by
  intro h
  obtain ⟨_, hadd, _, m, hm, hsame⟩ := h { name := some "api1", enabled := false } {} (by simp)
  rw [addApiScope_eq] at hadd
  cases Option.some.inj hadd
  rw [List.mem_singleton.mp hm] at hsame
  exact absurd (apiScope_same_iff.mp hsame).1 (by decide)

theorem apiResource_survives_iff {r : Models.ApiResource} {store : ConfigurationDocs}
    (absent : ∀ d ∈ store.apiResources, d.name ≠ r.name) :
    ApiResourceSurvives r store ↔
      r.showInDiscoveryDocument = true ∧ r.allowedAccessTokenSigningAlgorithms = [] := by
  rw [← apiResource_same_iff]
  constructor
  · rintro ⟨store', hadd, hfind, _⟩
    obtain ⟨m, hm, hsame⟩ := hfind [r.name] (by simp)
    have hone := apiResources_after_add absent hadd (p := fun x => [r.name].contains x.name)
      (by simp [Models.ApiResource.toEntity])
    have heq : [r.toEntity.toModel] = [m] := hone.symm.trans hm
    rw [List.singleton_inj.mp heq]
    exact hsame
  · intro hsame
    refine ⟨_, addApiResource_eq .., ?_, ?_⟩
    · intro names hmem
      have hone := apiResources_after_add absent (addApiResource_eq ..)
        (p := fun x => names.contains x.name) (by simpa [Models.ApiResource.toEntity] using hmem)
      exact ⟨_, hone, hsame⟩
    · intro names scope hscope hmem
      have hone := apiResources_after_add absent (addApiResource_eq ..)
        (p := fun x => (x.scopes.getD []).any (fun y => names.contains y)) (by
          simp only [Models.ApiResource.toEntity, Option.getD_some]
          exact List.any_eq_true.mpr ⟨scope, hscope, by simpa using hmem⟩)
      exact ⟨_, hone, hsame⟩

theorem apiResource_survives_shown :
    ApiResourceSurvives
      { name := some "api", scopes := [some "api1"], apiSecrets := [{ value := some "s" }] }
      { apiResources := [{ name := some "other", scopes := some [some "api1"] }] } :=
  (apiResource_survives_iff (by simp)).mpr ⟨rfl, rfl⟩

/-- A resource kept out of the discovery document is read back as shown in it. -/
theorem hidden_apiResource_not_survives :
    ¬∀ (r : Models.ApiResource) (store : ConfigurationDocs),
      (∀ d ∈ store.apiResources, d.name ≠ r.name) → ApiResourceSurvives r store := by
  intro h
  obtain ⟨_, hadd, hfind, _⟩ :=
    h { name := some "api", showInDiscoveryDocument := false } {} (by simp)
  obtain ⟨m, hm, hsame⟩ := hfind [some "api"] (by simp)
  have hone := apiResources_after_add (by simp) hadd (p := fun x => [some "api"].contains x.name)
    (by decide)
  have heq := List.singleton_inj.mp (hone.symm.trans hm)
  rw [← heq] at hsame
  exact absurd (apiResource_same_iff.mp hsame).1 (by decide)

end IdentityServerMongoDB
