import IdentityServerMongoDB.ClientSurvival

namespace IdentityServerMongoDB

/-- A list that is null, taken for an empty one. -/
def Entities.Client.withEmptyLists (e : Entities.Client) : Entities.Client :=
  { e with
    clientSecrets := some (e.clientSecrets.getD [])
    allowedGrantTypes := some (e.allowedGrantTypes.getD [])
    redirectUris := some (e.redirectUris.getD [])
    postLogoutRedirectUris := some (e.postLogoutRedirectUris.getD [])
    allowedScopes := some (e.allowedScopes.getD [])
    identityProviderRestrictions := some (e.identityProviderRestrictions.getD [])
    claims := some (e.claims.getD [])
    allowedCorsOrigins := some (e.allowedCorsOrigins.getD [])
    properties := some (e.properties.getD []) }

/-- Equal in every field, but that a null list counts as an empty one. -/
def Entities.Client.Same (a b : Entities.Client) : Prop :=
  a.withEmptyLists = b.withEmptyLists

/-- The keys of the properties are distinct and not null, and the model accepts the grant types. -/
structure Entities.Client.Mappable (lib : IdentityServerModels) (e : Entities.Client) : Prop where
  keys : ∀ p ∈ e.properties.getD [], p.key ≠ none
  distinct : ((e.properties.getD []).map (fun p => p.key)).Nodup
  grantTypes :
    lib.acceptsGrantTypes ((e.allowedGrantTypes.getD []).map (fun x => x.grantType)) = true

theorem withEmptyLists_same (e : Entities.Client) : e.withEmptyLists.Same e := rfl

/-- Unwrapped and wrapped again, the elements of a list are what they were. -/
theorem map_mapCollection {α β : Type} {f : α → β} {g : β → α} (h : ∀ x, g (f x) = x)
    (src : Option (List α)) : (mapCollection f src).map g = src.getD [] := by
  simp [mapCollection, Function.comp_def, h]

section Mappable

variable {lib : IdentityServerModels} {e : Entities.Client}

/-- The document of a model that was read, whatever its two members came out as. -/
theorem toEntity_of_toModelWith (e : Entities.Client) (d : Dictionary)
    (types : Models.AllowedGrantTypes lib) :
    (e.toModelWith d types).toEntity =
      { e.withEmptyLists with
        allowedGrantTypes := some (types.val.map (fun x => { grantType := x }))
        properties := some (d.items.map (fun x => { key := x.1, value := x.2 })) } := by
  simp only [Models.Client.toEntity, Entities.Client.toModelWith, Entities.Client.withEmptyLists]
  congr 2
  · exact map_mapCollection (fun _ => rfl) e.clientSecrets
  · exact map_mapCollection (fun _ => rfl) e.redirectUris
  · exact map_mapCollection (fun _ => rfl) e.postLogoutRedirectUris
  · exact map_mapCollection (fun _ => rfl) e.allowedScopes
  · exact map_mapCollection (fun _ => rfl) e.identityProviderRestrictions
  · exact map_mapCollection (fun _ => rfl) e.claims
  · exact map_mapCollection (fun _ => rfl) e.allowedCorsOrigins

theorem properties_of_mappable (h : e.Mappable lib) :
    ∃ d, toDictionary (mapCollection (fun item => (item.key, item.value)) e.properties) = .ok d ∧
      d.items.map (fun x => Entities.ClientProperty.mk x.1 x.2) = e.properties.getD [] := by
  have hkeys : ∀ item ∈ mapCollection (fun item => (item.key, item.value)) e.properties,
      item.1 ≠ none := by
    intro item hitem
    obtain ⟨p, hp, rfl⟩ := List.mem_map.mp hitem
    exact h.keys p hp
  have hnodup : ((mapCollection (fun item => (item.key, item.value)) e.properties).map
      Prod.fst).Nodup := by
    simpa only [mapCollection, List.map_map, Function.comp_def] using h.distinct
  obtain ⟨d, hd, hitems⟩ := toDictionary_of_distinct hkeys hnodup
  refine ⟨d, hd, ?_⟩
  rw [hitems]
  exact map_mapCollection (fun _ => rfl) e.properties

theorem toEntity_of_properties {d : Dictionary} (h : e.mapProperties lib = .ok d)
    (accepted :
      lib.acceptsGrantTypes ((e.allowedGrantTypes.getD []).map (fun x => x.grantType)) = true) :
    ∃ c, e.toModel lib = .ok c ∧ c.toEntity = { e.withEmptyLists with
      properties := some (d.items.map (fun x => { key := x.1, value := x.2 })) } := by
  let types : Models.AllowedGrantTypes lib := ⟨_, accepted⟩
  have htypes : e.mapAllowedGrantTypes lib = .ok types := mapAllowedGrantTypes_of_val rfl
  have hwrapped : types.val.map (fun x => Entities.ClientGrantType.mk x) =
      e.allowedGrantTypes.getD [] := map_mapCollection (fun _ => rfl) e.allowedGrantTypes
  refine ⟨_, toModel_of_members h htypes, ?_⟩
  rw [toEntity_of_toModelWith, hwrapped]
  rfl

theorem toEntity_of_toModel (h : e.Mappable lib) :
    ∃ c, e.toModel lib = .ok c ∧ c.toEntity = e.withEmptyLists := by
  obtain ⟨d, hd, hitems⟩ := properties_of_mappable h
  obtain ⟨c, hc, hentity⟩ := toEntity_of_properties (mapProperties_of_ok hd) h.grantTypes
  rw [hitems] at hentity
  exact ⟨c, hc, hentity⟩

theorem toModelWith_of_toModel {c : Models.Client lib} (h : e.toModel lib = .ok c) :
    ∃ properties types, c = e.toModelWith properties types := by
  unfold Entities.Client.toModel at h
  cases hproperties : e.mapProperties lib with
  | error ex =>
    rw [hproperties] at h
    cases h
  | ok properties =>
    cases htypes : e.mapAllowedGrantTypes lib with
    | error ex =>
      rw [hproperties, htypes] at h
      cases h
    | ok types =>
      rw [hproperties, htypes] at h
      exact ⟨properties, types, (Except.ok.inj h).symm⟩

/-- Nothing of a client that was read is lost when it is written and read again. -/
theorem stored_of_toModel {c : Models.Client lib} (h : e.toModel lib = .ok c) : c.stored = c := by
  obtain ⟨properties, types, rfl⟩ := toModelWith_of_toModel h
  simp [Models.Client.stored, Entities.Client.toModelWith, mapCollection, Function.comp_def]

/-- Read and written back, an entity is what it was, so no two that differ in
more than null lists are read as the same model. -/
theorem toEntity_toModel_client (h : e.Mappable lib) :
    (∃ c, e.toModel lib = .ok c ∧ c.toEntity.Same e) ∧
      ∀ e' : Entities.Client, e'.Mappable lib → e'.toModel lib = e.toModel lib → e'.Same e := by
  obtain ⟨c, hc, hentity⟩ := toEntity_of_toModel h
  constructor
  · refine ⟨c, hc, ?_⟩
    rw [hentity]
    exact withEmptyLists_same e
  · intro e' h' heq
    obtain ⟨c', hc', hentity'⟩ := toEntity_of_toModel h'
    rw [hc, hc'] at heq
    cases Except.ok.inj heq
    exact hentity'.symm.trans hentity

end Mappable

/-- An entity with lists that are null, a repeated element and an enumeration value
that is not defined. -/
def exampleEntity : Entities.Client where
  clientId := some "client"
  allowedGrantTypes := some [⟨some "client_credentials"⟩]
  redirectUris := some [⟨some "/signin-oidc"⟩, ⟨none⟩, ⟨some "/signin-oidc"⟩]
  accessTokenType := 7
  properties := some [⟨some "key", none⟩, ⟨some "other", some "value"⟩]

theorem toEntity_toModel_exampleEntity :
    (∃ c, exampleEntity.toModel exampleModels = .ok c ∧ c.toEntity.Same exampleEntity) ∧
      exampleEntity.withEmptyLists.Same exampleEntity := by
  have hexample := @toEntity_toModel_client exampleModels exampleEntity
    ⟨by decide, by decide, by decide⟩
  exact ⟨hexample.1, hexample.2 exampleEntity.withEmptyLists ⟨by decide, by decide, by decide⟩ rfl⟩

end IdentityServerMongoDB
