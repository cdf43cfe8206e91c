import IdentityServerMongoDB.ConfigurationStore

namespace IdentityServerMongoDB

/-- Equal in every scalar, and with the same elements in every collection. -/
structure Models.Client.Same {lib : IdentityServerModels} (a b : Models.Client lib) : Prop where
  scalars : { a with
    clientSecrets := b.clientSecrets
    allowedGrantTypes := b.allowedGrantTypes
    redirectUris := b.redirectUris
    postLogoutRedirectUris := b.postLogoutRedirectUris
    allowedScopes := b.allowedScopes
    allowedIdentityTokenSigningAlgorithms := b.allowedIdentityTokenSigningAlgorithms
    identityProviderRestrictions := b.identityProviderRestrictions
    claims := b.claims
    allowedCorsOrigins := b.allowedCorsOrigins
    properties := b.properties } = b
  clientSecrets : a.clientSecrets.Perm b.clientSecrets
  allowedGrantTypes : a.allowedGrantTypes.val.Perm b.allowedGrantTypes.val
  redirectUris : a.redirectUris.Perm b.redirectUris
  postLogoutRedirectUris : a.postLogoutRedirectUris.Perm b.postLogoutRedirectUris
  allowedScopes : a.allowedScopes.Perm b.allowedScopes
  allowedIdentityTokenSigningAlgorithms :
    a.allowedIdentityTokenSigningAlgorithms.Perm b.allowedIdentityTokenSigningAlgorithms
  identityProviderRestrictions :
    a.identityProviderRestrictions.Perm b.identityProviderRestrictions
  claims : a.claims.Perm b.claims
  allowedCorsOrigins : a.allowedCorsOrigins.Perm b.allowedCorsOrigins
  properties : a.properties.entries.Perm b.properties.entries

theorem Models.Client.Same.refl {lib : IdentityServerModels} (c : Models.Client lib) : c.Same c where
  scalars := rfl
  clientSecrets := List.Perm.refl _
  allowedGrantTypes := List.Perm.refl _
  redirectUris := List.Perm.refl _
  postLogoutRedirectUris := List.Perm.refl _
  allowedScopes := List.Perm.refl _
  allowedIdentityTokenSigningAlgorithms := List.Perm.refl _
  identityProviderRestrictions := List.Perm.refl _
  claims := List.Perm.refl _
  allowedCorsOrigins := List.Perm.refl _
  properties := List.Perm.refl _

/-- Added to the store, the client is found again by its id and is the same. -/
def ClientSurvives {lib : IdentityServerModels} (c : Models.Client lib)
    (store : ConfigurationDocs) : Prop :=
  ∃ store' found, addClient c.toEntity store = some store' ∧
    findClientByIdAsync lib c.clientId store' = .ok (some found) ∧ found.Same c

theorem find_after_addClient {lib : IdentityServerModels} {c : Models.Client lib}
    {store store' : ConfigurationDocs} (absent : ∀ d ∈ store.clients, d.clientId ≠ c.clientId)
    (h : addClient c.toEntity store = some store') :
    findClientByIdAsync lib c.clientId store' = .ok (some c.stored) := by
  rw [addClient_eq] at h
  cases Option.some.inj h
  have hfind : (store.clients ++ [c.toEntity]).find? (fun x => x.clientId = c.clientId) =
      some c.toEntity := by
    apply find?_append_of_absent
    · intro d hd
      simpa using absent d hd
    · simp [Models.Client.toEntity]
  simp only [findClientByIdAsync, hfind, toModel_toEntity_client]
  rfl

theorem stored_same_iff {lib : IdentityServerModels} {c : Models.Client lib} :
    c.stored.Same c ↔ c.requireRequestObject = false ∧
      c.allowedIdentityTokenSigningAlgorithms = [] ∧
      ∀ claim ∈ c.claims, claim.valueType = lib.stringValueType := by
  constructor
  · intro h
    refine ⟨?_, ?_, ?_⟩
    · have hflag := congrArg Models.Client.requireRequestObject h.scalars
      exact hflag.symm
    · exact h.allowedIdentityTokenSigningAlgorithms.symm.eq_nil
    · intro claim hclaim
      obtain ⟨x, _, hx⟩ := List.mem_map.mp (h.claims.mem_iff.mpr hclaim)
      rw [← hx]
  · rintro ⟨hflag, halgorithms, hclaims⟩
    have hmap : c.claims.map (fun x => { x with valueType := lib.stringValueType }) = c.claims := by
      conv_rhs => rw [← List.map_id c.claims]
      apply List.map_congr_left
      intro x hx
      rw [← hclaims x hx]
      rfl
    have heq : c.stored = c := by
      unfold Models.Client.stored
      rw [hmap, ← hflag, ← halgorithms]
    rw [heq]
    exact Models.Client.Same.refl c

/-- A client survives exactly when it requires no request object, names no algorithm for
identity tokens and has claims of the default value type only. -/
theorem client_survives_iff {lib : IdentityServerModels} {c : Models.Client lib}
    {store : ConfigurationDocs} (absent : ∀ d ∈ store.clients, d.clientId ≠ c.clientId) :
    ClientSurvives c store ↔ c.requireRequestObject = false ∧
      c.allowedIdentityTokenSigningAlgorithms = [] ∧
      ∀ claim ∈ c.claims, claim.valueType = lib.stringValueType := by
  rw [← stored_same_iff]
  constructor
  · rintro ⟨store', found, hadd, hfind, hsame⟩
    rw [find_after_addClient absent hadd] at hfind
    cases hfind
    exact hsame
  · intro hsame
    exact ⟨_, c.stored, addClient_eq .., find_after_addClient absent (addClient_eq ..), hsame⟩

/-- Grant types without repetitions and spaces are accepted. -/
def exampleModels : IdentityServerModels where
  acceptsGrantTypes := fun types =>
    decide types.Nodup && types.all (fun type => type.all (fun s => !s.toList.contains ' '))
  stringValueType := some "XMLSchema#string"
  nullKeyProperties := some Dictionary.empty

def exampleClient (requireRequestObject : Bool) : Models.Client exampleModels where
  enabled := true
  clientId := some "client"
  protocolType := some "oidc"
  clientSecrets := [{ value := some "secret", expiration := some 7 }]
  requireClientSecret := true
  clientName := some "Client"
  description := none
  clientUri := none
  logoUri := none
  requireConsent := false
  allowRememberConsent := true
  alwaysIncludeUserClaimsInIdToken := false
  allowedGrantTypes := ⟨[some "authorization_code", some "client_credentials"], by decide⟩
  requirePkce := true
  allowPlainTextPkce := false
  requireRequestObject := requireRequestObject
  allowAccessTokensViaBrowser := false
  redirectUris := [some "/signin-oidc"]
  postLogoutRedirectUris := []
  frontChannelLogoutUri := none
  frontChannelLogoutSessionRequired := true
  backChannelLogoutUri := none
  backChannelLogoutSessionRequired := true
  allowOfflineAccess := true
  allowedScopes := [some "openid", some "api1"]
  identityTokenLifetime := 300
  accessTokenLifetime := 3600
  authorizationCodeLifetime := 300
  consentLifetime := none
  absoluteRefreshTokenLifetime := 2592000
  slidingRefreshTokenLifetime := 1296000
  refreshTokenUsage := ⟨1⟩
  updateAccessTokenClaimsOnRefresh := false
  refreshTokenExpiration := ⟨1⟩
  accessTokenType := ⟨0⟩
  enableLocalLogin := true
  identityProviderRestrictions := []
  includeJwtId := true
  claims := [{ type := some "hello", value := some "world", valueType := some "XMLSchema#string" }]
  alwaysSendClientClaims := true
  clientClaimsPrefix := some "client_"
  pairWiseSubjectSalt := none
  allowedCorsOrigins := []
  properties := ⟨[("key", some "value")], by decide⟩
  userSsoLifetime := none
  userCodeType := none
  deviceCodeLifetime := 300

theorem client_survives_example : ClientSurvives (exampleClient false)
    { clients := [{ clientId := some "machine", enabled := false }] } := by
  refine (client_survives_iff ?_).mpr ⟨rfl, rfl, ?_⟩
  · intro d hd
    rw [List.mem_singleton.mp hd]
    decide
  intro claim hclaim
  rw [List.mem_singleton.mp hclaim]
  rfl

/-- A client that requires request objects does not require them any more when it is found. -/
theorem request_object_client_not_survives :
    ¬∀ (lib : IdentityServerModels) (c : Models.Client lib) (store : ConfigurationDocs),
      (∀ d ∈ store.clients, d.clientId ≠ c.clientId) → ClientSurvives c store := by
  intro h
  obtain ⟨store', found, hadd, hfind, hsame⟩ := h exampleModels (exampleClient true) {} (by simp)
  rw [find_after_addClient (by simp) hadd] at hfind
  cases hfind
  exact absurd (stored_same_iff.mp hsame).1 (by decide)

end IdentityServerMongoDB
