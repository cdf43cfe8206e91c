import IdentityServerMongoDB.Client

namespace IdentityServerMongoDB

def Models.Secret.toClientSecret (x : Models.Secret) : Entities.ClientSecret where
  description := x.description
  value := x.value
  expiration := x.expiration
  type := x.type

def Entities.ClientSecret.toModel (x : Entities.ClientSecret) : Models.Secret where
  description := x.description
  value := x.value
  expiration := x.expiration
  type := x.type

def Models.Client.toEntity {lib : IdentityServerModels} (c : Models.Client lib) :
    Entities.Client where
  enabled := c.enabled
  clientId := c.clientId
  protocolType := c.protocolType
  clientSecrets := some (c.clientSecrets.map Models.Secret.toClientSecret)
  requireClientSecret := c.requireClientSecret
  clientName := c.clientName
  description := c.description
  clientUri := c.clientUri
  logoUri := c.logoUri
  requireConsent := c.requireConsent
  allowRememberConsent := c.allowRememberConsent
  alwaysIncludeUserClaimsInIdToken := c.alwaysIncludeUserClaimsInIdToken
  allowedGrantTypes := some (c.allowedGrantTypes.val.map (fun x => { grantType := x }))
  requirePkce := c.requirePkce
  allowPlainTextPkce := c.allowPlainTextPkce
  allowAccessTokensViaBrowser := c.allowAccessTokensViaBrowser
  redirectUris := some (c.redirectUris.map (fun x => { redirectUri := x }))
  postLogoutRedirectUris :=
    some (c.postLogoutRedirectUris.map (fun x => { postLogoutRedirectUri := x }))
  frontChannelLogoutUri := c.frontChannelLogoutUri
  frontChannelLogoutSessionRequired := c.frontChannelLogoutSessionRequired
  backChannelLogoutUri := c.backChannelLogoutUri
  backChannelLogoutSessionRequired := c.backChannelLogoutSessionRequired
  allowOfflineAccess := c.allowOfflineAccess
  allowedScopes := some (c.allowedScopes.map (fun x => { scope := x }))
  identityTokenLifetime := c.identityTokenLifetime
  accessTokenLifetime := c.accessTokenLifetime
  authorizationCodeLifetime := c.authorizationCodeLifetime
  consentLifetime := c.consentLifetime
  absoluteRefreshTokenLifetime := c.absoluteRefreshTokenLifetime
  slidingRefreshTokenLifetime := c.slidingRefreshTokenLifetime
  refreshTokenUsage := c.refreshTokenUsage.value
  updateAccessTokenClaimsOnRefresh := c.updateAccessTokenClaimsOnRefresh
  refreshTokenExpiration := c.refreshTokenExpiration.value
  accessTokenType := c.accessTokenType.value
  enableLocalLogin := c.enableLocalLogin
  identityProviderRestrictions :=
    some (c.identityProviderRestrictions.map (fun x => { provider := x }))
  includeJwtId := c.includeJwtId
  claims := some (c.claims.map (fun x => { type := x.type, value := x.value }))
  alwaysSendClientClaims := c.alwaysSendClientClaims
  clientClaimsPrefix := c.clientClaimsPrefix
  pairWiseSubjectSalt := c.pairWiseSubjectSalt
  allowedCorsOrigins := some (c.allowedCorsOrigins.map (fun x => { origin := x }))
  properties := some (c.properties.items.map (fun x => { key := x.1, value := x.2 }))
  userSsoLifetime := c.userSsoLifetime
  userCodeType := c.userCodeType
  deviceCodeLifetime := c.deviceCodeLifetime

/-- A null list is mapped to an empty collection. -/
def mapCollection {α β : Type} (f : α → β) (src : Option (List α)) : List β :=
  (src.getD []).map f

def Models.AllowedGrantTypes.set (lib : IdentityServerModels) (types : List (Option String)) :
    Except Exception (Models.AllowedGrantTypes lib) :=
  if h : lib.acceptsGrantTypes types = true then .ok ⟨types, h⟩ else .error .invalidOperation

/-- AutoMapper hands on what a member's mapping throws in an exception of its own. -/
def mapMember {α : Type} (result : Except Exception α) : Except Exception α :=
  result.mapError (fun _ => .autoMapperMapping)

/-- Where a null key makes `ToDictionary` throw, what AutoMapper does is left open. -/
def Entities.Client.mapProperties (lib : IdentityServerModels) (x : Entities.Client) :
    Except Exception Dictionary :=
  match toDictionary (mapCollection (fun item => (item.key, item.value)) x.properties),
    lib.nullKeyProperties with
  | .error (.argumentNull _), some properties => .ok properties
  | result, _ => mapMember result

def Entities.Client.mapAllowedGrantTypes (lib : IdentityServerModels) (x : Entities.Client) :
    Except Exception (Models.AllowedGrantTypes lib) :=
  mapMember
    (Models.AllowedGrantTypes.set lib (mapCollection (fun x => x.grantType) x.allowedGrantTypes))

/-- The model, given the two members whose mapping can throw. The members that no
member of the entity is mapped to stay as the constructor leaves them. -/
def Entities.Client.toModelWith {lib : IdentityServerModels} (x : Entities.Client)
    (properties : Dictionary) (allowedGrantTypes : Models.AllowedGrantTypes lib) :
    Models.Client lib where
  enabled := x.enabled
  clientId := x.clientId
  protocolType := x.protocolType
  clientSecrets := mapCollection Entities.ClientSecret.toModel x.clientSecrets
  requireClientSecret := x.requireClientSecret
  clientName := x.clientName
  description := x.description
  clientUri := x.clientUri
  logoUri := x.logoUri
  requireConsent := x.requireConsent
  allowRememberConsent := x.allowRememberConsent
  alwaysIncludeUserClaimsInIdToken := x.alwaysIncludeUserClaimsInIdToken
  allowedGrantTypes := allowedGrantTypes
  requirePkce := x.requirePkce
  allowPlainTextPkce := x.allowPlainTextPkce
  allowAccessTokensViaBrowser := x.allowAccessTokensViaBrowser
  redirectUris := mapCollection (fun x => x.redirectUri) x.redirectUris
  postLogoutRedirectUris :=
    mapCollection (fun x => x.postLogoutRedirectUri) x.postLogoutRedirectUris
  frontChannelLogoutUri := x.frontChannelLogoutUri
  frontChannelLogoutSessionRequired := x.frontChannelLogoutSessionRequired
  backChannelLogoutUri := x.backChannelLogoutUri
  backChannelLogoutSessionRequired := x.backChannelLogoutSessionRequired
  allowOfflineAccess := x.allowOfflineAccess
  allowedScopes := mapCollection (fun x => x.scope) x.allowedScopes
  identityTokenLifetime := x.identityTokenLifetime
  accessTokenLifetime := x.accessTokenLifetime
  authorizationCodeLifetime := x.authorizationCodeLifetime
  consentLifetime := x.consentLifetime
  absoluteRefreshTokenLifetime := x.absoluteRefreshTokenLifetime
  slidingRefreshTokenLifetime := x.slidingRefreshTokenLifetime
  refreshTokenUsage := ⟨x.refreshTokenUsage⟩
  updateAccessTokenClaimsOnRefresh := x.updateAccessTokenClaimsOnRefresh
  refreshTokenExpiration := ⟨x.refreshTokenExpiration⟩
  accessTokenType := ⟨x.accessTokenType⟩
  enableLocalLogin := x.enableLocalLogin
  identityProviderRestrictions :=
    mapCollection (fun x => x.provider) x.identityProviderRestrictions
  includeJwtId := x.includeJwtId
  claims := mapCollection
    (fun x => { type := x.type, value := x.value, valueType := lib.stringValueType }) x.claims
  alwaysSendClientClaims := x.alwaysSendClientClaims
  clientClaimsPrefix := x.clientClaimsPrefix
  pairWiseSubjectSalt := x.pairWiseSubjectSalt
  allowedCorsOrigins := mapCollection (fun x => x.origin) x.allowedCorsOrigins
  properties := properties
  userSsoLifetime := x.userSsoLifetime
  userCodeType := x.userCodeType
  deviceCodeLifetime := x.deviceCodeLifetime

def Entities.Client.toModel (lib : IdentityServerModels) (x : Entities.Client) :
    Except Exception (Models.Client lib) := do
  let properties ← x.mapProperties lib
  let allowedGrantTypes ← x.mapAllowedGrantTypes lib
  .ok (x.toModelWith properties allowedGrantTypes)

/-- Wrapped in an entity's element and unwrapped again, a collection is what it was. -/
theorem mapCollection_map {α β : Type} {f : α → β} {g : β → α} (h : ∀ x, g (f x) = x)
    (xs : List α) : mapCollection g (some (xs.map f)) = xs := by
  simp [mapCollection, Function.comp_def, h]

theorem allowedGrantTypes_set {lib : IdentityServerModels} (types : Models.AllowedGrantTypes lib) :
    Models.AllowedGrantTypes.set lib types.val = .ok types := by
  unfold Models.AllowedGrantTypes.set
  rw [dif_pos types.property]
  rfl

/-- What a client is read back as once it was mapped to its document and back. -/
def Models.Client.stored {lib : IdentityServerModels} (c : Models.Client lib) :
    Models.Client lib :=
  { c with
    requireRequestObject := false
    allowedIdentityTokenSigningAlgorithms := []
    claims := c.claims.map (fun x => { x with valueType := lib.stringValueType }) }

theorem mapAllowedGrantTypes_of_val {lib : IdentityServerModels} {x : Entities.Client}
    {types : Models.AllowedGrantTypes lib}
    (h : mapCollection (fun x => x.grantType) x.allowedGrantTypes = types.val) :
    x.mapAllowedGrantTypes lib = .ok types := by
  unfold Entities.Client.mapAllowedGrantTypes
  rw [h, allowedGrantTypes_set]
  rfl

theorem mapProperties_of_ok {lib : IdentityServerModels} {x : Entities.Client} {d : Dictionary}
    (h : toDictionary (mapCollection (fun item => (item.key, item.value)) x.properties) = .ok d) :
    x.mapProperties lib = .ok d := by
  unfold Entities.Client.mapProperties
  rw [h]
  rfl

theorem toModel_of_members {lib : IdentityServerModels} {x : Entities.Client} {d : Dictionary}
    {types : Models.AllowedGrantTypes lib} (hproperties : x.mapProperties lib = .ok d)
    (htypes : x.mapAllowedGrantTypes lib = .ok types) :
    x.toModel lib = .ok (x.toModelWith d types) := by
  unfold Entities.Client.toModel
  rw [hproperties, htypes]
  rfl

theorem toEntity_toModelWith {lib : IdentityServerModels} (c : Models.Client lib) :
    c.toEntity.toModelWith c.properties c.allowedGrantTypes = c.stored := by
  have hsecrets : mapCollection Entities.ClientSecret.toModel c.toEntity.clientSecrets =
      c.clientSecrets := mapCollection_map (fun _ => rfl) _
  have hredirects : mapCollection (fun x => x.redirectUri) c.toEntity.redirectUris =
      c.redirectUris := mapCollection_map (fun _ => rfl) _
  have hlogouts : mapCollection (fun x => x.postLogoutRedirectUri)
      c.toEntity.postLogoutRedirectUris = c.postLogoutRedirectUris :=
    mapCollection_map (fun _ => rfl) _
  have hscopes : mapCollection (fun x => x.scope) c.toEntity.allowedScopes =
      c.allowedScopes := mapCollection_map (fun _ => rfl) _
  have hproviders : mapCollection (fun x => x.provider) c.toEntity.identityProviderRestrictions =
      c.identityProviderRestrictions := mapCollection_map (fun _ => rfl) _
  have horigins : mapCollection (fun x => x.origin) c.toEntity.allowedCorsOrigins =
      c.allowedCorsOrigins := mapCollection_map (fun _ => rfl) _
  have hclaims : mapCollection (fun x => Models.ClientClaim.mk x.type x.value lib.stringValueType)
        c.toEntity.claims =
      c.claims.map (fun x => { x with valueType := lib.stringValueType }) := by
    simp [mapCollection, Models.Client.toEntity, Function.comp_def]
  unfold Entities.Client.toModelWith
  rw [hsecrets, hredirects, hlogouts, hscopes, hproviders, horigins, hclaims]
  rfl

theorem toModel_toEntity_client {lib : IdentityServerModels} (c : Models.Client lib) :
    c.toEntity.toModel lib = .ok c.stored := by
  have hproperties : c.toEntity.mapProperties lib = .ok c.properties := by
    have hmap : mapCollection (fun item => (item.key, item.value)) c.toEntity.properties =
        c.properties.items := mapCollection_map (fun _ => rfl) _
    exact mapProperties_of_ok (by rw [hmap, toDictionary_items])
  have htypes : c.toEntity.mapAllowedGrantTypes lib = .ok c.allowedGrantTypes :=
    mapAllowedGrantTypes_of_val (mapCollection_map (fun _ => rfl) _)
  rw [toModel_of_members hproperties htypes, toEntity_toModelWith]

end IdentityServerMongoDB
