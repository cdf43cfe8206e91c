import IdentityServerMongoDB.Dictionary

namespace IdentityServerMongoDB

/-- What is left open of the IdentityServer4 models and of AutoMapper: the values the
setter of `AllowedGrantTypes` accepts, the value type a `ClientClaim` has by default,
and the properties a client gets, if it is mapped at all, where `ToDictionary` throws
on a null key. -/
structure IdentityServerModels where
  acceptsGrantTypes : List (Option String) → Bool
  stringValueType : Option String
  nullKeyProperties : Option Dictionary

structure Entities.ClientSecret where
  description : Option String := none
  value : Option String := none
  expiration : Option DateTime := none
  type : Option String := some "SharedSecret"
  deriving DecidableEq

structure Entities.ClientGrantType where
  grantType : Option String
  deriving DecidableEq

structure Entities.ClientRedirectUri where
  redirectUri : Option String
  deriving DecidableEq

structure Entities.ClientPostLogoutRedirectUri where
  postLogoutRedirectUri : Option String
  deriving DecidableEq

structure Entities.ClientScope where
  scope : Option String
  deriving DecidableEq

structure Entities.ClientIdPRestriction where
  provider : Option String
  deriving DecidableEq

structure Entities.ClientClaim where
  type : Option String
  value : Option String
  deriving DecidableEq

structure Entities.ClientCorsOrigin where
  origin : Option String
  deriving DecidableEq

structure Entities.ClientProperty where
  key : Option String
  value : Option String
  deriving DecidableEq

/-- The document kept in the Clients collection. A list is null where it is `none`. -/
structure Entities.Client where
  enabled : Bool := true
  clientId : Option String := none
  protocolType : Option String := some "oidc"
  clientSecrets : Option (List Entities.ClientSecret) := none
  requireClientSecret : Bool := true
  clientName : Option String := none
  description : Option String := none
  clientUri : Option String := none
  logoUri : Option String := none
  requireConsent : Bool := true
  allowRememberConsent : Bool := true
  alwaysIncludeUserClaimsInIdToken : Bool := false
  allowedGrantTypes : Option (List Entities.ClientGrantType) := none
  requirePkce : Bool := false
  allowPlainTextPkce : Bool := false
  allowAccessTokensViaBrowser : Bool := false
  redirectUris : Option (List Entities.ClientRedirectUri) := none
  postLogoutRedirectUris : Option (List Entities.ClientPostLogoutRedirectUri) := none
  frontChannelLogoutUri : Option String := none
  frontChannelLogoutSessionRequired : Bool := true
  backChannelLogoutUri : Option String := none
  backChannelLogoutSessionRequired : Bool := true
  allowOfflineAccess : Bool := false
  allowedScopes : Option (List Entities.ClientScope) := none
  identityTokenLifetime : Int32 := 300
  accessTokenLifetime : Int32 := 3600
  authorizationCodeLifetime : Int32 := 300
  consentLifetime : Option Int32 := none
  absoluteRefreshTokenLifetime : Int32 := 2592000
  slidingRefreshTokenLifetime : Int32 := 1296000
  refreshTokenUsage : Int32 := 1
  updateAccessTokenClaimsOnRefresh : Bool := false
  refreshTokenExpiration : Int32 := 1
  accessTokenType : Int32 := 0
  enableLocalLogin : Bool := true
  identityProviderRestrictions : Option (List Entities.ClientIdPRestriction) := none
  includeJwtId : Bool := false
  claims : Option (List Entities.ClientClaim) := none
  alwaysSendClientClaims : Bool := false
  clientClaimsPrefix : Option String := some "client_"
  pairWiseSubjectSalt : Option String := none
  allowedCorsOrigins : Option (List Entities.ClientCorsOrigin) := none
  properties : Option (List Entities.ClientProperty) := none
  userSsoLifetime : Option Int32 := none
  userCodeType : Option String := none
  deviceCodeLifetime : Int32 := 0

structure Models.Secret where
  description : Option String := none
  value : Option String := none
  expiration : Option DateTime := none
  type : Option String := some "SharedSecret"
  deriving DecidableEq

structure Models.ClientClaim where
  type : Option String
  value : Option String
  valueType : Option String
  deriving DecidableEq

/-- An enumeration of the language holds any `int`, named or not. -/
structure Models.TokenUsage where
  value : Int32
  deriving DecidableEq

structure Models.TokenExpiration where
  value : Int32
  deriving DecidableEq

structure Models.AccessTokenType where
  value : Int32
  deriving DecidableEq

/-- A value that `Client.AllowedGrantTypes` can have: its setter throws on any other. -/
def Models.AllowedGrantTypes (lib : IdentityServerModels) : Type :=
  { types : List (Option String) // lib.acceptsGrantTypes types = true }

/-- No collection of the model is null. -/
structure Models.Client (lib : IdentityServerModels) where
  enabled : Bool
  clientId : Option String
  protocolType : Option String
  clientSecrets : List Models.Secret
  requireClientSecret : Bool
  clientName : Option String
  description : Option String
  clientUri : Option String
  logoUri : Option String
  requireConsent : Bool
  allowRememberConsent : Bool
  alwaysIncludeUserClaimsInIdToken : Bool
  allowedGrantTypes : Models.AllowedGrantTypes lib
  requirePkce : Bool
  allowPlainTextPkce : Bool
  requireRequestObject : Bool := false
  allowAccessTokensViaBrowser : Bool
  redirectUris : List (Option String)
  postLogoutRedirectUris : List (Option String)
  frontChannelLogoutUri : Option String
  frontChannelLogoutSessionRequired : Bool
  backChannelLogoutUri : Option String
  backChannelLogoutSessionRequired : Bool
  allowOfflineAccess : Bool
  allowedScopes : List (Option String)
  identityTokenLifetime : Int32
  allowedIdentityTokenSigningAlgorithms : List (Option String) := []
  accessTokenLifetime : Int32
  authorizationCodeLifetime : Int32
  consentLifetime : Option Int32
  absoluteRefreshTokenLifetime : Int32
  slidingRefreshTokenLifetime : Int32
  refreshTokenUsage : Models.TokenUsage
  updateAccessTokenClaimsOnRefresh : Bool
  refreshTokenExpiration : Models.TokenExpiration
  accessTokenType : Models.AccessTokenType
  enableLocalLogin : Bool
  identityProviderRestrictions : List (Option String)
  includeJwtId : Bool
  claims : List Models.ClientClaim
  alwaysSendClientClaims : Bool
  clientClaimsPrefix : Option String
  pairWiseSubjectSalt : Option String
  allowedCorsOrigins : List (Option String)
  properties : Dictionary
  userSsoLifetime : Option Int32
  userCodeType : Option String
  deviceCodeLifetime : Int32

end IdentityServerMongoDB
