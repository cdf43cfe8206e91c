import IdentityServerMongoDB.ClientMapper

namespace IdentityServerMongoDB

structure Entities.UserClaim where
  id : Int32 := 0
  type : Option String
  deriving DecidableEq

structure Entities.ApiResourceClaim extends Entities.UserClaim
  deriving DecidableEq

structure Entities.ApiScopeClaim extends Entities.UserClaim
  deriving DecidableEq

structure Entities.IdentityClaim extends Entities.UserClaim
  deriving DecidableEq

structure Entities.ApiSecret where
  description : Option String := none
  value : Option String := none
  expiration : Option DateTime := none
  type : Option String := some "SharedSecret"
  deriving DecidableEq

/-- The document kept in the ApiResources collection. -/
structure Entities.ApiResource where
  enabled : Bool := true
  name : Option String := none
  displayName : Option String := none
  description : Option String := none
  properties : Option Dictionary := none
  secrets : Option (List Entities.ApiSecret) := none
  scopes : Option (List (Option String)) := none
  userClaims : Option (List Entities.ApiResourceClaim) := none

/-- The document kept in the ApiScopes collection. -/
structure Entities.ApiScope where
  name : Option String := none
  displayName : Option String := none
  description : Option String := none
  required : Bool := false
  emphasize : Bool := false
  showInDiscoveryDocument : Bool := true
  userClaims : Option (List Entities.ApiScopeClaim) := none

/-- The document kept in the IdentityResources collection. -/
structure Entities.IdentityResource where
  enabled : Bool := true
  name : Option String := none
  displayName : Option String := none
  description : Option String := none
  required : Bool := false
  emphasize : Bool := false
  showInDiscoveryDocument : Bool := true
  userClaims : Option (List Entities.IdentityClaim) := none
  properties : Option Dictionary := none

structure Models.ApiResource where
  enabled : Bool := true
  name : Option String := none
  displayName : Option String := none
  description : Option String := none
  showInDiscoveryDocument : Bool := true
  userClaims : List (Option String) := []
  properties : Dictionary := Dictionary.empty
  apiSecrets : List Models.Secret := []
  scopes : List (Option String) := []
  allowedAccessTokenSigningAlgorithms : List (Option String) := []

structure Models.ApiScope where
  enabled : Bool := true
  name : Option String := none
  displayName : Option String := none
  description : Option String := none
  showInDiscoveryDocument : Bool := true
  required : Bool := false
  emphasize : Bool := false
  userClaims : List (Option String) := []
  properties : Dictionary := Dictionary.empty

structure Models.IdentityResource where
  enabled : Bool := true
  name : Option String := none
  displayName : Option String := none
  description : Option String := none
  showInDiscoveryDocument : Bool := true
  required : Bool := false
  emphasize : Bool := false
  userClaims : List (Option String) := []
  properties : Dictionary := Dictionary.empty

/-- The converter declared for `UserClaim`, which its subclasses are mapped by as well. -/
def Entities.UserClaim.convert (uc : Entities.UserClaim) : Option String := uc.type

def Models.Secret.toApiSecret (x : Models.Secret) : Entities.ApiSecret where
  description := x.description
  value := x.value
  expiration := x.expiration
  type := x.type

def Entities.ApiSecret.toModel (x : Entities.ApiSecret) : Models.Secret where
  description := x.description
  value := x.value
  expiration := x.expiration
  type := x.type

/-- `ToDictionary` over a dictionary, or over null. It does not throw: `toDictionary_items`. -/
def copyDictionary (src : Option Dictionary) : Dictionary := src.getD Dictionary.empty

def Models.ApiResource.toEntity (x : Models.ApiResource) : Entities.ApiResource where
  enabled := x.enabled
  name := x.name
  displayName := x.displayName
  description := x.description
  properties := some (copyDictionary (some x.properties))
  secrets := some (x.apiSecrets.map Models.Secret.toApiSecret)
  scopes := some x.scopes
  userClaims := some (x.userClaims.map (fun x => { type := x }))

/-- No member of the entity is mapped to `ShowInDiscoveryDocument` and
`AllowedAccessTokenSigningAlgorithms`. -/
def Entities.ApiResource.toModel (x : Entities.ApiResource) : Models.ApiResource where
  enabled := x.enabled
  name := x.name
  displayName := x.displayName
  description := x.description
  userClaims := mapCollection (fun x => x.type) x.userClaims
  properties := copyDictionary x.properties
  apiSecrets := mapCollection Entities.ApiSecret.toModel x.secrets
  scopes := mapCollection id x.scopes

def Models.ApiScope.toEntity (x : Models.ApiScope) : Entities.ApiScope where
  name := x.name
  displayName := x.displayName
  description := x.description
  required := x.required
  emphasize := x.emphasize
  showInDiscoveryDocument := x.showInDiscoveryDocument
  userClaims := some (x.userClaims.map (fun x => { type := x }))

/-- No member of the entity is mapped to `Enabled` and `Properties`. -/
def Entities.ApiScope.toModel (x : Entities.ApiScope) : Models.ApiScope where
  name := x.name
  displayName := x.displayName
  description := x.description
  showInDiscoveryDocument := x.showInDiscoveryDocument
  required := x.required
  emphasize := x.emphasize
  userClaims := mapCollection (fun x => x.convert) x.userClaims

def Models.IdentityResource.toEntity (x : Models.IdentityResource) : Entities.IdentityResource where
  enabled := x.enabled
  name := x.name
  displayName := x.displayName
  description := x.description
  required := x.required
  emphasize := x.emphasize
  showInDiscoveryDocument := x.showInDiscoveryDocument
  userClaims := some (x.userClaims.map (fun x => { type := x }))
  properties := some (copyDictionary (some x.properties))

def Entities.IdentityResource.toModel (x : Entities.IdentityResource) :
    Models.IdentityResource where
  enabled := x.enabled
  name := x.name
  displayName := x.displayName
  description := x.description
  showInDiscoveryDocument := x.showInDiscoveryDocument
  required := x.required
  emphasize := x.emphasize
  userClaims := mapCollection (fun x => x.convert) x.userClaims
  properties := copyDictionary x.properties

theorem toModel_toEntity_apiResource (r : Models.ApiResource) :
    r.toEntity.toModel =
      { r with showInDiscoveryDocument := true, allowedAccessTokenSigningAlgorithms := [] } := by
  have hclaims : mapCollection (fun x => x.type) r.toEntity.userClaims = r.userClaims :=
    mapCollection_map (fun _ => rfl) _
  have hsecrets : mapCollection Entities.ApiSecret.toModel r.toEntity.secrets = r.apiSecrets :=
    mapCollection_map (fun _ => rfl) _
  have hscopes : mapCollection id r.toEntity.scopes = r.scopes := by
    simp [mapCollection, Models.ApiResource.toEntity]
  unfold Entities.ApiResource.toModel
  rw [hclaims, hsecrets, hscopes]
  rfl

theorem toModel_toEntity_apiScope (s : Models.ApiScope) :
    s.toEntity.toModel = { s with enabled := true, properties := Dictionary.empty } := by
  have hclaims : mapCollection (fun x => x.convert) s.toEntity.userClaims = s.userClaims :=
    mapCollection_map (fun _ => rfl) _
  unfold Entities.ApiScope.toModel
  rw [hclaims]
  rfl

theorem toModel_toEntity_identityResource (r : Models.IdentityResource) :
    r.toEntity.toModel = r := by
  have hclaims : mapCollection (fun x => x.convert) r.toEntity.userClaims = r.userClaims :=
    mapCollection_map (fun _ => rfl) _
  unfold Entities.IdentityResource.toModel
  rw [hclaims]
  rfl

end IdentityServerMongoDB
