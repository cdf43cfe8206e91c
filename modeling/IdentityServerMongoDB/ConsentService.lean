import IdentityServerMongoDB.Resources

namespace IdentityServerMongoDB

/-- `ConsentOptions`, whose first three fields a host can set. -/
structure ConsentOptions where
  enableOfflineAccess : Bool := true
  offlineAccessDisplayName : Option String := some "Offline Access"
  offlineAccessDescription : Option String :=
    some "Access to your applications and resources, even when you are offline"

def ConsentOptions.mustChooseOneErrorMessage : String := "You must pick at least one permission"

def ConsentOptions.invalidSelectionErrorMessage : String := "Invalid selection"

structure ConsentInputModel where
  button : Option String := none
  scopesConsented : Option (List (Option String)) := none
  rememberConsent : Bool := false
  returnUrl : Option String := none

structure ScopeViewModel where
  name : Option String
  displayName : Option String
  description : Option String
  emphasize : Bool
  required : Bool := false
  checked : Bool

structure ConsentViewModel extends ConsentInputModel where
  clientName : Option String
  clientUrl : Option String
  clientLogoUrl : Option String
  allowRememberConsent : Bool
  identityScopes : List ScopeViewModel
  resourceScopes : List ScopeViewModel

structure ProcessConsentResult where
  redirectUri : Option String := none
  viewModel : Option ConsentViewModel := none
  validationError : Option String := none

inductive AuthorizationError
  | accessDenied
  deriving DecidableEq

structure ConsentResponse where
  error : Option AuthorizationError := none
  rememberConsent : Bool := false
  scopesValuesConsented : Option (List (Option String)) := none
  deriving DecidableEq

/-- What the code reads of an `AuthorizationRequest`. -/
structure AuthorizationRequest where
  clientId : Option String
  scopeNames : List (Option String)
  deriving DecidableEq

/-- `Resources`, as found for the scopes of a request. -/
structure RequestedResources where
  identityResources : List Models.IdentityResource
  apiResources : List Models.ApiResource
  apiScopes : List Models.ApiScope
  offlineAccess : Bool

/-- The interaction service and the stores behind it, as they answer to one request.
Each of them can throw. -/
structure ConsentHost (lib : IdentityServerModels) where
  getAuthorizationContextAsync : Option String → Except Exception (Option AuthorizationRequest)
  grantConsentAsync : AuthorizationRequest → ConsentResponse → Except Exception Unit
  findEnabledClientByIdAsync : Option String → Except Exception (Option (Models.Client lib))
  findEnabledResourcesByScopeAsync :
    List (Option String) → Except Exception (Option RequestedResources)

/-- `StandardScopes.OfflineAccess`. -/
def offlineAccess : String := "offline_access"

def createScopeViewModelOfIdentity (identity : Models.IdentityResource) (check : Bool) :
    ScopeViewModel where
  name := identity.name
  displayName := identity.displayName
  description := identity.description
  emphasize := identity.emphasize
  required := identity.required
  checked := check || identity.required

def createScopeViewModelOfScope (scope : Models.ApiScope) (check : Bool) : ScopeViewModel where
  name := scope.name
  displayName := scope.displayName
  description := scope.description
  emphasize := scope.emphasize
  required := scope.required
  checked := check || scope.required

def getOfflineAccessScope (options : ConsentOptions) (check : Bool) : ScopeViewModel where
  name := some offlineAccess
  displayName := options.offlineAccessDisplayName
  description := options.offlineAccessDescription
  emphasize := true
  checked := check

/-- `Union` takes the offline scope for one more: the view models are compared by reference. -/
def createConsentViewModel {lib : IdentityServerModels} (options : ConsentOptions)
    (model : Option ConsentInputModel) (returnUrl : Option String) (client : Models.Client lib)
    (resources : RequestedResources) : ConsentViewModel :=
  let scopesConsented := (model.bind ConsentInputModel.scopesConsented).getD []
  let check := fun name => scopesConsented.contains name || model.isNone
  { rememberConsent := (model.map ConsentInputModel.rememberConsent).getD true
    scopesConsented := some scopesConsented
    returnUrl := returnUrl
    clientName := client.clientName <|> client.clientId
    clientUrl := client.clientUri
    clientLogoUrl := client.logoUri
    allowRememberConsent := client.allowRememberConsent
    identityScopes := resources.identityResources.map
      (fun x => createScopeViewModelOfIdentity x (check x.name))
    resourceScopes := resources.apiScopes.map
        (fun x => createScopeViewModelOfScope x (check x.name)) ++
      if options.enableOfflineAccess && resources.offlineAccess then
        [getOfflineAccessScope options (check (some offlineAccess))]
      else [] }

/-- Nothing is shown where no scope matches. To log that, the names are joined by an
`Aggregate`, which throws when there are none. -/
def noScopesMatching (request : AuthorizationRequest) : Except Exception (Option ConsentViewModel) :=
  if request.scopeNames.isEmpty then .error .invalidOperation else .ok none

def buildViewModelAsync {lib : IdentityServerModels} (options : ConsentOptions)
    (host : ConsentHost lib) (returnUrl : Option String) (model : Option ConsentInputModel) :
    Except Exception (Option ConsentViewModel) := do
  match ← host.getAuthorizationContextAsync returnUrl with
  | none => .ok none
  | some request =>
    match ← host.findEnabledClientByIdAsync request.clientId with
    | none => .ok none
    | some client =>
      match ← host.findEnabledResourcesByScopeAsync request.scopeNames with
      | none => noScopesMatching request
      | some resources =>
        if resources.identityResources.isEmpty && resources.apiResources.isEmpty then
          noScopesMatching request
        else .ok (some (createConsentViewModel options model returnUrl client resources))

/-- The response of the user's that is to be granted, or else what is wrong with the input. -/
def consentResponse (options : ConsentOptions) (model : ConsentInputModel) :
    Except String ConsentResponse :=
  if model.button = some "no" then .ok { error := some .accessDenied }
  else if model.button = some "yes" then
    match model.scopesConsented with
    | none | some [] => .error ConsentOptions.mustChooseOneErrorMessage
    | some scopes =>
      .ok { rememberConsent := model.rememberConsent
            scopesValuesConsented := some (
              if options.enableOfflineAccess = false then
                scopes.filter (fun x => x ≠ some offlineAccess)
              else scopes) }
  else .error ConsentOptions.invalidSelectionErrorMessage

/-- The calls of `GrantConsentAsync` that are made, and the result. The model is read
before it is compared with null. -/
def processConsent {lib : IdentityServerModels} (options : ConsentOptions) (host : ConsentHost lib) :
    Option ConsentInputModel →
      List (AuthorizationRequest × ConsentResponse) × Except Exception ProcessConsentResult
  | none => ([], .error .nullReference)
  | some model =>
    match consentResponse options model with
    | .ok grantedConsent =>
      match host.getAuthorizationContextAsync model.returnUrl with
      | .error ex => ([], .error ex)
      | .ok none => ([], .ok {})
      | .ok (some request) =>
        ([(request, grantedConsent)],
          (host.grantConsentAsync request grantedConsent).map
            (fun _ => { redirectUri := model.returnUrl }))
    | .error validationError =>
      ([], (buildViewModelAsync options host model.returnUrl (some model)).map
        (fun viewModel => { viewModel := viewModel, validationError := some validationError }))

/-- What `ConsentController` answers with, and the error in its `ModelState`. -/
inductive ConsentAction
  | view (viewModel : ConsentViewModel) (modelError : Option String)
  | errorView (modelError : Option String)
  | redirect (url : String)

def indexGet {lib : IdentityServerModels} (options : ConsentOptions) (host : ConsentHost lib)
    (returnUrl : Option String) : Except Exception ConsentAction :=
  (buildViewModelAsync options host returnUrl none).map (fun vm =>
    match vm with
    | some vm => .view vm none
    | none => .errorView none)

def ConsentAction.ofResult (result : ProcessConsentResult) : ConsentAction :=
  match result.redirectUri with
  | some url => .redirect url
  | none =>
    match result.viewModel with
    | some viewModel => .view viewModel result.validationError
    | none => .errorView result.validationError

def indexPost {lib : IdentityServerModels} (options : ConsentOptions) (host : ConsentHost lib)
    (model : Option ConsentInputModel) :
    List (AuthorizationRequest × ConsentResponse) × Except Exception ConsentAction :=
  ((processConsent options host model).1,
    (processConsent options host model).2.map ConsentAction.ofResult)

end IdentityServerMongoDB
