import IdentityServerMongoDB.KeyedCollection
import IdentityServerMongoDB.Resources

namespace IdentityServerMongoDB

/-- The four collections of a configuration store. -/
structure ConfigurationDocs where
  clients : List Entities.Client := []
  identityResources : List Entities.IdentityResource := []
  apiResources : List Entities.ApiResource := []
  apiScopes : List Entities.ApiScope := []

abbrev StringIndex (α : Type) := Index α (List (Option String))

def clientsIndexes : List (StringIndex Entities.Client) :=
  [{ entries := fun x => [[x.clientId]], background := true }]

def identityResourcesIndexes : List (StringIndex Entities.IdentityResource) :=
  [{ entries := fun x => [[x.name]], background := true }]

def apiResourcesIndexes : List (StringIndex Entities.ApiResource) :=
  [ { entries := fun x => [[x.name]], background := true },
    { entries := fun x => (x.scopes.getD [none]).map (fun scope => [scope]), background := true } ]

def apiScopesIndexes : List (StringIndex Entities.ApiScope) :=
  [{ entries := fun x => [[x.name]], background := true }]

def addClient (entity : Entities.Client) (store : ConfigurationDocs) : Option ConfigurationDocs :=
  (insertOne clientsIndexes entity store.clients).map (fun docs => { store with clients := docs })

def addIdentityResource (entity : Entities.IdentityResource) (store : ConfigurationDocs) :
    Option ConfigurationDocs :=
  (insertOne identityResourcesIndexes entity store.identityResources).map
    (fun docs => { store with identityResources := docs })

def addApiResource (entity : Entities.ApiResource) (store : ConfigurationDocs) :
    Option ConfigurationDocs :=
  (insertOne apiResourcesIndexes entity store.apiResources).map
    (fun docs => { store with apiResources := docs })

def addApiScope (entity : Entities.ApiScope) (store : ConfigurationDocs) :
    Option ConfigurationDocs :=
  (insertOne apiScopesIndexes entity store.apiScopes).map
    (fun docs => { store with apiScopes := docs })

def findClientByIdAsync (lib : IdentityServerModels) (clientId : Option String)
    (store : ConfigurationDocs) : Except Exception (Option (Models.Client lib)) :=
  match store.clients.find? (fun x => x.clientId = clientId) with
  | none => .ok none
  | some client => (client.toModel lib).map some

/-- The finders list what they find in the order of the collection. The server may go by
an index and list it in another, so that only what is listed, and how often, counts. -/
def findApiResourcesByNameAsync (names : List (Option String)) (store : ConfigurationDocs) :
    List Models.ApiResource :=
  (store.apiResources.filter (fun x => names.contains x.name)).map Entities.ApiResource.toModel

def findApiScopesByNameAsync (names : List (Option String)) (store : ConfigurationDocs) :
    List Models.ApiScope :=
  (store.apiScopes.filter (fun x => names.contains x.name)).map Entities.ApiScope.toModel

/-- `Any` over a null array is false. -/
def findApiResourcesByScopeNameAsync (names : List (Option String)) (store : ConfigurationDocs) :
    List Models.ApiResource :=
  (store.apiResources.filter (fun x => (x.scopes.getD []).any (fun y => names.contains y))).map
    Entities.ApiResource.toModel

def findIdentityResourcesByScopeNameAsync (scopes : List (Option String))
    (store : ConfigurationDocs) : List Models.IdentityResource :=
  (store.identityResources.filter (fun x => scopes.contains x.name)).map
    Entities.IdentityResource.toModel

structure Models.Resources where
  identityResources : List Models.IdentityResource
  apiResources : List Models.ApiResource
  apiScopes : List Models.ApiScope

def getAllResourcesAsync (store : ConfigurationDocs) : Models.Resources where
  identityResources := store.identityResources.map Entities.IdentityResource.toModel
  apiResources := store.apiResources.map Entities.ApiResource.toModel
  apiScopes := store.apiScopes.map Entities.ApiScope.toModel

/-- The same resources of each kind, in whatever order. -/
structure Models.Resources.Perm (a b : Models.Resources) : Prop where
  identityResources : a.identityResources.Perm b.identityResources
  apiResources : a.apiResources.Perm b.apiResources
  apiScopes : a.apiScopes.Perm b.apiScopes

theorem Models.Resources.Perm.refl (a : Models.Resources) : a.Perm a where
  identityResources := List.Perm.refl _
  apiResources := List.Perm.refl _
  apiScopes := List.Perm.refl _

def Models.Resources.append (a b : Models.Resources) : Models.Resources where
  identityResources := a.identityResources ++ b.identityResources
  apiResources := a.apiResources ++ b.apiResources
  apiScopes := a.apiScopes ++ b.apiScopes

/-- No index of the configuration store is unique, so nothing is refused. -/
theorem addClient_eq (entity : Entities.Client) (store : ConfigurationDocs) :
    addClient entity store = some { store with clients := store.clients ++ [entity] } := by
  unfold addClient
  rw [insertOne_of_no_unique (by simp [clientsIndexes])]
  rfl

theorem addIdentityResource_eq (entity : Entities.IdentityResource) (store : ConfigurationDocs) :
    addIdentityResource entity store =
      some { store with identityResources := store.identityResources ++ [entity] } := by
  unfold addIdentityResource
  rw [insertOne_of_no_unique (by simp [identityResourcesIndexes])]
  rfl

theorem addApiResource_eq (entity : Entities.ApiResource) (store : ConfigurationDocs) :
    addApiResource entity store =
      some { store with apiResources := store.apiResources ++ [entity] } := by
  unfold addApiResource
  rw [insertOne_of_no_unique (by simp [apiResourcesIndexes])]
  rfl

theorem addApiScope_eq (entity : Entities.ApiScope) (store : ConfigurationDocs) :
    addApiScope entity store = some { store with apiScopes := store.apiScopes ++ [entity] } := by
  unfold addApiScope
  rw [insertOne_of_no_unique (by simp [apiScopesIndexes])]
  rfl

end IdentityServerMongoDB
