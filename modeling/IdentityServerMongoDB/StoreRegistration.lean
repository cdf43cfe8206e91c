import IdentityServerMongoDB.TokenCleanupService

namespace IdentityServerMongoDB

/-- `MongoDBConfiguration`, of which a new one has no member set. -/
structure MongoDBConfiguration (SslSettings : Type) where
  connectionString : Option String := none
  database : Option String := none
  sslSettings : Option SslSettings := none

/-- What is left open of the frameworks: the types nothing here looks into, how a
configuration section is bound to an instance, and the database a URL names. -/
structure Frameworks where
  SslSettings : Type
  IConfiguration : Type
  bind : IConfiguration → Action (MongoDBConfiguration SslSettings)
  databaseName : String → Except Exception (Option String)

abbrev Frameworks.Settings (fw : Frameworks) : Type := MongoDBConfiguration fw.SslSettings

/-- The argument by which the overloads of a call differ. -/
inductive SetupArgument (fw : Frameworks)
  | setupAction (action : Action fw.Settings)
  | configuration (config : fw.IConfiguration)

/-- The action that `Configure` registers. -/
def SetupArgument.configure {fw : Frameworks} : SetupArgument fw → Action fw.Settings
  | .setupAction action => action
  | .configuration config => fw.bind config

inductive Service
  | configurationDbContext
  | clientStore
  | resourceStore
  | corsPolicyService
  | persistedGrantDbContext
  | persistedGrantStore
  | tokenCleanup
  | tokenCleanupService
  deriving DecidableEq

inductive ServiceDescriptor (fw : Frameworks)
  | configure (action : Action fw.Settings)
  | scoped (service : Service)
  | transient (service : Service)
  | singleton (service : Service)
  | tokenCleanupOptions (options : TokenCleanupOptions)

def ServiceDescriptor.configure? {fw : Frameworks} : ServiceDescriptor fw →
    Option (Action fw.Settings)
  | .configure action => some action
  | _ => none

inductive EntityType
  | client
  | identityResource
  | apiResource
  | apiScope
  | persistedGrant
  deriving DecidableEq

structure BsonClassMap where
  autoMapped : Bool := false
  ignoreExtraElements : Bool := false

/-- The table of class maps of the process. -/
abbrev ClassMaps := EntityType → Option BsonClassMap

/-- What a registration call adds to: the table, and the services of its builder. -/
structure Registered (fw : Frameworks) where
  classMaps : ClassMaps := fun _ => none
  services : List (ServiceDescriptor fw) := []

/-- `RegisterClassMap`, with the initializer all entity types have. -/
def registerClassMap (type : EntityType) (classMaps : ClassMaps) : Except Exception ClassMaps :=
  match classMaps type with
  | some _ => .error .duplicateKey
  | none =>
    .ok (Function.update classMaps type (some { autoMapped := true, ignoreExtraElements := true }))

/-- One type after another, up to one that throws. -/
def registerClassMaps : List EntityType → ClassMaps → Except Exception Unit × ClassMaps
  | [], classMaps => (.ok (), classMaps)
  | type :: types, classMaps =>
    match registerClassMap type classMaps with
    | .error ex => (.error ex, classMaps)
    | .ok classMaps => registerClassMaps types classMaps

def configurationStoreTypes : List EntityType :=
  [.client, .identityResource, .apiResource, .apiScope]

def operationalStoreTypes : List EntityType := [.persistedGrant]

def configureIgnoreExtraElementsConfigurationStore :
    ClassMaps → Except Exception Unit × ClassMaps :=
  registerClassMaps configurationStoreTypes

def configureIgnoreExtraElementsOperationalStore :
    ClassMaps → Except Exception Unit × ClassMaps :=
  registerClassMaps operationalStoreTypes

def Registered.add {fw : Frameworks} (s : Registered fw) (services : List (ServiceDescriptor fw)) :
    Registered fw :=
  { s with services := s.services ++ services }

def addConfigurationStore {fw : Frameworks} (argument : SetupArgument fw) (s : Registered fw) :
    Except Exception Unit × Registered fw :=
  let s := s.add [.configure argument.configure]
  match configureIgnoreExtraElementsConfigurationStore s.classMaps with
  | (.error ex, classMaps) => (.error ex, { s with classMaps := classMaps })
  | (.ok (), classMaps) =>
    (.ok (), { s with classMaps := classMaps }.add
      [ .scoped .configurationDbContext, .transient .clientStore, .transient .resourceStore,
        .transient .corsPolicyService ])

/-- `tokenCleanUpOptions?.Invoke(tco)` on new options. -/
def invokeTokenCleanUpOptions (tokenCleanUpOptions : Option (Action TokenCleanupOptions)) :
    Except Exception TokenCleanupOptions :=
  match tokenCleanUpOptions with
  | none => .ok {}
  | some action => action {}

def addOperationalStore {fw : Frameworks} (argument : SetupArgument fw)
    (tokenCleanUpOptions : Option (Action TokenCleanupOptions)) (s : Registered fw) :
    Except Exception Unit × Registered fw :=
  let s := s.add [.configure argument.configure]
  match configureIgnoreExtraElementsOperationalStore s.classMaps with
  | (.error ex, classMaps) => (.error ex, { s with classMaps := classMaps })
  | (.ok (), classMaps) =>
    let s := { s with classMaps := classMaps }.add
      [.scoped .persistedGrantDbContext, .transient .persistedGrantStore]
    match invokeTokenCleanUpOptions tokenCleanUpOptions with
    | .error ex => (.error ex, s)
    | .ok tco =>
      (.ok (), s.add
        [.tokenCleanupOptions tco, .transient .tokenCleanup, .singleton .tokenCleanupService])

section Outcomes

variable {fw : Frameworks} {s : Registered fw} {argument : SetupArgument fw}
  {tokenCleanUpOptions : Option (Action TokenCleanupOptions)} {classMaps : ClassMaps}

theorem addConfigurationStore_of_ok
    (h : registerClassMaps configurationStoreTypes s.classMaps = (.ok (), classMaps)) :
    addConfigurationStore argument s = (.ok (),
      { classMaps := classMaps
        services := s.services ++ .configure argument.configure ::
          [ .scoped .configurationDbContext, .transient .clientStore, .transient .resourceStore,
            .transient .corsPolicyService ] }) := by
  simp only [addConfigurationStore, Registered.add, configureIgnoreExtraElementsConfigurationStore,
    h, List.append_assoc, List.singleton_append]

/-- A call that throws has added its action and whatever class maps came before the one taken. -/
theorem addConfigurationStore_of_error {ex : Exception}
    (h : registerClassMaps configurationStoreTypes s.classMaps = (.error ex, classMaps)) :
    addConfigurationStore argument s = (.error ex,
      { classMaps := classMaps, services := s.services ++ [.configure argument.configure] }) := by
  simp only [addConfigurationStore, Registered.add, configureIgnoreExtraElementsConfigurationStore,
    h]

theorem addOperationalStore_of_ok {tco : TokenCleanupOptions}
    (h : registerClassMaps operationalStoreTypes s.classMaps = (.ok (), classMaps))
    (hinvoke : invokeTokenCleanUpOptions tokenCleanUpOptions = .ok tco) :
    addOperationalStore argument tokenCleanUpOptions s = (.ok (),
      { classMaps := classMaps
        services := s.services ++ .configure argument.configure ::
          [ .scoped .persistedGrantDbContext, .transient .persistedGrantStore,
            .tokenCleanupOptions tco, .transient .tokenCleanup,
            .singleton .tokenCleanupService ] }) := by
  simp only [addOperationalStore, Registered.add, configureIgnoreExtraElementsOperationalStore,
    h, hinvoke, List.append_assoc, List.cons_append, List.nil_append]

theorem addOperationalStore_of_invoke_error {ex : Exception}
    (h : registerClassMaps operationalStoreTypes s.classMaps = (.ok (), classMaps))
    (hinvoke : invokeTokenCleanUpOptions tokenCleanUpOptions = .error ex) :
    addOperationalStore argument tokenCleanUpOptions s = (.error ex,
      { classMaps := classMaps
        services := s.services ++ .configure argument.configure ::
          [.scoped .persistedGrantDbContext, .transient .persistedGrantStore] }) := by
  simp only [addOperationalStore, Registered.add, configureIgnoreExtraElementsOperationalStore,
    h, hinvoke, List.append_assoc, List.cons_append, List.nil_append]

theorem addOperationalStore_of_error {ex : Exception}
    (h : registerClassMaps operationalStoreTypes s.classMaps = (.error ex, classMaps)) :
    addOperationalStore argument tokenCleanUpOptions s = (.error ex,
      { classMaps := classMaps, services := s.services ++ [.configure argument.configure] }) := by
  simp only [addOperationalStore, Registered.add, configureIgnoreExtraElementsOperationalStore,
    h]

/-- Whether or not a call throws, it has added its action, and no other. -/
theorem services_of_addConfigurationStore (argument : SetupArgument fw) (s : Registered fw) :
    ∃ added, (addConfigurationStore argument s).2.services =
        s.services ++ .configure argument.configure :: added ∧
      added.filterMap ServiceDescriptor.configure? = [] := by
  rcases h : registerClassMaps configurationStoreTypes s.classMaps with ⟨ex | u, classMaps⟩
  · rw [addConfigurationStore_of_error h]
    exact ⟨_, rfl, rfl⟩
  · rw [addConfigurationStore_of_ok h]
    exact ⟨_, rfl, rfl⟩

theorem services_of_addOperationalStore (argument : SetupArgument fw)
    (tokenCleanUpOptions : Option (Action TokenCleanupOptions)) (s : Registered fw) :
    ∃ added, (addOperationalStore argument tokenCleanUpOptions s).2.services =
        s.services ++ .configure argument.configure :: added ∧
      added.filterMap ServiceDescriptor.configure? = [] := by
  rcases h : registerClassMaps operationalStoreTypes s.classMaps with ⟨ex | u, classMaps⟩
  · rw [addOperationalStore_of_error h]
    exact ⟨_, rfl, rfl⟩
  · cases hinvoke : invokeTokenCleanUpOptions tokenCleanUpOptions with
    | error ex =>
      rw [addOperationalStore_of_invoke_error h hinvoke]
      exact ⟨_, rfl, rfl⟩
    | ok tco =>
      rw [addOperationalStore_of_ok h hinvoke]
      exact ⟨_, rfl, rfl⟩

end Outcomes

end IdentityServerMongoDB
