import IdentityServerMongoDB.StoreRegistration

namespace IdentityServerMongoDB

/-- `IOptions<MongoDBConfiguration>.Value`: a new instance behind every action registered for it. -/
def optionsValue {fw : Frameworks} (services : List (ServiceDescriptor fw)) :
    Except Exception fw.Settings :=
  (services.filterMap ServiceDescriptor.configure?).foldlM (fun settings action => action settings)
    {}

/-- What a context talks to. The SSL settings, where there are any, replace those of the
URL and switch TLS on. -/
structure MongoDBContext (fw : Frameworks) where
  connectionString : String
  database : String
  sslSettings : Option fw.SslSettings

/-- The constructor of `MongoDBContextBase`. -/
def mongoDBContextBase {fw : Frameworks} (settings : fw.Settings) :
    Except Exception (MongoDBContext fw) :=
  match settings.connectionString with
  | none => .error (.argumentNullMessage "settings"
      "MongoDBConfiguration.ConnectionString cannot be null.")
  | some connectionString =>
    match fw.databaseName connectionString with
    | .error ex => .error ex
    | .ok databaseName =>
      match settings.database.or databaseName with
      | none => .error (.argumentNullMessage "settings"
          "MongoDBConfiguration.Database cannot be null.")
      | some database => .ok ⟨connectionString, database, settings.sslSettings⟩

/-- What the container hands to the constructor of either context. -/
def ConfigurationDbContext.settings {fw : Frameworks} (s : Registered fw) :
    Except Exception fw.Settings :=
  optionsValue s.services

def PersistedGrantDbContext.settings {fw : Frameworks} (s : Registered fw) :
    Except Exception fw.Settings :=
  optionsValue s.services

def configurationDbContext {fw : Frameworks} (s : Registered fw) :
    Except Exception (MongoDBContext fw) :=
  (ConfigurationDbContext.settings s).bind mongoDBContextBase

def persistedGrantDbContext {fw : Frameworks} (s : Registered fw) :
    Except Exception (MongoDBContext fw) :=
  (PersistedGrantDbContext.settings s).bind mongoDBContextBase

inductive CallOrder
  | configurationFirst
  | operationalFirst

/-- Both stores are added to one builder. -/
def registerStores {fw : Frameworks} (order : CallOrder) (a b : SetupArgument fw)
    (tokenCleanUpOptions : Option (Action TokenCleanupOptions)) : Registered fw :=
  match order with
  | .configurationFirst =>
    (addOperationalStore b tokenCleanUpOptions (addConfigurationStore a {}).2).2
  | .operationalFirst =>
    (addConfigurationStore a (addOperationalStore b tokenCleanUpOptions {}).2).2

/-- Each context gets the settings its own store alone would have given it. -/
structure StoresApart {fw : Frameworks} (order : CallOrder) (a b : SetupArgument fw)
    (tokenCleanUpOptions : Option (Action TokenCleanupOptions)) : Prop where
  configuration : ConfigurationDbContext.settings (registerStores order a b tokenCleanUpOptions) =
    ConfigurationDbContext.settings (addConfigurationStore a {}).2
  operational : PersistedGrantDbContext.settings (registerStores order a b tokenCleanUpOptions) =
    PersistedGrantDbContext.settings (addOperationalStore b tokenCleanUpOptions {}).2

/-- Apart the two actions make the same settings, and the second leaves them as they are. -/
def SameSettings {fw : Frameworks} (first second : Action fw.Settings) : Prop :=
  first {} = second {} ∧ ∀ settings, first {} = .ok settings → second settings = .ok settings

def CallOrder.first {fw : Frameworks} (order : CallOrder) (a b : SetupArgument fw) :
    SetupArgument fw :=
  match order with
  | .configurationFirst => a
  | .operationalFirst => b

def CallOrder.second {fw : Frameworks} (order : CallOrder) (a b : SetupArgument fw) :
    SetupArgument fw :=
  match order with
  | .configurationFirst => b
  | .operationalFirst => a

section Settings

variable {fw : Frameworks}

theorem configureActions_addConfigurationStore (a : SetupArgument fw) (s : Registered fw) :
    (addConfigurationStore a s).2.services.filterMap ServiceDescriptor.configure? =
      s.services.filterMap ServiceDescriptor.configure? ++ [a.configure] := by
  obtain ⟨added, hservices, hnone⟩ := services_of_addConfigurationStore a s
  rw [hservices, List.filterMap_append, List.filterMap_cons, hnone]
  rfl

theorem configureActions_addOperationalStore (b : SetupArgument fw)
    (tokenCleanUpOptions : Option (Action TokenCleanupOptions)) (s : Registered fw) :
    (addOperationalStore b tokenCleanUpOptions s).2.services.filterMap
      ServiceDescriptor.configure? =
      s.services.filterMap ServiceDescriptor.configure? ++ [b.configure] := by
  obtain ⟨added, hservices, hnone⟩ := services_of_addOperationalStore b tokenCleanUpOptions s
  rw [hservices, List.filterMap_append, List.filterMap_cons, hnone]
  rfl

variable (order : CallOrder) (a b : SetupArgument fw)
  (tokenCleanUpOptions : Option (Action TokenCleanupOptions))

theorem optionsValue_addConfigurationStore :
    optionsValue (addConfigurationStore a {}).2.services = a.configure {} := by
  unfold optionsValue
  rw [configureActions_addConfigurationStore]
  simp

theorem optionsValue_addOperationalStore :
    optionsValue (addOperationalStore b tokenCleanUpOptions {}).2.services = b.configure {} := by
  unfold optionsValue
  rw [configureActions_addOperationalStore]
  simp

/-- There is one instance of the settings, and both actions are applied to it. -/
theorem optionsValue_registerStores :
    optionsValue (registerStores order a b tokenCleanUpOptions).services =
      (order.first a b).configure {} >>= (order.second a b).configure := by
  unfold optionsValue registerStores
  cases order with
  | configurationFirst =>
    rw [configureActions_addOperationalStore, configureActions_addConfigurationStore]
    simp [CallOrder.first, CallOrder.second]
  | operationalFirst =>
    rw [configureActions_addConfigurationStore, configureActions_addOperationalStore]
    simp [CallOrder.first, CallOrder.second]

theorem bind_eq_self_iff {ε α : Type} {x : Except ε α} {f : α → Except ε α} :
    x >>= f = x ↔ ∀ y, x = .ok y → f y = .ok y := by
  cases x with
  | error e =>
    apply iff_of_true rfl
    intro y h
    cases h
  | ok y =>
    constructor
    · intro h z hz
      cases Except.ok.inj hz
      exact h
    · exact fun h => h y rfl

theorem sameSettings_iff {first second : Action fw.Settings} :
    SameSettings first second ↔
      first {} >>= second = first {} ∧ first {} >>= second = second {} := by
  unfold SameSettings
  constructor
  · rintro ⟨hsame, hkept⟩
    have hself := bind_eq_self_iff.mpr hkept
    exact ⟨hself, hself.trans hsame⟩
  · rintro ⟨hself, hother⟩
    exact ⟨hself.symm.trans hother, bind_eq_self_iff.mp hself⟩

/-- The stores stay apart only where there is nothing to keep apart. -/
theorem storesApart_iff :
    StoresApart order a b tokenCleanUpOptions ↔
      SameSettings (order.first a b).configure (order.second a b).configure := by
  have hboth := optionsValue_registerStores order a b tokenCleanUpOptions
  have ha := optionsValue_addConfigurationStore a
  have hb := optionsValue_addOperationalStore b tokenCleanUpOptions
  rw [sameSettings_iff, ← hboth]
  constructor
  · rintro ⟨hconfiguration, hoperational⟩
    cases order with
    | configurationFirst => exact ⟨hconfiguration.trans ha, hoperational.trans hb⟩
    | operationalFirst => exact ⟨hoperational.trans hb, hconfiguration.trans ha⟩
  · rintro ⟨hfirst, hsecond⟩
    cases order with
    | configurationFirst => exact ⟨hfirst.trans ha.symm, hsecond.trans hb.symm⟩
    | operationalFirst => exact ⟨hsecond.trans ha.symm, hfirst.trans hb.symm⟩

/-- Stores that are apart talk to what they would talk to alone. -/
theorem contexts_of_storesApart (h : StoresApart order a b tokenCleanUpOptions) :
    configurationDbContext (registerStores order a b tokenCleanUpOptions) =
      configurationDbContext (addConfigurationStore a {}).2 ∧
    persistedGrantDbContext (registerStores order a b tokenCleanUpOptions) =
      persistedGrantDbContext (addOperationalStore b tokenCleanUpOptions {}).2 := by
  unfold configurationDbContext persistedGrantDbContext
  rw [h.configuration, h.operational]
  exact ⟨rfl, rfl⟩

end Settings

/-- Clients are to be kept in one database and grants in another, and both are kept in the other. -/
theorem two_databases_not_apart :
    ¬∀ (fw : Frameworks) (order : CallOrder) (a b : SetupArgument fw)
      (tokenCleanUpOptions : Option (Action TokenCleanupOptions)),
      StoresApart order a b tokenCleanUpOptions := by
  intro h
  have hapart := h ⟨Unit, Unit, fun _ settings => .ok settings, fun _ => .ok none⟩
    .configurationFirst
    (.setupAction (fun _ => .ok
      { connectionString := some "mongodb://localhost:27017", database := some "clients" }))
    (.setupAction (fun _ => .ok
      { connectionString := some "mongodb://localhost:27017", database := some "grants" })) none
  have hdatabase := congrArg (fun settings => settings.toOption.bind (fun s => s.database))
    hapart.configuration
  exact absurd hdatabase (by decide)

end IdentityServerMongoDB
