import IdentityServerMongoDB.RegistrationRuns
import IdentityServerMongoDB.StoreSettings

namespace IdentityServerMongoDB

inductive Dependency
  | settings
  | tokenCleanupOptions
  | service (service : Service)
  deriving DecidableEq

/-- What the constructor behind a service asks for of what is registered here, and
for `TokenCleanupService` also what it resolves for each pass. -/
def Service.dependencies : Service → List Dependency
  | .configurationDbContext | .persistedGrantDbContext => [.settings]
  | .clientStore | .resourceStore | .corsPolicyService => [.service .configurationDbContext]
  | .persistedGrantStore | .tokenCleanup => [.service .persistedGrantDbContext]
  | .tokenCleanupService => [.tokenCleanupOptions, .service .tokenCleanup]

/-- The entity types of the store a service belongs to. -/
def Service.types : Service → List EntityType
  | .configurationDbContext | .clientStore | .resourceStore | .corsPolicyService =>
    configurationStoreTypes
  | .persistedGrantDbContext | .persistedGrantStore | .tokenCleanup | .tokenCleanupService =>
    operationalStoreTypes

def Dependency.types : Dependency → List EntityType
  | .settings => []
  | .tokenCleanupOptions => operationalStoreTypes
  | .service x => x.types

def ServiceDescriptor.provides {fw : Frameworks} : ServiceDescriptor fw → Dependency
  | .configure _ => .settings
  | .scoped service | .transient service | .singleton service => .service service
  | .tokenCleanupOptions _ => .tokenCleanupOptions

def provided {fw : Frameworks} (services : List (ServiceDescriptor fw)) : List Dependency :=
  services.map ServiceDescriptor.provides

/-- Whatever is registered finds what it depends on. -/
def Closed {fw : Frameworks} (services : List (ServiceDescriptor fw)) : Prop :=
  ∀ service, .service service ∈ provided services →
    ∀ d ∈ service.dependencies, d ∈ provided services

def RegistrationCall.argument {fw : Frameworks} : RegistrationCall fw → SetupArgument fw
  | .addConfigurationStore argument => argument
  | .addOperationalStore argument _ => argument

/-- Registrations of one store, none of them twice and none of its settings, that
need nothing but each other and the settings. -/
structure OwnServices (types : List EntityType) (added : List Dependency) : Prop where
  once : added.Nodup
  own : ∀ d ∈ added, d ≠ .settings ∧ d.types = types
  closed : ∀ service, .service service ∈ added →
    ∀ d ∈ service.dependencies, d = .settings ∨ d ∈ added

theorem ownServices_nil (types : List EntityType) : OwnServices types [] :=
  ⟨List.nodup_nil, fun _ h => absurd h List.not_mem_nil, fun _ h => absurd h List.not_mem_nil⟩

theorem ownServices_configuration : OwnServices configurationStoreTypes
    [.service .configurationDbContext, .service .clientStore, .service .resourceStore,
      .service .corsPolicyService] := by
  refine ⟨by decide, by decide, ?_⟩
  intro service
  cases service <;> decide

/-- What is there of the operational store when the action for its options throws. -/
theorem ownServices_persistedGrants : OwnServices operationalStoreTypes
    [.service .persistedGrantDbContext, .service .persistedGrantStore] := by
  refine ⟨by decide, by decide, ?_⟩
  intro service
  cases service <;> decide

theorem ownServices_operational : OwnServices operationalStoreTypes
    [.service .persistedGrantDbContext, .service .persistedGrantStore, .tokenCleanupOptions,
      .service .tokenCleanup, .service .tokenCleanupService] := by
  refine ⟨by decide, by decide, ?_⟩
  intro service
  cases service <;> decide

/-- What a call, whether or not it throws, makes of its builder and of the table. -/
structure RegistrationCall.Adds {fw : Frameworks} (call : RegistrationCall fw) (s s' : Registered fw)
    (added : List (ServiceDescriptor fw)) : Prop where
  services : s'.services = s.services ++ .configure call.argument.configure :: added
  settings : added.filterMap ServiceDescriptor.configure? = []
  kept : ∀ type, s.classMaps type ≠ none → s'.classMaps type ≠ none
  fresh : added ≠ [] → ∀ type ∈ call.types, s.classMaps type = none ∧ s'.classMaps type ≠ none
  own : OwnServices call.types (provided added)

theorem registerClassMaps_kept (types : List EntityType) (classMaps : ClassMaps) {type : EntityType}
    (h : classMaps type ≠ none) : (registerClassMaps types classMaps).2 type ≠ none := by
  induction types generalizing classMaps with
  | nil => exact h
  | cons t types ih =>
    cases ht : classMaps t with
    | some map =>
      simp only [registerClassMaps, registerClassMap, ht]
      exact h
    | none =>
      have hne : type ≠ t := by
        rintro rfl
        exact h ht
      simp only [registerClassMaps, registerClassMap, ht]
      apply ih
      rw [Function.update_of_ne hne]
      exact h

theorem registerClassMaps_ok {types : List EntityType} {classMaps classMaps' : ClassMaps}
    (hnodup : types.Nodup) (h : registerClassMaps types classMaps = (.ok (), classMaps')) :
    ∀ type ∈ types, classMaps type = none ∧ classMaps' type ≠ none := by
  have hfree : ∀ type ∈ types, classMaps type = none := by
    intro type hmem
    by_contra htaken
    obtain ⟨ex, classMaps'', hrun⟩ := registerClassMaps_of_taken ⟨type, hmem, htaken⟩
    rw [h] at hrun
    cases hrun
  obtain ⟨classMaps'', hrun, hnone⟩ := registerClassMaps_of_free hnodup hfree
  rw [h] at hrun
  cases hrun
  exact fun type hmem => ⟨hfree type hmem, fun hn => ((hnone type).mp hn).2 hmem⟩

theorem adds_nothing {fw : Frameworks} {call : RegistrationCall fw} {s : Registered fw}
    {classMaps : ClassMaps} (kept : ∀ type, s.classMaps type ≠ none → classMaps type ≠ none) :
    call.Adds s ⟨classMaps, s.services ++ [.configure call.argument.configure]⟩ [] where
  services := rfl
  settings := rfl
  kept := kept
  fresh := fun h => absurd rfl h
  own := ownServices_nil _

theorem adds_of_exec {fw : Frameworks} (call : RegistrationCall fw) (s : Registered fw) :
    ∃ added, call.Adds s (call.exec s).2 added := by
  have hnodup := types_nodup call
  have kept := fun type => @registerClassMaps_kept call.types s.classMaps type
  rcases hrun : registerClassMaps call.types s.classMaps with ⟨ex | u, classMaps⟩
  · rw [hrun] at kept
    cases call with
    | addConfigurationStore argument =>
      refine ⟨[], ?_⟩
      rw [RegistrationCall.exec, addConfigurationStore_of_error hrun]
      exact @adds_nothing _ (.addConfigurationStore argument) _ _ kept
    | addOperationalStore argument tokenCleanUpOptions =>
      refine ⟨[], ?_⟩
      rw [RegistrationCall.exec, addOperationalStore_of_error hrun]
      exact @adds_nothing _ (.addOperationalStore argument tokenCleanUpOptions) _ _ kept
  · rw [hrun] at kept
    have fresh := registerClassMaps_ok hnodup hrun
    cases call with
    | addConfigurationStore argument =>
      refine ⟨[.scoped .configurationDbContext, .transient .clientStore, .transient .resourceStore,
        .transient .corsPolicyService], ?_⟩
      rw [RegistrationCall.exec, addConfigurationStore_of_ok hrun]
      exact ⟨rfl, rfl, kept, fun _ => fresh, ownServices_configuration⟩
    | addOperationalStore argument tokenCleanUpOptions =>
      cases hinvoke : invokeTokenCleanUpOptions tokenCleanUpOptions with
      | error ex =>
        refine ⟨[.scoped .persistedGrantDbContext, .transient .persistedGrantStore], ?_⟩
        rw [RegistrationCall.exec, addOperationalStore_of_invoke_error hrun hinvoke]
        exact ⟨rfl, rfl, kept, fun _ => fresh, ownServices_persistedGrants⟩
      | ok tco =>
        refine ⟨[.scoped .persistedGrantDbContext, .transient .persistedGrantStore,
          .tokenCleanupOptions tco, .transient .tokenCleanup, .singleton .tokenCleanupService], ?_⟩
        rw [RegistrationCall.exec, addOperationalStore_of_ok hrun hinvoke]
        exact ⟨rfl, rfl, kept, fun _ => fresh, ownServices_operational⟩

/-- Every builder has what its services depend on, and nothing but the settings
is registered twice, on one builder or on two. -/
structure ServicesSound {fw : Frameworks} (p : Process fw) : Prop where
  closed : ∀ b, Closed (p.services b)
  once : ∀ b d, d ≠ .settings → (provided (p.services b)).count d ≤ 1
  one : ∀ b b' d, d ≠ .settings → d ∈ provided (p.services b) →
    d ∈ provided (p.services b') → b = b'

/-- All of a store is registered only together with its class maps. -/
def ServicesMapped {fw : Frameworks} (p : Process fw) : Prop :=
  ∀ b, ∀ d ∈ provided (p.services b), ∀ type ∈ d.types, p.classMaps type ≠ none

theorem provided_append {fw : Frameworks} (services more : List (ServiceDescriptor fw)) :
    provided (services ++ more) = provided services ++ provided more :=
  List.map_append ..

section Run

variable {fw : Frameworks}

/-- What a call registers it registers behind its own action, next to what was there. -/
theorem mem_provided_of_adds {call : RegistrationCall fw} {s s' : Registered fw}
    {added : List (ServiceDescriptor fw)} (h : call.Adds s s' added) {d : Dependency} :
    d ∈ provided s'.services ↔
      d ∈ provided s.services ∨ d = .settings ∨ d ∈ provided added := by
  rw [h.services, provided_append, List.mem_append]
  exact or_congr Iff.rfl List.mem_cons

theorem closed_of_adds {call : RegistrationCall fw} {s s' : Registered fw}
    {added : List (ServiceDescriptor fw)} (h : call.Adds s s' added) (hs : Closed s.services) :
    Closed s'.services := by
  intro service hservice d hd
  apply (mem_provided_of_adds h).mpr
  rcases (mem_provided_of_adds h).mp hservice with hold | hsettings | hnew
  · exact Or.inl (hs service hold d hd)
  · cases hsettings
  · exact Or.inr (h.own.closed service hnew d hd)

theorem types_fresh {call : RegistrationCall fw} {s s' : Registered fw}
    {added : List (ServiceDescriptor fw)} (h : call.Adds s s' added) {d : Dependency}
    (hd : d ∈ provided added) :
    ∀ type ∈ d.types, s.classMaps type = none ∧ s'.classMaps type ≠ none := by
  have hsome : added ≠ [] := by
    rintro rfl
    cases hd
  rw [(h.own.own d hd).2]
  exact h.fresh hsome

theorem types_ne_nil {d : Dependency} (hd : d ≠ .settings) : ∃ type, type ∈ d.types := by
  cases d with
  | settings => exact absurd rfl hd
  | tokenCleanupOptions => exact ⟨_, List.mem_cons_self⟩
  | service service => cases service <;> exact ⟨_, List.mem_cons_self⟩

theorem count_of_adds {call : RegistrationCall fw} {s s' : Registered fw}
    {added : List (ServiceDescriptor fw)} (h : call.Adds s s' added) {d : Dependency}
    (hd : d ≠ .settings) :
    (provided s'.services).count d = (provided s.services).count d + (provided added).count d := by
  have hcons : provided (.configure call.argument.configure :: added) =
      .settings :: provided added := rfl
  rw [h.services, provided_append, List.count_append, hcons, List.count_cons_of_ne hd.symm]

theorem services_exec_self (c : BuilderCall fw) (p : Process fw) :
    (c.exec p).2.services c.builder =
      (c.call.exec ⟨p.classMaps, p.services c.builder⟩).2.services := Function.update_self ..

theorem services_exec_other {c : BuilderCall fw} {b : BuilderId} (hb : b ≠ c.builder)
    (p : Process fw) : (c.exec p).2.services b = p.services b := Function.update_of_ne hb ..

section Exec

variable {p : Process fw} {c : BuilderCall fw} {added : List (ServiceDescriptor fw)}

/-- What is registered was so before a call, or is by it on its own builder. -/
theorem provided_before_exec
    (h : c.call.Adds ⟨p.classMaps, p.services c.builder⟩
      (c.call.exec ⟨p.classMaps, p.services c.builder⟩).2 added)
    {b : BuilderId} {d : Dependency} (hne : d ≠ .settings)
    (hd : d ∈ provided ((c.exec p).2.services b)) :
    d ∈ provided (p.services b) ∨ (b = c.builder ∧ d ∈ provided added) := by
  by_cases hb : b = c.builder
  · subst b
    rw [services_exec_self] at hd
    rcases (mem_provided_of_adds h).mp hd with hold | hsettings | hnew
    · exact Or.inl hold
    · exact absurd hsettings hne
    · exact Or.inr ⟨rfl, hnew⟩
  · rw [services_exec_other hb] at hd
    exact Or.inl hd

/-- What is added is on no builder yet, as the types of its store have no class map. -/
theorem absent_of_adds (hmapped : ServicesMapped p)
    (h : c.call.Adds ⟨p.classMaps, p.services c.builder⟩
      (c.call.exec ⟨p.classMaps, p.services c.builder⟩).2 added)
    {d : Dependency} (hadded : d ∈ provided added) (b : BuilderId) :
    d ∉ provided (p.services b) := by
  intro hthere
  obtain ⟨type, htype⟩ := types_ne_nil (h.own.own d hadded).1
  exact hmapped b d hthere type htype (types_fresh h hadded type htype).1

theorem once_of_adds (hsound : ServicesSound p) (hmapped : ServicesMapped p)
    (h : c.call.Adds ⟨p.classMaps, p.services c.builder⟩
      (c.call.exec ⟨p.classMaps, p.services c.builder⟩).2 added) {d : Dependency}
    (hd : d ≠ .settings) :
    (provided (c.call.exec ⟨p.classMaps, p.services c.builder⟩).2.services).count d ≤ 1 := by
  rw [count_of_adds h hd]
  by_cases hadded : d ∈ provided added
  · have hone := List.nodup_iff_count_le_one.mp h.own.once d
    have hnone : (provided (p.services c.builder)).count d = 0 :=
      List.count_eq_zero.mpr (absent_of_adds hmapped h hadded c.builder)
    rw [hnone]
    omega
  · rw [List.count_eq_zero.mpr hadded]
    exact hsound.once c.builder d hd

end Exec

/-- The step of one call in a process. -/
theorem servicesSound_exec {p : Process fw} (hsound : ServicesSound p) (hmapped : ServicesMapped p)
    (c : BuilderCall fw) : ServicesSound (c.exec p).2 ∧ ServicesMapped (c.exec p).2 := by
  obtain ⟨added, h⟩ := adds_of_exec c.call ⟨p.classMaps, p.services c.builder⟩
  refine ⟨⟨?_, ?_, ?_⟩, ?_⟩
  · intro b
    by_cases hb : b = c.builder
    · subst b
      rw [services_exec_self]
      exact closed_of_adds h (hsound.closed c.builder)
    · rw [services_exec_other hb]
      exact hsound.closed b
  · intro b d hne
    by_cases hb : b = c.builder
    · subst b
      rw [services_exec_self]
      exact once_of_adds hsound hmapped h hne
    · rw [services_exec_other hb]
      exact hsound.once b d hne
  · intro b b' d hne hb hb'
    rcases provided_before_exec h hne hb with hold | ⟨rfl, hnew⟩
    · rcases provided_before_exec h hne hb' with hold' | ⟨_, hnew'⟩
      · exact hsound.one b b' d hne hold hold'
      · exact absurd hold (absent_of_adds hmapped h hnew' b)
    · rcases provided_before_exec h hne hb' with hold' | ⟨hsame, _⟩
      · exact absurd hold' (absent_of_adds hmapped h hnew b')
      · exact hsame.symm
  · intro b d hd type htype
    have hne : d ≠ .settings := by
      rintro rfl
      cases htype
    rcases provided_before_exec h hne hd with hold | ⟨_, hnew⟩
    · exact h.kept type (hmapped b d hold type htype)
    · exact (types_fresh h hnew type htype).2

/-- However the stores are added to the hosts of a process, and whichever calls
throw half way, each builder has what its services depend on, and nothing of
either store but its settings is registered twice in the process. -/
theorem services_of_run (calls : List (BuilderCall fw)) (classMaps : ClassMaps) :
    ServicesSound (runCalls calls ⟨classMaps, fun _ => []⟩).2 := by
  have run : ∀ (calls : List (BuilderCall fw)) (p : Process fw), ServicesSound p →
      ServicesMapped p → ServicesSound (runCalls calls p).2 := by
    intro calls
    induction calls with
    | nil => exact fun _ hsound _ => hsound
    | cons c calls ih =>
      intro p hsound hmapped
      obtain ⟨hsound', hmapped'⟩ := servicesSound_exec hsound hmapped c
      exact ih _ hsound' hmapped'
  apply run
  · exact ⟨fun _ _ h => absurd h List.not_mem_nil, fun _ _ _ => Nat.zero_le 1,
      fun _ _ _ _ h => absurd h List.not_mem_nil⟩
  · exact fun _ _ h => absurd h List.not_mem_nil

theorem configureActions_of_run (calls : List (BuilderCall fw)) (p : Process fw) (b : BuilderId) :
    ((runCalls calls p).2.services b).filterMap ServiceDescriptor.configure? =
      (p.services b).filterMap ServiceDescriptor.configure? ++
        (calls.filter (fun c => c.builder = b)).map (fun c => c.call.argument.configure) := by
  induction calls generalizing p with
  | nil => simp [runCalls]
  | cons c calls ih =>
    have hrun : (runCalls (c :: calls) p).2 = (runCalls calls (c.exec p).2).2 := rfl
    obtain ⟨added, h⟩ := adds_of_exec c.call ⟨p.classMaps, p.services c.builder⟩
    rw [hrun, ih]
    by_cases hb : b = c.builder
    · subst b
      rw [services_exec_self, h.services, List.filterMap_append, List.filterMap_cons, h.settings]
      simp [ServiceDescriptor.configure?]
    · rw [services_exec_other hb, List.filter_cons_of_neg (by simpa using Ne.symm hb)]

/-- The settings both contexts of a builder get are those every call on it has
made, one behind the other, thrown or not. The other builders have no part in it. -/
theorem settings_of_run (calls : List (BuilderCall fw)) (p : Process fw) (b : BuilderId) :
    optionsValue ((runCalls calls p).2.services b) =
      optionsValue (p.services b) >>= fun settings =>
        ((calls.filter (fun c => c.builder = b)).map (fun c => c.call.argument.configure)).foldlM
          (fun settings action => action settings) settings := by
  unfold optionsValue
  rw [configureActions_of_run, List.foldlM_append]

end Run

end IdentityServerMongoDB
