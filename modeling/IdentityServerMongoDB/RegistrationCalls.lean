import IdentityServerMongoDB.StoreRegistration

namespace IdentityServerMongoDB

inductive RegistrationCall (fw : Frameworks)
  | addConfigurationStore (argument : SetupArgument fw)
  | addOperationalStore (argument : SetupArgument fw)
      (tokenCleanUpOptions : Option (Action TokenCleanupOptions))

def RegistrationCall.exec {fw : Frameworks} : RegistrationCall fw → Registered fw →
    Except Exception Unit × Registered fw
  | .addConfigurationStore argument => IdentityServerMongoDB.addConfigurationStore argument
  | .addOperationalStore argument tokenCleanUpOptions =>
    IdentityServerMongoDB.addOperationalStore argument tokenCleanUpOptions

/-- The entity types a call registers a class map for. -/
def RegistrationCall.types {fw : Frameworks} : RegistrationCall fw → List EntityType
  | .addConfigurationStore _ => configurationStoreTypes
  | .addOperationalStore _ _ => operationalStoreTypes

/-- The action a call invokes, if it invokes one, does not throw. -/
def RegistrationCall.Invokes {fw : Frameworks} : RegistrationCall fw → Prop
  | .addConfigurationStore _ => True
  | .addOperationalStore _ tokenCleanUpOptions =>
    ∃ tco, invokeTokenCleanUpOptions tokenCleanUpOptions = .ok tco

theorem registerClassMaps_of_free {types : List EntityType} {classMaps : ClassMaps}
    (hnodup : types.Nodup) (hfree : ∀ type ∈ types, classMaps type = none) :
    ∃ classMaps', registerClassMaps types classMaps = (.ok (), classMaps') ∧
      ∀ type, classMaps' type = none ↔ classMaps type = none ∧ type ∉ types := by
  induction types generalizing classMaps with
  | nil => exact ⟨classMaps, rfl, by simp⟩
  | cons t types ih =>
    have ht : classMaps t = none := hfree t (by simp)
    obtain ⟨hnew, hnodup⟩ := List.nodup_cons.mp hnodup
    let next := Function.update classMaps t (some ⟨true, true⟩)
    have hnext : ∀ type ∈ types, next type = none := by
      intro type hmem
      have hne : type ≠ t := by
        rintro rfl
        exact hnew hmem
      simp only [next, Function.update_of_ne hne]
      exact hfree type (List.mem_cons_of_mem t hmem)
    obtain ⟨classMaps', hrun, hnone⟩ := ih hnodup hnext
    refine ⟨classMaps', ?_, ?_⟩
    · simp only [registerClassMaps, registerClassMap, ht]
      exact hrun
    · intro type
      rw [hnone]
      by_cases he : type = t
      · subst he
        simp [next]
      · simp [next, he]

theorem registerClassMaps_of_taken {types : List EntityType} {classMaps : ClassMaps}
    (h : ∃ type ∈ types, classMaps type ≠ none) :
    ∃ ex classMaps', registerClassMaps types classMaps = (.error ex, classMaps') := by
  induction types generalizing classMaps with
  | nil => simp at h
  | cons t types ih =>
    cases ht : classMaps t with
    | some map =>
      simp only [registerClassMaps, registerClassMap, ht]
      exact ⟨_, _, rfl⟩
    | none =>
      obtain ⟨type, hmem, htaken⟩ := h
      have hne : type ≠ t := by
        rintro rfl
        exact htaken ht
      have hrest : type ∈ types := (List.mem_cons.mp hmem).resolve_left hne
      simp only [registerClassMaps, registerClassMap, ht]
      apply ih
      refine ⟨type, hrest, ?_⟩
      rw [Function.update_of_ne hne]
      exact htaken

section Call

variable {fw : Frameworks} {call : RegistrationCall fw} {s : Registered fw}

theorem types_nodup (call : RegistrationCall fw) : call.types.Nodup := by
  have hconfiguration : configurationStoreTypes.Nodup := by decide
  have hoperational : operationalStoreTypes.Nodup := by decide
  cases call with
  | addConfigurationStore argument => exact hconfiguration
  | addOperationalStore argument tokenCleanUpOptions => exact hoperational

theorem exec_of_free (hfree : ∀ type ∈ call.types, s.classMaps type = none)
    (hinvokes : call.Invokes) : (call.exec s).1 = .ok () ∧
      ∀ type, (call.exec s).2.classMaps type = none ↔
        s.classMaps type = none ∧ type ∉ call.types := by
  obtain ⟨classMaps, hrun, hnone⟩ := registerClassMaps_of_free (types_nodup call) hfree
  cases call with
  | addConfigurationStore argument =>
    simp only [RegistrationCall.exec, addConfigurationStore_of_ok hrun]
    exact ⟨trivial, hnone⟩
  | addOperationalStore argument tokenCleanUpOptions =>
    obtain ⟨tco, hinvoke⟩ := hinvokes
    simp only [RegistrationCall.exec, addOperationalStore_of_ok hrun hinvoke]
    exact ⟨trivial, hnone⟩

theorem exec_of_taken (h : ∃ type ∈ call.types, s.classMaps type ≠ none) :
    ∃ ex, (call.exec s).1 = .error ex := by
  obtain ⟨ex, classMaps, hrun⟩ := registerClassMaps_of_taken h
  cases call with
  | addConfigurationStore argument =>
    simp only [RegistrationCall.exec, addConfigurationStore_of_error hrun]
    exact ⟨ex, rfl⟩
  | addOperationalStore argument tokenCleanUpOptions =>
    simp only [RegistrationCall.exec, addOperationalStore_of_error hrun]
    exact ⟨ex, rfl⟩

theorem exec_of_not_invokes (hfree : ∀ type ∈ call.types, s.classMaps type = none)
    (h : ¬call.Invokes) : ∃ ex, (call.exec s).1 = .error ex := by
  obtain ⟨classMaps, hrun, _⟩ := registerClassMaps_of_free (types_nodup call) hfree
  cases call with
  | addConfigurationStore argument => exact absurd trivial h
  | addOperationalStore argument tokenCleanUpOptions =>
    cases hinvoke : invokeTokenCleanUpOptions tokenCleanUpOptions with
    | ok tco => exact absurd ⟨tco, hinvoke⟩ h
    | error ex =>
      simp only [RegistrationCall.exec, addOperationalStore_of_invoke_error hrun hinvoke]
      exact ⟨ex, rfl⟩

theorem exec_ok_iff : (call.exec s).1 = .ok () ↔
    (∀ type ∈ call.types, s.classMaps type = none) ∧ call.Invokes := by
  constructor
  · intro hok
    have hfree : ∀ type ∈ call.types, s.classMaps type = none := by
      intro type hmem
      by_contra htaken
      obtain ⟨ex, herror⟩ := exec_of_taken ⟨type, hmem, htaken⟩
      rw [hok] at herror
      cases herror
    refine ⟨hfree, ?_⟩
    by_contra hnot
    obtain ⟨ex, herror⟩ := exec_of_not_invokes hfree hnot
    rw [hok] at herror
    cases herror
  · exact fun h => (exec_of_free h.1 h.2).1

/-- Every call adds its action before it does anything that can throw. -/
theorem exec_adds_services (call : RegistrationCall fw) (s : Registered fw) :
    s.services.length < (call.exec s).2.services.length := by
  cases call with
  | addConfigurationStore argument =>
    obtain ⟨added, hservices, _⟩ := services_of_addConfigurationStore argument s
    simp only [RegistrationCall.exec, hservices, List.length_append, List.length_cons]
    omega
  | addOperationalStore argument tokenCleanUpOptions =>
    obtain ⟨added, hservices, _⟩ :=
      services_of_addOperationalStore argument tokenCleanUpOptions s
    simp only [RegistrationCall.exec, hservices, List.length_append, List.length_cons]
    omega

end Call

end IdentityServerMongoDB
