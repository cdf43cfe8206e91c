import IdentityServerMongoDB.ConfigurationAdditions
import Mathlib.Data.List.Induction

namespace IdentityServerMongoDB

/-- Every lookup by client id or by names gives the same in both stores. -/
structure SameLookups (store store' : ConfigurationDocs) : Prop where
  clients : ∀ (lib : IdentityServerModels) (clientId : Option String),
    findClientByIdAsync lib clientId store = findClientByIdAsync lib clientId store'
  identityResources : ∀ names, (findIdentityResourcesByScopeNameAsync names store).Perm
    (findIdentityResourcesByScopeNameAsync names store')
  apiScopes : ∀ names, (findApiScopesByNameAsync names store).Perm
    (findApiScopesByNameAsync names store')
  apiResources : ∀ names, (findApiResourcesByNameAsync names store).Perm
    (findApiResourcesByNameAsync names store')
  apiResourcesByScope : ∀ names, (findApiResourcesByScopeNameAsync names store).Perm
    (findApiResourcesByScopeNameAsync names store')

/-- Where an addition comes to an identifier that is taken, it fails. -/
def RefusesTaken (additions : List Addition) : Prop :=
  ∀ before addition after, additions = before ++ addition :: after →
    addition.identifier ∈ (runAdditions before {}).identifiers →
    addition.exec (runAdditions before {}) = none

/-- In two runs of the same additions either identifiers are unique and the lookups agree,
or a second addition under a taken identifier fails. -/
def OrderIndependent (additions additions' : List Addition) : Prop :=
  ((runAdditions additions {}).Unique ∧ (runAdditions additions' {}).Unique ∧
    SameLookups (runAdditions additions {}) (runAdditions additions' {})) ∨
  (RefusesTaken additions ∧ RefusesTaken additions')

theorem sameLookups_of_sameDocs {store store' : ConfigurationDocs} (h : store.SameDocs store')
    (hu : store.Unique) : SameLookups store store' where
  clients := by
    intro lib clientId
    have hfind : store.clients.find? (fun x => x.clientId = clientId) =
        store'.clients.find? (fun x => x.clientId = clientId) :=
      lookup_perm h.clients hu.clients clientId
    unfold findClientByIdAsync
    rw [hfind]
  identityResources := fun _ => (h.identityResources.filter _).map _
  apiScopes := fun _ => (h.apiScopes.filter _).map _
  apiResources := fun _ => (h.apiResources.filter _).map _
  apiResourcesByScope := fun _ => (h.apiResources.filter _).map _

theorem nodup_of_each_new {α : Type} {xs : List α}
    (h : ∀ before x after, xs = before ++ x :: after → x ∉ before) : xs.Nodup := by
  induction xs using List.reverseRecOn with
  | nil => exact List.nodup_nil
  | append_singleton xs x ih =>
    have hinit : xs.Nodup := by
      apply ih
      intro before y after heq
      exact h before y (after ++ [x]) (by simp [heq])
    have hnew : x ∉ xs := h xs x [] rfl
    refine List.nodup_append.mpr ⟨hinit, List.nodup_singleton x, ?_⟩
    intro a ha b hb heq
    rw [heq, List.mem_singleton.mp hb] at ha
    exact hnew ha

/-- Nothing is ever refused, so where taken identifiers are none was taken. -/
theorem nodup_of_refusesTaken {additions : List Addition} (h : RefusesTaken additions) :
    (additions.map Addition.identifier).Nodup := by
  apply nodup_of_each_new
  intro before id after heq hmem
  obtain ⟨first, rest, rfl, hfirst, hrest⟩ := List.map_eq_append_iff.mp heq
  obtain ⟨addition, last, rfl, hid, _⟩ := List.map_eq_cons_iff.mp hrest
  have htaken : addition.identifier ∈ (runAdditions first {}).identifiers := by
    apply (identifiers_of_run first {}).mem_iff.mpr
    rw [hfirst, hid]
    exact List.mem_append_left _ hmem
  have hnone := h first addition last rfl htaken
  rw [exec_eq] at hnone
  cases hnone

theorem nodup_of_orderIndependent {additions additions' : List Addition}
    (h : OrderIndependent additions additions') :
    (additions.map Addition.identifier).Nodup := by
  rcases h with ⟨hunique, _, _⟩ | ⟨hrefuses, _⟩
  · exact (unique_run_iff additions).mp hunique
  · exact nodup_of_refusesTaken hrefuses

/-- No index is unique, so the order of additions makes no difference exactly when no two
of them are under one identifier. -/
theorem orderIndependent_iff {additions additions' : List Addition}
    (h : additions.Perm additions') :
    OrderIndependent additions additions' ↔ (additions.map Addition.identifier).Nodup := by
  refine ⟨nodup_of_orderIndependent, ?_⟩
  intro hnodup
  have hnodup' := (h.map Addition.identifier).nodup_iff.mp hnodup
  have hunique := (unique_run_iff additions).mpr hnodup
  have hunique' := (unique_run_iff additions').mpr hnodup'
  exact Or.inl ⟨hunique, hunique', sameLookups_of_sameDocs (sameDocs_of_perm h) hunique⟩

theorem orderIndependent_seed :
    OrderIndependent
      [.addClient { clientId := some "api" }, .addApiResource { name := some "api" },
        .addClient { clientId := some "mvc" }]
      [.addApiResource { name := some "api" }, .addClient { clientId := some "api" },
        .addClient { clientId := some "mvc" }] :=
  (orderIndependent_iff (List.Perm.swap _ _ _)).mpr (by decide)

/-- Two hosts that seed the same client leave two documents of its id. -/
theorem seeded_twice_not_orderIndependent :
    ¬∀ additions additions' : List Addition, additions.Perm additions' →
      OrderIndependent additions additions' := by
  intro h
  have hnodup := nodup_of_orderIndependent (h
    [.addClient { clientId := some "mvc" },
      .addClient { clientId := some "mvc", clientName := some "MVC" }]
    [.addClient { clientId := some "mvc", clientName := some "MVC" },
      .addClient { clientId := some "mvc" }]
    (List.Perm.swap _ _ []))
  exact absurd hnodup (by decide)

end IdentityServerMongoDB
