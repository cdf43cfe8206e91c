import IdentityServerMongoDB.GrantRemovalSteps

namespace IdentityServerMongoDB

/-- Removals are ordered with later calls in every run in which none of these
meets a delete that is still outstanding. -/
theorem removal_ordered {s : GrantState} (reach : GrantReach NoOutstandingRemoval s) :
    RemovalOrdered s := by
  have inv : RemovalInv s := by
    induction reach with
    | start => exact removalInv_init
    | next prior guard step ih => exact removalInv_step prior ih guard (grantStep_cases step)
  exact inv.ordered

theorem noOutstandingRemoval_of_deleted {s : GrantState} {e : GrantEvent}
    (h : ∀ r removal filter, s.calls r = some removal →
      removal.call.removalFilter = some filter → removal.pc = .deleted) :
    NoOutstandingRemoval s e := by
  intro i call r removal filter _ hr _ hf
  have hp := h r removal filter hr hf
  refine ⟨fun hne => absurd hp hne, ?_⟩
  intro hpending
  rw [hp] at hpending
  cases hpending

theorem noOutstandingRemoval_of_not_call {s : GrantState} {e : GrantEvent}
    (h : ∀ i call, e ≠ .call i call) : NoOutstandingRemoval s e :=
  fun i call _ _ _ he => absurd he (h i call)

/-- A grant is stored, removed and, once it is deleted, asked for. -/
def removeThenReadRun : List GrantEvent :=
  [.call 0 (.storeAsync { key := some "k" }), .effect 0, .effect 0,
    .call 1 (.removeAsync (some "k")), .effect 1, .call 2 (.getAsync (some "k")), .effect 2]

theorem removeThenReadRun_guarded :
    GuardedRun grantStep NoOutstandingRemoval grantInit removeThenReadRun := by
  refine ⟨noOutstandingRemoval_of_deleted (by simp [grantInit]), ?_⟩
  rintro _ ⟨⟩
  refine ⟨noOutstandingRemoval_of_not_call (by simp), ?_⟩
  rintro _ ⟨⟩
  refine ⟨noOutstandingRemoval_of_not_call (by simp), ?_⟩
  rintro _ ⟨⟩
  refine ⟨noOutstandingRemoval_of_deleted ?_, ?_⟩
  · -- the only call so far is the store
    intro r removal filter hr hf
    rcases set_calls_some hr with ⟨_, rfl⟩ | ⟨hne, hr⟩
    · cases hf
    rcases set_calls_some hr with ⟨h, _⟩ | ⟨_, hr⟩
    · exact absurd h hne
    rcases set_calls_some hr with ⟨h, _⟩ | ⟨_, hr⟩
    · exact absurd h hne
    simp [grantInit] at hr
  rintro _ ⟨⟩
  refine ⟨noOutstandingRemoval_of_not_call (by simp), ?_⟩
  rintro _ ⟨⟩
  refine ⟨noOutstandingRemoval_of_deleted ?_, ?_⟩
  · -- the last call to have stepped is the removal, and it has deleted
    intro r removal filter hr hf
    rcases set_calls_some hr with ⟨_, rfl⟩ | ⟨hne, hr⟩
    · rfl
    rcases set_calls_some hr with ⟨h, _⟩ | ⟨_, hr⟩
    · exact absurd h hne
    rcases set_calls_some hr with ⟨_, rfl⟩ | ⟨hne, hr⟩
    · cases hf
    rcases set_calls_some hr with ⟨h, _⟩ | ⟨_, hr⟩
    · exact absurd h hne
    rcases set_calls_some hr with ⟨h, _⟩ | ⟨_, hr⟩
    · exact absurd h hne
    simp [grantInit] at hr
  rintro _ ⟨⟩
  exact ⟨noOutstandingRemoval_of_not_call (by simp), fun _ _ => trivial⟩

theorem removal_ordered_deleted_first :
    ∃ s, runAll grantStep grantInit removeThenReadRun = some s ∧ s.docs = [] ∧
      RemovalOrdered s :=
  ⟨_, rfl, rfl, removal_ordered (Reach.start.of_guardedRun removeThenReadRun_guarded rfl)⟩

/-- The task of the removal is completed before its delete is: the read started
in between returns the grant that was removed. -/
theorem removal_not_ordered : ∃ s, GrantReach anyStep s ∧ ¬RemovalOrdered s := by
  have reach : ∀ s, runAll grantStep grantInit
      [.call 0 (.storeAsync { key := some "k" }), .effect 0, .effect 0, .resume 0,
        .call 1 (.removeAsync (some "k")), .call 2 (.getAsync (some "k")), .effect 2,
        .effect 1] = some s → GrantReach anyStep s :=
    fun s hs => Reach.start.of_runAll hs
  refine ⟨_, reach _ rfl, ?_⟩
  intro ordered
  have hread := (ordered 1 _ _ rfl rfl).1 2 _ rfl rfl
    ⟨Models.PersistedGrant.toEntity { key := some "k" }, 0⟩
    (List.mem_singleton.mpr rfl) (List.mem_singleton.mpr rfl)
  exact absurd hread (by decide)

/-- In the same window a grant stored after the removal has completed is erased by it. -/
theorem removal_erases_later_store :
    ∃ s, GrantReach anyStep s ∧ ∃ removal d store, s.calls 1 = some removal ∧
      d ∈ removal.removed ∧ s.calls d.writer = some store ∧ store.after 1 = true ∧
      store.task = .completed := by
  have reach : ∀ s, runAll grantStep grantInit
      [.call 1 (.removeAsync (some "k")), .call 2 (.storeAsync { key := some "k" }), .effect 2,
        .effect 2, .resume 2, .effect 1] = some s → GrantReach anyStep s :=
    fun s hs => Reach.start.of_runAll hs
  exact ⟨_, reach _ rfl, _, ⟨Models.PersistedGrant.toEntity { key := some "k" }, 2⟩, _, rfl,
    List.mem_singleton.mpr rfl, rfl, rfl, rfl⟩

end IdentityServerMongoDB
