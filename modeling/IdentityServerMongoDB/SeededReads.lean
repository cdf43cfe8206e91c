import IdentityServerMongoDB.ConfigurationHistory
import IdentityServerMongoDB.SeedingRuns

namespace IdentityServerMongoDB

/-- The seed data as one history, block after block. -/
def SeedData.models {lib : IdentityServerModels} (seed : SeedData lib) :
    List (ConfigurationModel lib) :=
  seed.clients.map .client ++ (seed.identityResources.map .identityResource ++
    (seed.apiResources.map .apiResource ++ seed.apiScopes.map .apiScope))

/-- Some host is past the block, and nothing of it is on its way or failed. -/
structure SeedState.Done (s : SeedState) (block : SeedBlock) : Prop where
  past : ∃ host ∈ s.hosts, block ∉ host.todo
  kept : s.lost block = []
  quiet : s.outstanding block = []

/-- Whatever is in some order what a list is mapped to comes from that list in some order. -/
theorem exists_of_perm_map {α β : Type} {f : α → β} {xs : List α} {ys : List β}
    (h : ys.Perm (xs.map f)) : ∃ zs : List α, zs.Perm xs ∧ zs.map f = ys := by
  generalize hl : xs.map f = l at h
  replace h := h.symm
  induction h generalizing xs with
  | nil =>
    cases List.map_eq_nil_iff.mp hl
    exact ⟨[], List.Perm.refl _, rfl⟩
  | cons y _ ih =>
    obtain ⟨x, xs, rfl, rfl, htail⟩ := List.map_eq_cons_iff.mp hl
    obtain ⟨zs, hperm, hmap⟩ := ih htail
    exact ⟨x :: zs, hperm.cons x, by rw [List.map_cons, hmap]⟩
  | swap b a l =>
    obtain ⟨x, xs, rfl, rfl, htail⟩ := List.map_eq_cons_iff.mp hl
    obtain ⟨x', xs, rfl, rfl, rfl⟩ := List.map_eq_cons_iff.mp htail
    exact ⟨x' :: x :: xs, List.Perm.swap x x' xs, rfl⟩
  | trans _ _ ih ih' =>
    obtain ⟨zs, hperm, hmap⟩ := ih hl
    obtain ⟨zs', hperm', hmap'⟩ := ih' hmap
    exact ⟨zs', hperm'.trans hperm, hmap'⟩

theorem exists_of_subperm_map {α β : Type} {f : α → β} {xs : List α} {ys : List β}
    (h : ys.Subperm (xs.map f)) : ∃ zs : List α, zs.Subperm xs ∧ zs.map f = ys := by
  obtain ⟨ys', hperm, hsub⟩ := h
  obtain ⟨xs', hsub', rfl⟩ := List.sublist_map_iff.mp hsub
  obtain ⟨zs, hzs, hmap⟩ := exists_of_perm_map hperm.symm
  exact ⟨zs, hzs.subperm.trans hsub'.subperm, hmap⟩

section Seeded

variable {lib : IdentityServerModels} {seed : SeedData lib} {s : SeedState}

theorem historyDocs_models (seed : SeedData lib) :
    historyDocs seed.models =
      { clients := seed.clients.map Models.Client.toEntity
        identityResources := seed.identityResources.map Models.IdentityResource.toEntity
        apiResources := seed.apiResources.map Models.ApiResource.toEntity
        apiScopes := seed.apiScopes.map Models.ApiScope.toEntity } := by
  simp [historyDocs, SeedData.models, List.filterMap_append, List.filterMap_map, Function.comp_def,
    ConfigurationModel.client?, ConfigurationModel.identityResource?,
    ConfigurationModel.apiResource?, ConfigurationModel.apiScope?]

/-- The documents of each collection are some of those of its seed data, none more often
than there. -/
structure SeedDocs (store : ConfigurationDocs) (seed : SeedData lib) : Prop where
  clients : store.clients.Subperm (seed.clients.map Models.Client.toEntity)
  identityResources : store.identityResources.Subperm
    (seed.identityResources.map Models.IdentityResource.toEntity)
  apiResources : store.apiResources.Subperm (seed.apiResources.map Models.ApiResource.toEntity)
  apiScopes : store.apiScopes.Subperm (seed.apiScopes.map Models.ApiScope.toEntity)

theorem filterMap_subperm {α β : Type} (f : α → Option β) {xs ys : List α} (h : xs.Subperm ys) :
    (xs.filterMap f).Subperm (ys.filterMap f) := by
  obtain ⟨xs', hperm, hsub⟩ := h
  exact ⟨xs'.filterMap f, hperm.filterMap f, hsub.filterMap f⟩

theorem seedDocs_of_reach (reach : SeedReach seed SeedSettled {} s) : SeedDocs s.store seed := by
  have hblock : ∀ block, (s.store.contents block).Subperm (seed.additions block) := by
    intro block
    have hnil : ({} : ConfigurationDocs).contents block = [] := by cases block <;> rfl
    exact (List.sublist_append_left _ _).subperm.trans (subperm_of_settled reach hnil)
  refine ⟨?_, ?_, ?_, ?_⟩
  · have h := filterMap_subperm Addition.client? (hblock .clients)
    simpa [ConfigurationDocs.contents, SeedData.additions, List.filterMap_map, Function.comp_def,
      Addition.client?] using h
  · have h := filterMap_subperm Addition.identityResource? (hblock .identityResources)
    simpa [ConfigurationDocs.contents, SeedData.additions, List.filterMap_map, Function.comp_def,
      Addition.identityResource?] using h
  · have h := filterMap_subperm Addition.apiResource? (hblock .apiResources)
    simpa [ConfigurationDocs.contents, SeedData.additions, List.filterMap_map, Function.comp_def,
      Addition.apiResource?] using h
  · have h := filterMap_subperm Addition.apiScope? (hblock .apiScopes)
    simpa [ConfigurationDocs.contents, SeedData.additions, List.filterMap_map, Function.comp_def,
      Addition.apiScope?] using h

/-- Documents that are some of those of seed data are those of some of the same data. -/
theorem exists_seed_of_docs {store : ConfigurationDocs} (h : SeedDocs store seed) :
    ∃ seed' : SeedData lib, seed'.models.Subperm seed.models ∧
      store = historyDocs seed'.models := by
  obtain ⟨clients, hclients, hc⟩ := exists_of_subperm_map h.clients
  obtain ⟨identity, hidentity, hi⟩ := exists_of_subperm_map h.identityResources
  obtain ⟨resources, hresources, hr⟩ := exists_of_subperm_map h.apiResources
  obtain ⟨scopes, hscopes, hs⟩ := exists_of_subperm_map h.apiScopes
  refine ⟨⟨clients, identity, resources, scopes⟩, ?_, ?_⟩
  · have hc' := List.Subperm.map (fun _ _ h => (@ConfigurationModel.client.inj lib _ _ h)) hclients
    have hi' := List.Subperm.map
      (fun _ _ h => (@ConfigurationModel.identityResource.inj lib _ _ h)) hidentity
    have hr' := List.Subperm.map (fun _ _ h => (@ConfigurationModel.apiResource.inj lib _ _ h))
      hresources
    have hs' := List.Subperm.map (fun _ _ h => (@ConfigurationModel.apiScope.inj lib _ _ h)) hscopes
    exact hc'.append (hi'.append (hr'.append hs'))
  · rw [historyDocs_models, hc, hi, hr, hs]

theorem length_of_contents {seed' : SeedData lib}
    (h : ∀ block, ((historyDocs seed'.models).contents block).length =
      (seed.additions block).length) : seed'.models.length = seed.models.length := by
  have hc := h .clients
  have hi := h .identityResources
  have hr := h .apiResources
  have hs := h .apiScopes
  rw [historyDocs_models] at hc hi hr hs
  simp only [ConfigurationDocs.contents, SeedData.additions, List.length_map] at hc hi hr hs
  simp only [SeedData.models, List.length_append, List.length_map]
  omega

/-- At every moment of a seeding of an empty database in which no host asks too early, every
read is answered as if some of the seed data had been added, one model after the
other and none more often than it is there, and once the hosts are done as if all of it had. -/
theorem seeded_reads_history (reach : SeedReach seed SeedSettled {} s)
    (toUpperInvariant : Char → Char) :
    ∃ history : List (ConfigurationModel lib), history.Subperm seed.models ∧
      ((∀ block, s.Done block) → history.Perm seed.models) ∧
      ReadsHistory toUpperInvariant history s.store := by
  obtain ⟨seed', hsub, hstore⟩ := exists_seed_of_docs (seedDocs_of_reach reach)
  refine ⟨seed'.models, hsub, ?_, ?_⟩
  · intro done
    apply hsub.perm_of_length_le
    apply Nat.le_of_eq
    apply Eq.symm
    apply length_of_contents
    intro block
    have hperm := contents_of_settled reach (done block).past (done block).kept (done block).quiet
    have hnil : ({} : ConfigurationDocs).contents block = [] := by cases block <;> rfl
    unfold seededContents at hperm
    rw [if_pos hnil, hstore] at hperm
    exact hperm.length_eq
  · rw [hstore]
    exact readsHistory_docs toUpperInvariant seed'.models

end Seeded

theorem seeded_reads_history_later :
    ∃ s, runAll (seedStep exampleSeed) (seedInit {}) startLaterRun = some s ∧
      ∃ history : List (ConfigurationModel exampleModels), history.Perm exampleSeed.models ∧
        ReadsHistory Char.toUpper history s.store := by
  have reach : ∀ s, runAll (seedStep exampleSeed) (seedInit {}) startLaterRun = some s →
      SeedReach exampleSeed SeedSettled {} s :=
    fun s hs => Reach.start.of_guardedRun startLaterRun_guarded hs
  refine ⟨_, rfl, ?_⟩
  obtain ⟨history, _, hdone, hreads⟩ := seeded_reads_history (reach _ rfl) Char.toUpper
  refine ⟨history, hdone ?_, hreads⟩
  intro block
  cases block with
  | _ => exact ⟨⟨_, List.mem_cons_self, List.not_mem_nil⟩, rfl, rfl⟩

end IdentityServerMongoDB
