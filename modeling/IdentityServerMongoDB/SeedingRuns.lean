import IdentityServerMongoDB.ClientSurvival
import IdentityServerMongoDB.EnsureSeedData
import Mathlib.Data.List.Perm.Subperm

namespace IdentityServerMongoDB

section Seeding

variable {lib : IdentityServerModels} {seed : SeedData lib} {guard : SeedState → SeedEvent → Prop}
  {store : ConfigurationDocs} {s : SeedState}

/-- As many copies of what is to be added to a collection as hosts found it empty. -/
def SeedState.copies (seed : SeedData lib) (s : SeedState) (block : SeedBlock) : List Addition :=
  (List.replicate (s.seeders block) (seed.additions block)).flatten

theorem copies_succ {s s' : SeedState} {block : SeedBlock}
    (h : s'.seeders block = s.seeders block + 1) :
    s'.copies seed block = seed.additions block ++ s.copies seed block := by
  unfold SeedState.copies
  rw [h, List.replicate_succ, List.flatten_cons]

theorem copies_eq {s s' : SeedState} {block : SeedBlock} (h : s'.seeders block = s.seeders block) :
    s'.copies seed block = s.copies seed block := by
  unfold SeedState.copies
  rw [h]

theorem contents_conserved_step {s s' : SeedState} {e : SeedEvent} {block : SeedBlock}
    {base : List Addition} (h : BlockCase seed block s s' e)
    (ih : (s.store.contents block ++ (s.outstanding block ++ s.lost block)).Perm
      (base ++ s.copies seed block)) :
    (s'.store.contents block ++ (s'.outstanding block ++ s'.lost block)).Perm
      (base ++ s'.copies seed block) := by
  classical
  apply List.perm_iff_count.mpr
  intro a
  have hbefore := List.perm_iff_count.mp ih a
  cases h with
  | same hcontents houtstanding hlost hseeders =>
    have hcount := List.perm_iff_count.mp houtstanding a
    rw [hcontents, hlost, copies_eq hseeders]
    simp only [List.count_append] at hbefore ⊢
    omega
  | seeded _ _ hnil hnil' houtstanding hlost hseeders =>
    have hcount := List.perm_iff_count.mp houtstanding a
    rw [hnil', hlost, copies_succ hseeders]
    rw [hnil] at hbefore
    simp only [List.count_append] at hbefore hcount ⊢
    omega
  | @inserted n added hcontents houtstanding hlost hseeders =>
    have hcount := List.perm_iff_count.mp houtstanding a
    rw [hcontents, hlost, copies_eq hseeders]
    simp only [List.count_append, List.count_cons, List.count_nil] at hbefore hcount ⊢
    omega
  | @failed n added hcontents houtstanding hlost hseeders =>
    have hcount := List.perm_iff_count.mp houtstanding a
    rw [hcontents, hlost, copies_eq hseeders]
    simp only [List.count_append, List.count_cons, List.count_nil] at hbefore hcount ⊢
    omega

theorem contents_conserved (reach : SeedReach seed guard store s) (block : SeedBlock) :
    (s.store.contents block ++ (s.outstanding block ++ s.lost block)).Perm
      (store.contents block ++ s.copies seed block) := by
  induction reach with
  | start =>
    have hcopies : (seedInit store).copies seed block = [] := rfl
    have hnone : (seedInit store).outstanding block ++ (seedInit store).lost block = [] := rfl
    rw [hcopies, hnone]
    exact List.Perm.refl _
  | next _ _ step ih => exact contents_conserved_step (block_of_step step block) ih

theorem contents_grow (reach : SeedReach seed guard store s) (block : SeedBlock) :
    store.contents block <+: s.store.contents block := by
  induction reach with
  | start => exact List.prefix_rfl
  | next _ _ step ih =>
    cases block_of_step step block with
    | same hcontents =>
      rw [hcontents]
      exact ih
    | seeded _ _ hnil hnil' =>
      rw [hnil] at ih
      rw [hnil']
      exact ih
    | inserted hcontents =>
      rw [hcontents]
      exact ih.trans (List.prefix_append _ _)
    | failed hcontents =>
      rw [hcontents]
      exact ih

/-- In every run of any number of hosts, whatever is in flight or fails, a
collection keeps what was there at first, and with what is outstanding for it and
what failed it is that and one copy of the seed data for each host that found it empty. -/
theorem seeding_conserves (reach : SeedReach seed guard store s) (block : SeedBlock) :
    store.contents block <+: s.store.contents block ∧
      (s.store.contents block ++ (s.outstanding block ++ s.lost block)).Perm
        (store.contents block ++ s.copies seed block) :=
  ⟨contents_grow reach block, contents_conserved reach block⟩

/-- A collection that was not empty is seeded by nobody. -/
theorem unseeded_of_contents (reach : SeedReach seed guard store s) {block : SeedBlock}
    (h : store.contents block ≠ []) : s.store.contents block ≠ [] ∧ s.seeders block = 0 := by
  induction reach with
  | start => exact ⟨h, rfl⟩
  | next _ _ step ih =>
    cases block_of_step step block with
    | same hcontents _ _ hseeders =>
      rw [hcontents, hseeders]
      exact ih
    | seeded _ _ hnil => exact absurd hnil ih.1
    | inserted hcontents _ _ hseeders =>
      rw [hcontents, hseeders]
      exact ⟨by simp, ih.2⟩
    | failed hcontents _ _ hseeders =>
      rw [hcontents, hseeders]
      exact ih

/-- A host that comes past a block finds its collection with something in it, or seeds it. -/
theorem past_of_step {s s' : SeedState} {e : SeedEvent} (h : seedStep seed s e = some s')
    {block : SeedBlock} {host' : SeedHost} (hhost' : host' ∈ s'.hosts)
    (past : block ∉ host'.todo) :
    (∃ host ∈ s.hosts, block ∉ host.todo) ∨ s'.store.contents block ≠ [] ∨
      0 < s'.seeders block := by
  have changed : ∀ {i : Nat} {host new : SeedHost}, s.hosts[i]? = some host →
      host' ∈ s.hosts.set i new → new.todo = host.todo → ∃ host ∈ s.hosts, block ∉ host.todo := by
    intro i host new hhost hmem htodo
    rcases List.mem_or_eq_of_mem_set hmem with hold | rfl
    · exact ⟨host', hold, past⟩
    · exact ⟨host, List.mem_of_getElem? hhost, htodo ▸ past⟩
  have skipped : ∀ {i : Nat} {host : SeedHost} {asked : SeedBlock} {todo : List SeedBlock},
      s.hosts[i]? = some host → host.todo = asked :: todo → asked ≠ block → block ∉ todo →
      ∃ host ∈ s.hosts, block ∉ host.todo := by
    intro i host asked todo hhost htodo hne hnot
    refine ⟨host, List.mem_of_getElem? hhost, ?_⟩
    rw [htodo]
    simpa [Ne.symm hne] using hnot
  cases seedStep_cases h with
  | started =>
    rcases List.mem_append.mp hhost' with hold | hnew
    · exact Or.inl ⟨host', hold, past⟩
    · cases List.mem_singleton.mp hnew
      cases block <;> simp at past
  | @skipped i host asked todo hhost htodo hany =>
    rcases List.mem_or_eq_of_mem_set hhost' with hold | rfl
    · exact Or.inl ⟨host', hold, past⟩
    · by_cases hb : asked = block
      · subst asked
        refine Or.inr (Or.inl ?_)
        intro hnil
        have hnone : s.store.contents block = [] := hnil
        rw [contents_eq_nil_iff.mp hnone] at hany
        cases hany
      · exact Or.inl (skipped hhost htodo hb past)
  | @seeded i host asked todo hhost _ htodo =>
    rcases List.mem_or_eq_of_mem_set hhost' with hold | rfl
    · exact Or.inl ⟨host', hold, past⟩
    · by_cases hb : asked = block
      · subst asked
        refine Or.inr (Or.inr (List.count_pos_iff.mpr ?_))
        exact List.mem_flatMap.mpr ⟨_, hhost', List.mem_cons_self⟩
      · exact Or.inl (skipped hhost htodo hb past)
  | threw hhost => exact Or.inl (changed hhost hhost' rfl)
  | added hhost => exact Or.inl (changed hhost hhost' rfl)
  | inserted => exact Or.inl ⟨host', hhost', past⟩
  | failed => exact Or.inl ⟨host', hhost', past⟩

theorem seeded_of_past (reach : SeedReach seed guard store s) {block : SeedBlock} {host : SeedHost}
    (hhost : host ∈ s.hosts) (past : block ∉ host.todo) :
    s.store.contents block ≠ [] ∨ 0 < s.seeders block := by
  induction reach generalizing host with
  | start => cases hhost
  | next _ _ step ih =>
    rcases past_of_step step hhost past with ⟨before, hbefore, hpast⟩ | hseeded
    · have hold := ih hbefore hpast
      cases block_of_step step block with
      | same hcontents _ _ hseeders =>
        rw [hcontents, hseeders]
        exact hold
      | seeded _ _ _ _ _ _ hseeders => exact Or.inr (by omega)
      | inserted hcontents => exact Or.inl (by rw [hcontents]; simp)
      | failed hcontents _ _ hseeders =>
        rw [hcontents, hseeders]
        exact hold
    · exact hseeded

/-- A host asks whether a collection is empty only when nothing is outstanding for it. -/
def SeedSettled (s : SeedState) (e : SeedEvent) : Prop :=
  ∀ i host block todo, e = .any i → s.hosts[i]? = some host → host.todo = block :: todo →
    s.outstanding block = []

/-- The seed data of a collection that was empty, or else what was in it. -/
def seededContents (seed : SeedData lib) (store : ConfigurationDocs) (block : SeedBlock) :
    List Addition :=
  if store.contents block = [] then seed.additions block else store.contents block

/-- Where no host asks too early, nothing is added twice. -/
theorem subperm_of_settled (reach : SeedReach seed SeedSettled store s) {block : SeedBlock}
    (hnil : store.contents block = []) :
    (s.store.contents block ++ s.outstanding block).Subperm (seed.additions block) := by
  classical
  induction reach with
  | start =>
    change (store.contents block ++ []).Subperm _
    rw [hnil]
    exact List.nil_subperm
  | next _ hguard step ih =>
    cases block_of_step step block with
    | same hcontents houtstanding =>
      rw [hcontents]
      exact (houtstanding.append_left _).subperm.trans ih
    | seeded hhost htodo _ hempty houtstanding =>
      have hsettled := hguard _ _ _ _ rfl hhost htodo
      rw [hsettled, List.append_nil] at houtstanding
      rw [hempty]
      exact houtstanding.subperm
    | inserted hcontents houtstanding =>
      rw [hcontents, List.append_assoc]
      exact (houtstanding.symm.append_left _).subperm.trans ih
    | failed hcontents houtstanding =>
      rw [hcontents]
      refine List.Subperm.trans ?_ ih
      have hless := (List.sublist_cons_self _ _).subperm.trans houtstanding.symm.subperm
      exact List.Subperm.append (List.Perm.refl _).subperm hless

/-- Where no host asks too early and nothing fails, at most one host finds
anything to seed. -/
theorem seeders_le_one (reach : SeedReach seed SeedSettled store s) {block : SeedBlock}
    (hseed : seed.additions block ≠ []) (hlost : s.lost block = []) : s.seeders block ≤ 1 := by
  induction reach with
  | start => exact Nat.zero_le 1
  | @next s s' e prior hguard step ih =>
    have hconserved := contents_conserved prior block
    cases block_of_step step block with
    | same _ _ hlost' hseeders =>
      rw [hseeders]
      exact ih (hlost' ▸ hlost)
    | inserted _ _ hlost' hseeders =>
      rw [hseeders]
      exact ih (hlost' ▸ hlost)
    | failed _ _ hlost' =>
      rw [hlost'] at hlost
      simp at hlost
    | seeded hhost htodo hempty _ _ hlost' hseeders =>
      -- nothing was there, on its way or lost: nobody had seeded before
      rw [hempty, hguard _ _ _ _ rfl hhost htodo, ← hlost', hlost] at hconserved
      have hnone := List.append_eq_nil_iff.mp (List.Perm.nil_eq hconserved).symm
      unfold SeedState.copies at hnone
      have hempty : ¬s.seeders block = 0 → seed.additions block = [] := by simpa using hnone.2
      have hprior : s.seeders block = 0 := by
        by_contra hne
        exact hseed (hempty hne)
      omega

theorem contents_of_settled (reach : SeedReach seed SeedSettled store s) {block : SeedBlock}
    (past : ∃ host ∈ s.hosts, block ∉ host.todo) (hlost : s.lost block = [])
    (hquiet : s.outstanding block = []) :
    (s.store.contents block).Perm (seededContents seed store block) := by
  obtain ⟨host, hhost, hpast⟩ := past
  have hconserved := contents_conserved reach block
  rw [hquiet, hlost, List.append_nil, List.append_nil] at hconserved
  unfold SeedState.copies at hconserved
  unfold seededContents
  by_cases hnil : store.contents block = []
  · rw [if_pos hnil]
    rw [hnil, List.nil_append] at hconserved
    by_cases hseed : seed.additions block = []
    · rw [hseed] at hconserved ⊢
      simpa using hconserved
    · have hmost := seeders_le_one reach hseed hlost
      have hsome : 0 < s.seeders block := by
        rcases seeded_of_past reach hhost hpast with hcontents | hpos
        · apply Nat.pos_of_ne_zero
          intro hzero
          rw [hzero] at hconserved
          exact hcontents hconserved.eq_nil
        · exact hpos
      have hone : s.seeders block = 1 := by omega
      rw [hone] at hconserved
      simpa using hconserved
  · rw [if_neg hnil]
    rw [(unseeded_of_contents reach hnil).2, List.replicate_zero, List.flatten_nil,
      List.append_nil] at hconserved
    exact hconserved

theorem subperm_seededContents (reach : SeedReach seed SeedSettled store s) (block : SeedBlock) :
    (s.store.contents block ++ s.outstanding block).Subperm (seededContents seed store block) := by
  unfold seededContents
  by_cases hnil : store.contents block = []
  · rw [if_pos hnil]
    exact subperm_of_settled reach hnil
  · have hconserved := contents_conserved reach block
    unfold SeedState.copies at hconserved
    rw [(unseeded_of_contents reach hnil).2, List.replicate_zero, List.flatten_nil,
      List.append_nil, ← List.append_assoc] at hconserved
    rw [if_neg hnil]
    exact (List.sublist_append_left _ _).subperm.trans hconserved.subperm

/-- As long as hosts ask whether a collection is empty only when nothing is
outstanding for it, no document is added twice, whatever fails. Once a host is
past the block, nothing has failed and nothing is outstanding, the collection
has the seed data exactly once, or, if there was something in it, just that. -/
theorem seeding_settles (reach : SeedReach seed SeedSettled store s) (block : SeedBlock) :
    (s.store.contents block ++ s.outstanding block).Subperm (seededContents seed store block) ∧
      ((∃ host ∈ s.hosts, block ∉ host.todo) → s.lost block = [] → s.outstanding block = [] →
        (s.store.contents block).Perm (seededContents seed store block)) :=
  ⟨subperm_seededContents reach block,
    fun past hlost hquiet => contents_of_settled reach past hlost hquiet⟩

end Seeding

def exampleSeed : SeedData exampleModels where
  clients := []
  identityResources := []
  apiResources := []
  apiScopes := [{ name := some "scope1" }, { name := some "scope2" }]

/-- Two hosts start at once: both find no scope, and both add theirs. -/
def startTogetherRun : List SeedEvent :=
  [.start, .start, .any 0, .any 0, .any 0, .any 0, .any 1, .any 1, .any 1, .any 1,
    .add 0, .add 0, .add 1, .add 1, .insert 0, .insert 2, .fail 0]

theorem seeding_conserves_together :
    ∃ s, runAll (seedStep exampleSeed) (seedInit {}) startTogetherRun = some s ∧
      s.seeders .apiScopes = 2 ∧
      (s.store.contents .apiScopes ++ (s.outstanding .apiScopes ++ s.lost .apiScopes)).Perm
        (s.copies exampleSeed .apiScopes) := by
  have reach : ∀ s, runAll (seedStep exampleSeed) (seedInit {}) startTogetherRun = some s →
      SeedReach exampleSeed anyStep {} s := fun s hs => Reach.start.of_runAll hs
  exact ⟨_, rfl, rfl, (seeding_conserves (reach _ rfl) .apiScopes).2⟩

theorem seedSettled_of_quiet {s : SeedState} {e : SeedEvent}
    (h : s.pending ++ s.hosts.flatMap SeedHost.adding = []) : SeedSettled s e := by
  intro _ _ block _ _ _ _
  unfold SeedState.outstanding
  rw [h]
  rfl

theorem seedSettled_of_not_any {s : SeedState} {e : SeedEvent} (h : ∀ i, e ≠ .any i) :
    SeedSettled s e :=
  fun i _ _ _ he => absurd he (h i)

/-- One host seeds the scopes, and another starts behind it. -/
def startLaterRun : List SeedEvent :=
  [.start, .any 0, .any 0, .any 0, .any 0, .add 0, .add 0, .insert 1, .insert 0,
    .start, .any 1, .any 1, .any 1, .any 1]

theorem startLaterRun_guarded :
    GuardedRun (seedStep exampleSeed) SeedSettled (seedInit {}) startLaterRun := by
  refine ⟨seedSettled_of_quiet rfl, ?_⟩
  rintro _ ⟨⟩
  refine ⟨seedSettled_of_quiet rfl, ?_⟩
  rintro _ ⟨⟩
  refine ⟨seedSettled_of_quiet rfl, ?_⟩
  rintro _ ⟨⟩
  refine ⟨seedSettled_of_quiet rfl, ?_⟩
  rintro _ ⟨⟩
  refine ⟨seedSettled_of_quiet rfl, ?_⟩
  rintro _ ⟨⟩
  refine ⟨seedSettled_of_not_any (by simp), ?_⟩
  rintro _ ⟨⟩
  refine ⟨seedSettled_of_not_any (by simp), ?_⟩
  rintro _ ⟨⟩
  refine ⟨seedSettled_of_not_any (by simp), ?_⟩
  rintro _ ⟨⟩
  refine ⟨seedSettled_of_not_any (by simp), ?_⟩
  rintro _ ⟨⟩
  refine ⟨seedSettled_of_quiet rfl, ?_⟩
  rintro _ ⟨⟩
  refine ⟨seedSettled_of_quiet rfl, ?_⟩
  rintro _ ⟨⟩
  refine ⟨seedSettled_of_quiet rfl, ?_⟩
  rintro _ ⟨⟩
  refine ⟨seedSettled_of_quiet rfl, ?_⟩
  rintro _ ⟨⟩
  exact ⟨seedSettled_of_quiet rfl, fun _ _ => trivial⟩

theorem seeding_settles_later :
    ∃ s, runAll (seedStep exampleSeed) (seedInit {}) startLaterRun = some s ∧
      s.hosts.length = 2 ∧
      (s.store.contents .apiScopes).Perm (seededContents exampleSeed {} .apiScopes) := by
  have reach : ∀ s, runAll (seedStep exampleSeed) (seedInit {}) startLaterRun = some s →
      SeedReach exampleSeed SeedSettled {} s :=
    fun s hs => Reach.start.of_guardedRun startLaterRun_guarded hs
  refine ⟨_, rfl, rfl, ?_⟩
  exact (seeding_settles (reach _ rfl) .apiScopes).2
    ⟨_, List.mem_cons_self, List.not_mem_nil⟩ rfl rfl

end IdentityServerMongoDB
