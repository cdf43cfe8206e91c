import IdentityServerMongoDB.GrantInvariant

namespace IdentityServerMongoDB

def OneDocumentPerKey (s : GrantState) : Prop :=
  KeysUnique (fun d => d.grant.key) s.docs

/-- When the search of an upsert finds nothing, no other upsert of the same key
is between its own search and its insert. -/
def NoRivalUpsert (s : GrantState) (e : GrantEvent) : Prop :=
  ∀ i c key entity, e = .effect i → s.calls i = some c → c.pc = .search key entity →
    s.docs.any (fun d => d.grant.key = key) = false →
    ∀ j c' rival, s.calls j = some c' → c'.pc = .insert rival → rival.key ≠ key

structure UpsertInv (s : GrantState) : Prop where
  consistent : ∀ i c, s.calls i = some c → c.Consistent
  unique : OneDocumentPerKey s
  absent : ∀ i c entity, s.calls i = some c → c.pc = .insert entity →
    ∀ d ∈ s.docs, d.grant.key ≠ entity.key
  alone : ∀ i j c c' entity rival, i ≠ j → s.calls i = some c → s.calls j = some c' →
    c.pc = .insert entity → c'.pc = .insert rival → entity.key ≠ rival.key

/-- A call waits for its insert because it did before, or because this step was
its search and found nothing. -/
theorem insert_of_step {s s' : GrantState} {e : GrantEvent} (h : GrantStepCase s e s') {j : CallId}
    {c' : CallState} {entity : Entities.PersistedGrant} (hc' : s'.calls j = some c')
    (hp' : c'.pc = .insert entity) :
    s.calls j = some c' ∨ ∃ c key, e = .effect j ∧ s.calls j = some c ∧
      c.pc = .search key entity ∧ s.docs.any (fun d => d.grant.key = key) = false ∧
      s'.docs = s.docs := by
  have fresh : ∀ call : GrantCall, call.start.1 ≠ .insert entity := by
    intro call hcall
    have hstart := start_atStart call
    rw [hcall] at hstart
    exact hstart
  cases h with
  | called call =>
    rcases set_calls_some hc' with ⟨_, rfl⟩ | ⟨_, hold⟩
    · exact absurd hp' (fresh call)
    · exact Or.inl hold
  | threw call =>
    rcases set_calls_some hc' with ⟨_, rfl⟩ | ⟨_, hold⟩
    · rw [thrownCall_pc] at hp'
      cases hp'
    · exact Or.inl hold
  | @effected i c c1 docs hc he =>
    rcases set_calls_some hc' with ⟨rfl, rfl⟩ | ⟨_, hold⟩
    · cases he with
      | @missed key entity' hp ha =>
        have heq : entity' = entity := Pc.insert.inj hp'
        subst entity'
        exact Or.inr ⟨c, key, rfl, hc, hp, ha, rfl⟩
      | _ => cases hp'
    · exact Or.inl hold
  | resumed hc hr =>
    rcases set_calls_some hc' with ⟨_, rfl⟩ | ⟨_, hold⟩
    · cases hr <;> cases hp'
    · exact Or.inl hold
  | failed hc hf =>
    rcases set_calls_some hc' with ⟨_, rfl⟩ | ⟨_, hold⟩
    · cases hf <;> cases hp'
    · exact Or.inl hold
  | ticked => exact Or.inl hc'

theorem unique_step {s s' : GrantState} {e : GrantEvent} (inv : UpsertInv s)
    (h : GrantStepCase s e s') : OneDocumentPerKey s' := by
  cases h with
  | called => exact inv.unique
  | threw => exact inv.unique
  | resumed => exact inv.unique
  | failed => exact inv.unique
  | ticked => exact inv.unique
  | @effected i c c' docs hc he =>
    cases he with
    | @replaced key entity hp ha =>
      have hkey := (inv.consistent i c hc).search_key hp
      have hmap : (replaceFirst (fun d : Doc => d.grant.key = key) ⟨entity, i⟩ s.docs).map
          (fun d => d.grant.key) = s.docs.map (fun d => d.grant.key) :=
        map_key_replaceFirst (by exact hkey) s.docs
      change (List.map _ (replaceFirst _ _ _)).Nodup
      rw [hmap]
      exact inv.unique
    | missed => exact inv.unique
    | inserted hp => exact keysUnique_append inv.unique (inv.absent i c _ hc hp)
    | found => exact inv.unique
    | foundAll => exact inv.unique
    | deleted => exact keysUnique_deleteMany inv.unique _
    | scanned => exact inv.unique
    | expiredDeleted => exact keysUnique_deleteMany inv.unique _

theorem absent_step {s s' : GrantState} {e : GrantEvent} (inv : UpsertInv s)
    (h : GrantStepCase s e s') {j : CallId} {c' : CallState} {entity : Entities.PersistedGrant}
    (hc' : s'.calls j = some c') (hp' : c'.pc = .insert entity) :
    ∀ d ∈ s'.docs, d.grant.key ≠ entity.key := by
  intro d hd
  rcases insert_of_step h hc' hp' with hold | ⟨c, key, _, hc, hp, ha, hdocs⟩
  · rcases mem_docs_of_step h hd with hmem | ⟨w, w', _, hw, hw', _, hstored, hwrite⟩
    · exact inv.absent j c' entity hold hp' d hmem
    · -- the document is new: its writer is another call, as this one still waits
      have hne : d.writer ≠ j := by
        intro heq
        rw [heq, hc'] at hw'
        cases Option.some.inj hw'
        rw [hp'] at hstored
        cases hstored
      rcases hwrite with hins | ⟨key, hsearch, hany⟩
      · exact inv.alone _ _ _ _ _ _ hne hw hold hins hp'
      · obtain ⟨x, hx, hxk⟩ := List.any_eq_true.mp hany
        have hkey := (inv.consistent _ _ hw).search_key hsearch
        have hxd : x.grant.key = key := by simpa using hxk
        rw [hkey, ← hxd]
        exact inv.absent j c' entity hold hp' x hx
  · have hkey := (inv.consistent j c hc).search_key hp
    rw [hdocs] at hd
    rw [hkey]
    simpa using List.any_eq_false.mp ha d hd

theorem alone_step {s s' : GrantState} {e : GrantEvent} (inv : UpsertInv s)
    (guard : NoRivalUpsert s e) (h : GrantStepCase s e s') {i j : CallId} {c c' : CallState}
    {entity rival : Entities.PersistedGrant} (hne : i ≠ j) (hc : s'.calls i = some c)
    (hc' : s'.calls j = some c') (hp : c.pc = .insert entity) (hp' : c'.pc = .insert rival) :
    entity.key ≠ rival.key := by
  have entered : ∀ (i j : CallId) (c0 c' : CallState) (key : Option String)
      (entity rival : Entities.PersistedGrant), e = .effect i → s.calls i = some c0 →
      c0.pc = .search key entity → s.docs.any (fun d => d.grant.key = key) = false →
      s.calls j = some c' → c'.pc = .insert rival → rival.key ≠ entity.key := by
    intro i j c0 c' key entity rival he hc0 hs ha hold hr
    rw [(inv.consistent i c0 hc0).search_key hs]
    exact guard i c0 key entity he hc0 hs ha j c' rival hold hr
  rcases insert_of_step h hc hp with hold | ⟨c0, key, he, hc0, hs, ha, _⟩
  · rcases insert_of_step h hc' hp' with hold' | ⟨c0, key, he, hc0, hs, ha, _⟩
    · exact inv.alone i j c c' entity rival hne hold hold' hp hp'
    · exact entered j i c0 c key rival entity he hc0 hs ha hold hp
  · rcases insert_of_step h hc' hp' with hold' | ⟨_, _, he', _⟩
    · exact (entered i j c0 c' key entity rival he hc0 hs ha hold' hp').symm
    · rw [he] at he'
      exact absurd (GrantEvent.effect.inj he') hne

theorem upsertInv_init : UpsertInv grantInit where
  consistent := by simp [grantInit]
  unique := List.nodup_nil
  absent := by simp [grantInit]
  alone := by simp [grantInit]

theorem upsertInv_of_reach {s : GrantState} (reach : GrantReach NoRivalUpsert s) : UpsertInv s := by
  induction reach with
  | start => exact upsertInv_init
  | next prior guard step ih =>
    have hcase := grantStep_cases step
    refine ⟨?_, unique_step ih hcase, ?_, ?_⟩
    · exact fun _ _ hc => reach_consistent (prior.next guard step) hc
    · exact fun _ _ _ hc hp => absent_step ih hcase hc hp
    · exact fun _ _ _ _ _ _ hne hc hc' hp hp' => alone_step ih guard hcase hne hc hc' hp hp'

/-- In every run in which no two upserts of one key are both about to insert,
every state has at most one document for each key. -/
theorem one_document_per_key {s : GrantState} (reach : GrantReach NoRivalUpsert s) :
    OneDocumentPerKey s :=
  (upsertInv_of_reach reach).unique

/-- A state in which no upsert is about to insert lets every step pass. -/
theorem noRivalUpsert_of_none {s : GrantState} {e : GrantEvent}
    (h : ∀ j c rival, s.calls j = some c → c.pc ≠ .insert rival) : NoRivalUpsert s e :=
  fun _ _ _ _ _ _ _ _ j c rival hc hp => absurd hp (h j c rival hc)

/-- The first store of two is done with its insert when the second searches. -/
def storeTwiceRun : List GrantEvent :=
  [.call 0 (.storeAsync { key := some "k", data := some "a" }),
    .call 1 (.storeAsync { key := some "k", data := some "b" }),
    .effect 0, .effect 0, .effect 1]

theorem storeTwiceRun_guarded : GuardedRun grantStep NoRivalUpsert grantInit storeTwiceRun := by
  refine ⟨noRivalUpsert_of_none (by simp [grantInit]), ?_⟩
  rintro _ ⟨⟩
  refine ⟨?_, ?_⟩
  · apply noRivalUpsert_of_none
    intro j c rival hc hp
    rcases set_calls_some hc with ⟨_, rfl⟩ | ⟨_, hc⟩
    · cases hp
    · simp [grantInit] at hc
  rintro _ ⟨⟩
  refine ⟨?_, ?_⟩
  · apply noRivalUpsert_of_none
    intro j c rival hc hp
    rcases set_calls_some hc with ⟨_, rfl⟩ | ⟨_, hc⟩
    · cases hp
    rcases set_calls_some hc with ⟨_, rfl⟩ | ⟨_, hc⟩
    · cases hp
    · simp [grantInit] at hc
  rintro _ ⟨⟩
  refine ⟨?_, ?_⟩
  · -- the first store is past its search
    intro i c key entity he hc hp
    cases GrantEvent.effect.inj he
    cases Option.some.inj hc
    cases hp
  rintro _ ⟨⟩
  refine ⟨?_, fun _ _ => trivial⟩
  -- the search of the second store finds the document of the first
  intro i c key entity he hc hp ha
  cases GrantEvent.effect.inj he
  cases Option.some.inj hc
  cases hp
  exact absurd ha (by decide)

theorem one_document_per_key_two_stores :
    ∃ s, runAll grantStep grantInit storeTwiceRun = some s ∧
      s.docs.map (fun d => d.grant.data) = [some "b"] ∧ OneDocumentPerKey s :=
  ⟨_, rfl, rfl, one_document_per_key (Reach.start.of_guardedRun storeTwiceRun_guarded rfl)⟩

/-- Two clients store the same key at once: both searches find nothing, and both inserts succeed. -/
theorem rival_upserts_duplicate :
    ∃ s, GrantReach anyStep s ∧ ¬OneDocumentPerKey s := by
  have reach : ∃ s, GrantReach anyStep s ∧
      decide (s.docs.map (fun d => d.grant.key) = [some "k", some "k"]) = true :=
    exists_reach_of_runAll
      [.call 0 (.storeAsync { key := some "k", data := some "a" }),
        .call 1 (.storeAsync { key := some "k", data := some "b" }),
        .effect 0, .effect 1, .effect 0, .effect 1] _ (by decide)
  obtain ⟨s, hr, hd⟩ := reach
  refine ⟨s, hr, ?_⟩
  intro h
  have hk : s.docs.map (fun d => d.grant.key) = [some "k", some "k"] := by simpa using hd
  unfold OneDocumentPerKey KeysUnique at h
  rw [hk] at h
  simp at h

end IdentityServerMongoDB
