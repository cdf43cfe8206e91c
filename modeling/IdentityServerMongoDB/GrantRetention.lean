import IdentityServerMongoDB.GrantEffects
import IdentityServerMongoDB.GrantFilter
import Mathlib.Logic.Relation

namespace IdentityServerMongoDB

/-- What a removal is asked to take away. -/
def GrantCall.Removes (call : GrantCall) (x : Entities.PersistedGrant) : Prop :=
  match call with
  | .removeAsync key => x.key = key
  | .removeAllAsync (some f) => f.Covers x
  | _ => False

/-- A removal that was asked for the grant deleted the document, or a cleanup
pass did after the grant had expired. -/
def GrantState.Removed (s : GrantState) (d : Doc) : Prop :=
  ∃ r removal, s.calls r = some removal ∧ d ∈ removal.removed ∧
    (removal.call.Removes d.grant ∨ (removal.call = .removeExpiredGrantsAsync ∧
      ∃ t, d.grant.expiration = some t ∧ t < s.utcNow))

/-- The second document was put in the place of the first, by another store of
the same key that had not ended when the first one's was made. -/
def GrantState.ReplacedBy (s : GrantState) (d d' : Doc) : Prop :=
  ∃ own store token, s.calls d.writer = some own ∧ s.calls d'.writer = some store ∧
    d'.writer ≠ d.writer ∧ store.call = .storeAsync token ∧ d'.grant = token.toEntity ∧
    d'.grant.key = d.grant.key ∧ d ∈ store.replaced ∧ own.ended d'.writer = false

/-- What has become of a document that was written: it is there, was removed, or
another was put in its place, and one that is there is neither of these. From
each replaced document to the next, the last is there or was removed. -/
structure GrantState.Accounts (s : GrantState) (d : Doc) : Prop where
  kept : d ∈ s.docs ∨ s.Removed d ∨ ∃ d', s.ReplacedBy d d'
  gone : s.Removed d ∨ (∃ d', s.ReplacedBy d d') → d ∉ s.docs
  last : ∃ d', Relation.ReflTransGen s.ReplacedBy d d' ∧ (d' ∈ s.docs ∨ s.Removed d')

theorem removes_of_removalFilter {call : GrantCall} {filter : Entities.PersistedGrant → Bool}
    (h : call.removalFilter = some filter) {x : Entities.PersistedGrant} (hx : filter x = true) :
    call.Removes x := by
  cases call with
  | removeAsync key =>
    cases Option.some.inj h
    have hkey : x.key = key := by simpa using hx
    exact hkey
  | removeAllAsync f =>
    cases f with
    | none => cases h
    | some f =>
      cases Option.some.inj h
      exact getAllWhere_iff.mp hx
  | _ => cases h

theorem taken_none {guard : GrantState → GrantEvent → Prop} {s : GrantState}
    (reach : GrantReach guard s) {i : CallId} {c : CallState} (hc : s.calls i = some c) :
    (c.removed = [] ∧ c.replaced = []) ∨ c.pc.TookEffect := by
  refine calls_invariant (P := fun c => (c.removed = [] ∧ c.replaced = []) ∨ c.pc.TookEffect)
    ?_ ?_ ?_ ?_ ?_ reach i c hc
  · exact fun _ _ => Or.inl ⟨rfl, rfl⟩
  · exact fun _ _ => Or.inl ⟨rfl, rfl⟩
  · intro i docs c c' docs' hnone he
    have hempty := hnone.resolve_right (pending_of_effect he).1
    cases he with
    | missed => exact Or.inl hempty
    | scanned => exact Or.inl hempty
    | _ => exact Or.inr trivial
  · intro utcNow c c' hnone hr
    rcases hnone with hempty | hp
    · cases hr <;> exact Or.inl hempty
    · exact Or.inr (resume_settles hp hr).tookEffect
  · intro c c' hnone hf
    have hempty := hnone.resolve_right (not_tookEffect_of_fail hf)
    cases hf <;> exact Or.inl hempty

/-- What a call has deleted or replaced it has taken away for good. -/
theorem taken_step {guard : GrantState → GrantEvent → Prop} {s s' : GrantState} {e : GrantEvent}
    (reach : GrantReach guard s) (h : GrantStepCase s e s') {r : CallId} {c : CallState}
    (hc : s.calls r = some c) {d : Doc} (hd : d ∈ c.removed ∨ d ∈ c.replaced) :
    ∃ c', s'.calls r = some c' ∧ c.Settles c' := by
  apply settles_of_step h hc
  apply (taken_none reach hc).resolve_left
  rintro ⟨hremoved, hreplaced⟩
  rw [hremoved, hreplaced] at hd
  rcases hd with hd | hd <;> cases hd

theorem removed_kept {guard : GrantState → GrantEvent → Prop} {s s' : GrantState} {e : GrantEvent}
    (reach : GrantReach guard s) (h : GrantStepCase s e s') {d : Doc} (hd : s.Removed d) :
    s'.Removed d := by
  obtain ⟨r, removal, hr, hmem, hright⟩ := hd
  obtain ⟨removal', hr', hs⟩ := taken_step reach h hr (Or.inl hmem)
  refine ⟨r, removal', hr', ?_, ?_⟩
  · rwa [hs.removed]
  · rw [hs.call]
    refine hright.imp_right ?_
    rintro ⟨hpass, t, ht, hlt⟩
    exact ⟨hpass, t, ht, Nat.lt_of_lt_of_le hlt (utcNow_step h)⟩

theorem replacedBy_kept {guard : GrantState → GrantEvent → Prop} {s s' : GrantState}
    {e : GrantEvent} (reach : GrantReach guard s) (h : GrantStepCase s e s') {d d' : Doc}
    (hd : s.ReplacedBy d d') : s'.ReplacedBy d d' := by
  obtain ⟨own, store, token, hown, hstore, hne, hcall, hgrant, hkey, hmem, hended⟩ := hd
  obtain ⟨own', hown', he⟩ := call_of_step h hown
  obtain ⟨store', hstore', hs⟩ := taken_step reach h hstore (Or.inr hmem)
  rw [← hs.replaced] at hmem
  rw [← he.ended] at hended
  exact ⟨own', store', token, hown', hstore', hne, hs.call.trans hcall, hgrant, hkey, hmem, hended⟩

/-- A call that has not written has no document in the collection. -/
theorem not_mem_docs_of_unwritten {guard : GrantState → GrantEvent → Prop} {s : GrantState}
    (reach : GrantReach guard s) {i : CallId} {c : CallState} (hc : s.calls i = some c)
    (hnot : ¬c.pc.HasWritten) (entity : Entities.PersistedGrant) : ⟨entity, i⟩ ∉ s.docs := by
  intro hmem
  obtain ⟨w, _, hw, _, _, hwritten⟩ := docs_written reach _ hmem
  rw [hc] at hw
  cases Option.some.inj hw
  exact hnot hwritten

theorem docs_nodup {guard : GrantState → GrantEvent → Prop} {s : GrantState}
    (reach : GrantReach guard s) : s.docs.Nodup := by
  induction reach with
  | start => exact List.nodup_nil
  | @next s s' e prior guard step ih =>
    cases grantStep_cases step with
    | called => exact ih
    | threw => exact ih
    | resumed => exact ih
    | failed => exact ih
    | ticked => exact ih
    | effected hc he =>
      cases he with
      | replaced hp =>
        exact nodup_replaceFirst ih (not_mem_docs_of_unwritten prior hc (by rw [hp]; exact id) _)
      | inserted hp =>
        have hnew := not_mem_docs_of_unwritten prior hc (by rw [hp]; exact id)
        refine List.nodup_append.mpr ⟨ih, List.nodup_singleton _, ?_⟩
        rintro x hx y hy rfl
        cases List.mem_singleton.mp hy
        exact hnew _ hx
      | deleted => exact ih.sublist List.filter_sublist
      | expiredDeleted => exact ih.sublist List.filter_sublist
      | missed => exact ih
      | found => exact ih
      | foundAll => exact ih
      | scanned => exact ih

/-- A document that becomes one of those a call has deleted was there, and is
deleted by this step. -/
theorem removed_of_step {s s' : GrantState} {e : GrantEvent} (h : GrantStepCase s e s')
    {r : CallId} {c c' : CallState} (hc : s.calls r = some c) (hc' : s'.calls r = some c') {d : Doc}
    (hd : d ∈ c'.removed) :
    d ∈ c.removed ∨ (d ∈ s.docs ∧ d ∉ s'.docs ∧ ¬c.pc.TookEffect ∧ c.pc ≠ .failed) := by
  cases change_of_step h hc hc' with
  | same => exact Or.inl hd
  | resumed hr => cases hr <;> exact Or.inl hd
  | failed hf => cases hf <;> exact Or.inl hd
  | effected he =>
    have hpending := pending_of_effect he
    generalize s'.docs = docs at he ⊢
    cases he with
    | deleted hp =>
      obtain ⟨hm, hf⟩ := List.mem_filter.mp hd
      refine Or.inr ⟨hm, ?_, hpending⟩
      intro hkept
      rw [(mem_deleteMany.mp hkept).2] at hf
      cases hf
    | expiredDeleted hp =>
      obtain ⟨hm, hf⟩ := List.mem_filter.mp hd
      refine Or.inr ⟨hm, ?_, hpending⟩
      intro hkept
      rw [(mem_deleteMany.mp hkept).2] at hf
      cases hf
    | _ => exact Or.inl hd

/-- So was one that becomes the one an upsert has replaced. -/
theorem replaced_of_step {guard : GrantState → GrantEvent → Prop} {s s' : GrantState}
    {e : GrantEvent} (reach : GrantReach guard s) (h : GrantStepCase s e s') {j : CallId}
    {c c' : CallState} (hc : s.calls j = some c) (hc' : s'.calls j = some c') {d : Doc}
    (hd : d ∈ c'.replaced) : d ∈ c.replaced ∨ (d ∈ s.docs ∧ d ∉ s'.docs) := by
  cases change_of_step h hc hc' with
  | same => exact Or.inl hd
  | resumed hr => cases hr <;> exact Or.inl hd
  | failed hf => cases hf <;> exact Or.inl hd
  | effected he =>
    generalize s'.docs = docs at he ⊢
    cases he with
    | replaced hp =>
      have hfind := Option.mem_toList.mp hd
      have hmem := List.mem_of_find?_eq_some hfind
      refine Or.inr ⟨hmem, not_mem_replaceFirst (docs_nodup reach) hfind ?_⟩
      rintro rfl
      exact not_mem_docs_of_unwritten reach hc (by rw [hp]; exact id) _ hmem
    | _ => exact Or.inl hd

theorem taken_gone {guard : GrantState → GrantEvent → Prop} {s : GrantState}
    (reach : GrantReach guard s) {r : CallId} {c : CallState} (hc : s.calls r = some c) {d : Doc}
    (hd : d ∈ c.removed ∨ d ∈ c.replaced) : s.Written d ∧ d ∉ s.docs := by
  induction reach generalizing c with
  | start => simp [grantInit] at hc
  | @next s s' e prior guard step ih =>
    have hcase := grantStep_cases step
    have taken : d ∈ s.docs ∧ d ∉ s'.docs → s'.Written d ∧ d ∉ s'.docs :=
      fun h => ⟨written_step hcase (docs_written prior d h.1), h.2⟩
    have stays : s.Written d ∧ d ∉ s.docs → s'.Written d ∧ d ∉ s'.docs :=
      fun h => ⟨written_step hcase h.1, fun hback => h.2 (mem_docs_before_step hcase h.1 hback)⟩
    rcases call_before_step hcase hc with ⟨c0, hc0, _⟩ | ⟨call, entry, rfl, _⟩
    · rcases hd with hremoved | hreplaced
      · rcases removed_of_step hcase hc0 hc hremoved with hold | ⟨hdocs, hgone, _⟩
        · exact stays (ih hc0 (Or.inl hold))
        · exact taken ⟨hdocs, hgone⟩
      · rcases replaced_of_step prior hcase hc0 hc hreplaced with hold | hnow
        · exact stays (ih hc0 (Or.inr hold))
        · exact taken hnow
    · rcases hd with hd | hd <;> cases hd

/-- A store that searches had not ended when any call that is there was made: it
would be past its search. -/
theorem searching_not_ended {guard : GrantState → GrantEvent → Prop} {s : GrantState}
    (reach : GrantReach guard s) {i j : CallId} {c own : CallState} {token : Models.PersistedGrant}
    {key : Option String} {entity : Entities.PersistedGrant} (hown : s.calls j = some own)
    (hc : s.calls i = some c) (hcall : c.call = .storeAsync token) (hp : c.pc = .search key entity) :
    own.ended i = false := by
  cases hended : own.ended i with
  | false => rfl
  | true =>
    obtain ⟨store, hstore, hsettled⟩ := settled_of_ended reach hown hended
    rw [hc] at hstore
    cases Option.some.inj hstore
    rcases hsettled with ⟨filter, hdelete⟩ | htook | hfailed
    · rw [hcall] at hdelete
      cases hdelete
    · rw [hp] at htook
      exact htook.elim
    · rw [hp] at hfailed
      cases hfailed

/-- A document a step takes away was deleted by a call with a right to it, or
replaced by one that is there behind the step. -/
theorem gone_of_step {guard : GrantState → GrantEvent → Prop} {s s' : GrantState} {e : GrantEvent}
    (reach : GrantReach guard s) (h : GrantStepCase s e s') {d : Doc} (hd : d ∈ s.docs) :
    d ∈ s'.docs ∨ s'.Removed d ∨ ∃ d' ∈ s'.docs, s'.ReplacedBy d d' := by
  cases h with
  | called => exact Or.inl hd
  | threw => exact Or.inl hd
  | resumed => exact Or.inl hd
  | failed => exact Or.inl hd
  | ticked => exact Or.inl hd
  | @effected i c c' docs hc he =>
    have hcon := reach_consistent reach hc
    cases he with
    | missed => exact Or.inl hd
    | found => exact Or.inl hd
    | foundAll => exact Or.inl hd
    | scanned => exact Or.inl hd
    | inserted => exact Or.inl (List.mem_append_left _ hd)
    | @deleted filter hp =>
      cases hf : filter d.grant with
      | false => exact Or.inl (mem_deleteMany.mpr ⟨hd, hf⟩)
      | true =>
        exact Or.inr (Or.inl ⟨i, _, set_calls_self .., List.mem_filter.mpr ⟨hd, hf⟩,
          Or.inl (removes_of_removalFilter (hcon.deleteMany hp) hf)⟩)
    | @expiredDeleted built hp =>
      have hcall := hcon.deleteExpired hp
      have hstage := reach_cleanupStage reach i c hc hcall
      unfold CallState.CleanupStage at hstage
      rw [hp] at hstage
      cases hf : isExpired built d.grant with
      | false => exact Or.inl (mem_deleteMany.mpr ⟨hd, hf⟩)
      | true =>
        exact Or.inr (Or.inl ⟨i, _, set_calls_self .., List.mem_filter.mpr ⟨hd, hf⟩,
          Or.inr ⟨hcall, isBefore_iff.mp (isBefore_mono hstage.2 hf)⟩⟩)
    | @replaced key entity hp ha =>
      obtain ⟨token, hcall, rfl, rfl⟩ := hcon.search hp
      rcases @mem_replaceFirst_or _ (fun x : Doc => x.grant.key = token.key)
        ⟨token.toEntity, i⟩ d s.docs hd with hkept | hfind
      · exact Or.inl hkept
      · have hkey : d.grant.key = token.key := by simpa using List.find?_some hfind
        obtain ⟨own, _, hown, _⟩ := docs_written reach d hd
        have hne : i ≠ d.writer := by
          rintro rfl
          exact not_mem_docs_of_unwritten reach hc (by rw [hp]; exact id) d.grant hd
        exact Or.inr (Or.inr ⟨⟨token.toEntity, i⟩, mem_replaceFirst_self ha, own, _, token,
          (set_calls_other s hne.symm _ _).trans hown, set_calls_self .., hne, hcall, rfl,
          (toEntity_key token).trans hkey.symm, Option.mem_toList.mpr hfind,
          searching_not_ended reach hown hc hcall hp⟩)

/-- A store that has just written has its document in the collection. -/
theorem mem_docs_of_write {guard : GrantState → GrantEvent → Prop} {s s' : GrantState}
    {e : GrantEvent} (reach : GrantReach guard s) (h : GrantStepCase s e s') {i : CallId}
    {c c' : CallState} {token : Models.PersistedGrant} (hc : s.calls i = some c)
    (hc' : s'.calls i = some c') (hcall : c.call = .storeAsync token) (hnot : ¬c.pc.HasWritten)
    (hwritten : c'.pc.HasWritten) : (⟨token.toEntity, i⟩ : Doc) ∈ s'.docs := by
  have hcon := reach_consistent reach hc
  cases change_of_step h hc hc' with
  | same => exact absurd hwritten hnot
  | failed hf => cases hf <;> exact hwritten.elim
  | effected he =>
    generalize s'.docs = docs at he ⊢
    cases he with
    | @replaced key entity hp ha =>
      obtain ⟨stored, hstored, rfl, rfl⟩ := hcon.search hp
      rw [hcall] at hstored
      cases hstored
      exact mem_replaceFirst_self ha
    | inserted hp =>
      obtain ⟨stored, hstored, rfl⟩ := hcon.insert hp
      rw [hcall] at hstored
      cases hstored
      exact List.mem_append_right _ List.mem_cons_self
    | found hp => cases hcall.symm.trans (hcon.find hp)
    | foundAll hp => cases hcall.symm.trans (hcon.findAll hp)
    | missed => exact hwritten.elim
    | deleted => exact hwritten.elim
    | scanned => exact hwritten.elim
    | expiredDeleted => exact hwritten.elim
  | resumed hr =>
    unfold CallState.Consistent at hcon
    cases hr with
    | stored hp =>
      rw [hp] at hnot
      exact absurd trivial hnot
    | none hp =>
      rw [hp] at hcon
      cases hcall.symm.trans hcon
    | cleaned hp =>
      rw [hp] at hcon
      cases hcall.symm.trans hcon
    | asked => exact hwritten.elim
    | some => exact hwritten.elim

/-- A document that is written by now, and was not before the step, is there. -/
theorem mem_docs_of_written {guard : GrantState → GrantEvent → Prop} {s s' : GrantState}
    {e : GrantEvent} (reach : GrantReach guard s) (h : GrantStepCase s e s') {d : Doc}
    (hnot : ¬s.Written d) (hw : s'.Written d) : d ∈ s'.docs := by
  obtain ⟨c, token, hc, hcall, hgrant, hwritten⟩ := hw
  have hd : d = ⟨token.toEntity, d.writer⟩ := by rw [← hgrant]
  rcases call_before_step h hc with ⟨c0, hc0, he⟩ | ⟨call, entry, rfl, hentry⟩
  · have hcall0 := he.call.symm.trans hcall
    rw [hd]
    exact mem_docs_of_write reach h hc0 hc hcall0
      (fun hold => hnot ⟨c0, token, hc0, hcall0, hgrant, hold⟩) hwritten
  · have hstore : call = .storeAsync token := hcall
    subst call
    rcases hentry with ⟨_, rfl⟩ | rfl <;> exact hwritten.elim

/-- Followed from one document to the one put in its place, what was written is
still there or was removed. -/
theorem last_of_written {guard : GrantState → GrantEvent → Prop} {s : GrantState}
    (reach : GrantReach guard s) {d : Doc} (hw : s.Written d) :
    ∃ d', Relation.ReflTransGen s.ReplacedBy d d' ∧ (d' ∈ s.docs ∨ s.Removed d') := by
  induction reach with
  | start =>
    obtain ⟨c, _, hc, _⟩ := hw
    simp [grantInit] at hc
  | @next s s' e prior guard step ih =>
    have hcase := grantStep_cases step
    by_cases hold : s.Written d
    · obtain ⟨d', hchain, hlast⟩ := ih hold
      have hchain' : Relation.ReflTransGen s'.ReplacedBy d d' :=
        Relation.ReflTransGen.mono (fun _ _ hr => replacedBy_kept prior hcase hr) _ _ hchain
      rcases hlast with hmem | hremoved
      · rcases gone_of_step prior hcase hmem with hkept | hremoved | ⟨next, hnext, hreplaced⟩
        · exact ⟨d', hchain', Or.inl hkept⟩
        · exact ⟨d', hchain', Or.inr hremoved⟩
        · exact ⟨next, hchain'.tail hreplaced, Or.inl hnext⟩
      · exact ⟨d', hchain', Or.inr (removed_kept prior hcase hremoved)⟩
    · exact ⟨d, Relation.ReflTransGen.refl, Or.inl (mem_docs_of_written prior hcase hold hw)⟩

/-- In every run, whatever a store has written is in the collection, unless a
removal asked for it, a cleanup pass met it expired, or a store of the same key
that had not ended when this one was made put its own in its place; and of the
documents put in one another's place the last is there or was removed so. -/
theorem stored_grant_kept {guard : GrantState → GrantEvent → Prop} {s : GrantState}
    (reach : GrantReach guard s) {i : CallId} {c : CallState} {token : Models.PersistedGrant}
    (hc : s.calls i = some c) (hcall : c.call = .storeAsync token) (hwritten : c.pc.HasWritten) :
    s.Accounts ⟨token.toEntity, i⟩ := by
  have hlast := last_of_written reach
    (show s.Written ⟨token.toEntity, i⟩ from ⟨c, token, hc, hcall, rfl, hwritten⟩)
  refine ⟨?_, ?_, hlast⟩
  · obtain ⟨d', hchain, hend⟩ := hlast
    rcases hchain.cases_head with rfl | ⟨next, hreplaced, _⟩
    · exact hend.imp_right Or.inl
    · exact Or.inr (Or.inr ⟨next, hreplaced⟩)
  · rintro (⟨r, removal, hr, hmem, _⟩ | ⟨d', _, store, _, _, hstore, _, _, _, _, hmem, _⟩)
    · exact (taken_gone reach hr (Or.inl hmem)).2
    · exact (taken_gone reach hstore (Or.inr hmem)).2

/-- The document of the first store of two is no longer there: that of the second
was put in its place. -/
theorem stored_grant_kept_two_stores :
    ∃ s, runAll grantStep grantInit storeTwiceRun = some s ∧
      ∀ d : Doc, d = ⟨Models.PersistedGrant.toEntity { key := some "k", data := some "a" }, 0⟩ →
        d ∉ s.docs ∧ s.Accounts d := by
  have reach : ∀ s, runAll grantStep grantInit storeTwiceRun = some s → GrantReach anyStep s :=
    fun s hs => Reach.start.of_runAll hs
  refine ⟨_, rfl, ?_⟩
  rintro d rfl
  exact ⟨by decide, @stored_grant_kept _ _ (reach _ rfl) 0 _ { key := some "k", data := some "a" }
    rfl rfl trivial⟩

end IdentityServerMongoDB
