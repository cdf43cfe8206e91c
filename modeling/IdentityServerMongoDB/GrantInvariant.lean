import IdentityServerMongoDB.GrantSteps

namespace IdentityServerMongoDB

open Models (PersistedGrantFilter)

/-- The documents a removal is to delete. -/
def GrantCall.removalFilter : GrantCall → Option (Entities.PersistedGrant → Bool)
  | .removeAsync key => some (fun x => x.key = key)
  | .removeAllAsync (some filter) => some (removeAllWhere filter)
  | _ => none

/-- The place in the code is one of the call's own method. -/
def CallState.Consistent (c : CallState) : Prop :=
  match c.pc with
  | .search key entity =>
    ∃ token, c.call = .storeAsync token ∧ key = token.key ∧ entity = token.toEntity
  | .insert entity => ∃ token, c.call = .storeAsync token ∧ entity = token.toEntity
  | .stored => ∃ token, c.call = .storeAsync token
  | .find key => c.call = .getAsync key
  | .findAll filter => c.call = .getAllAsync (some filter)
  | .deleteMany filter => c.call.removalFilter = some filter
  | .deleted => ∃ filter, c.call.removalFilter = some filter
  | .query | .scan _ | .scanned _ | .deleteExpired _ | .expiredDeleted =>
    c.call = .removeExpiredGrantsAsync
  | .finished | .failed => True

section Consistent

variable {c : CallState}

theorem CallState.Consistent.search (h : c.Consistent) {key : Option String}
    {entity : Entities.PersistedGrant} (hp : c.pc = .search key entity) :
    ∃ token, c.call = .storeAsync token ∧ key = token.key ∧ entity = token.toEntity := by
  unfold CallState.Consistent at h
  rwa [hp] at h

/-- An upsert searches for the key of the document it writes. -/
theorem CallState.Consistent.search_key (h : c.Consistent) {key : Option String}
    {entity : Entities.PersistedGrant} (hp : c.pc = .search key entity) : entity.key = key := by
  obtain ⟨token, _, hkey, hentity⟩ := h.search hp
  rw [hentity, toEntity_key, hkey]

theorem CallState.Consistent.insert (h : c.Consistent) {entity : Entities.PersistedGrant}
    (hp : c.pc = .insert entity) : ∃ token, c.call = .storeAsync token ∧ entity = token.toEntity := by
  unfold CallState.Consistent at h
  rwa [hp] at h

theorem CallState.Consistent.stored (h : c.Consistent) (hp : c.pc = .stored) :
    ∃ token, c.call = .storeAsync token := by
  unfold CallState.Consistent at h
  rwa [hp] at h

theorem CallState.Consistent.find (h : c.Consistent) {key : Option String} (hp : c.pc = .find key) :
    c.call = .getAsync key := by
  unfold CallState.Consistent at h
  rwa [hp] at h

theorem CallState.Consistent.findAll (h : c.Consistent) {filter : PersistedGrantFilter}
    (hp : c.pc = .findAll filter) : c.call = .getAllAsync (some filter) := by
  unfold CallState.Consistent at h
  rwa [hp] at h

theorem CallState.Consistent.deleteMany (h : c.Consistent)
    {filter : Entities.PersistedGrant → Bool} (hp : c.pc = .deleteMany filter) :
    c.call.removalFilter = some filter := by
  unfold CallState.Consistent at h
  rwa [hp] at h

theorem CallState.Consistent.deleteExpired (h : c.Consistent) {built : DateTime}
    (hp : c.pc = .deleteExpired built) : c.call = .removeExpiredGrantsAsync := by
  unfold CallState.Consistent at h
  rwa [hp] at h

end Consistent

theorem validate_ok_eq {filter : Option PersistedGrantFilter} {f : PersistedGrantFilter}
    (h : validate filter = .ok f) : filter = some f := by
  unfold validate at h
  split at h
  next => simp at h
  next =>
    split at h
    next => simp at h
    next => rw [Except.ok.inj h]

/-- The places in the code a call can be at before it first waits. -/
def Pc.AtStart : Pc → Prop
  | .search _ _ | .find _ | .findAll _ | .deleteMany _ | .query | .finished => True
  | _ => False

theorem start_atStart (call : GrantCall) : call.start.1.AtStart := by
  cases call with
  | getAllAsync filter =>
    simp only [GrantCall.start]
    split <;> trivial
  | removeAllAsync filter =>
    simp only [GrantCall.start]
    split <;> trivial
  | _ => trivial

theorem newCall_consistent (s : GrantState) (call : GrantCall) :
    (s.newCall call call.start).Consistent := by
  cases call with
  | storeAsync token => exact ⟨token, rfl, rfl, rfl⟩
  | getAsync key => rfl
  | getAllAsync filter =>
    cases hv : validate filter with
    | error e => simp [CallState.Consistent, GrantState.newCall, GrantCall.start, hv]
    | ok f =>
      have hf := validate_ok_eq hv
      subst filter
      simp [CallState.Consistent, GrantState.newCall, GrantCall.start, hv]
  | removeAsync key => rfl
  | removeAllAsync filter =>
    cases hv : validate filter with
    | error e => simp [CallState.Consistent, GrantState.newCall, GrantCall.start, hv]
    | ok f =>
      have hf := validate_ok_eq hv
      subst filter
      simp [CallState.Consistent, GrantState.newCall, GrantCall.start, hv, GrantCall.removalFilter]
  | removeExpiredGrantsAsync => rfl

theorem thrownCall_pc (s : GrantState) (call : GrantCall) :
    (s.newCall call call.thrown).pc = .failed := by
  cases call <;> rfl

/-- What holds of every call when it is made and is kept by whatever it does
next holds of every call in every run. -/
theorem calls_invariant {P : CallState → Prop} {guard : GrantState → GrantEvent → Prop}
    (called : ∀ s call, P (GrantState.newCall s call call.start))
    (threw : ∀ s call, P (GrantState.newCall s call call.thrown))
    (effected : ∀ i docs c c' docs', P c → EffectCase i docs c c' docs' → P c')
    (resumed : ∀ utcNow c c', P c → ResumeCase utcNow c c' → P c')
    (failed : ∀ c c', P c → FailCase c c' → P c')
    {s : GrantState} (reach : GrantReach guard s) :
    ∀ i c, s.calls i = some c → P c := by
  have update : ∀ (s : GrantState) i c docs, (∀ j d, s.calls j = some d → P d) → P c →
      ∀ j d, (s.set i c docs).calls j = some d → P d := by
    intro s i c docs hs hc j d hd
    rcases set_calls_some hd with ⟨_, rfl⟩ | ⟨_, hold⟩
    · exact hc
    · exact hs j d hold
  refine reach.invariant (I := fun s => ∀ i c, s.calls i = some c → P c) ?_ ?_
  · intro i c hc
    simp [grantInit] at hc
  · intro s e s' hs _ hstep
    cases grantStep_cases hstep with
    | called call => exact update s _ _ _ hs (called s call)
    | threw call => exact update s _ _ _ hs (threw s call)
    | effected hc he => exact update s _ _ _ hs (effected _ _ _ _ _ (hs _ _ hc) he)
    | resumed hc hr => exact update s _ _ _ hs (resumed _ _ _ (hs _ _ hc) hr)
    | failed hc hf => exact update s _ _ _ hs (failed _ _ (hs _ _ hc) hf)
    | ticked => exact hs

theorem effect_consistent {i : CallId} {docs docs' : List Doc} {c c' : CallState}
    (hc : c.Consistent) (h : EffectCase i docs c c' docs') : c'.Consistent := by
  cases h with
  | replaced hp =>
    obtain ⟨token, hcall, _⟩ := hc.search hp
    exact ⟨token, hcall⟩
  | missed hp =>
    obtain ⟨token, hcall, _, hentity⟩ := hc.search hp
    exact ⟨token, hcall, hentity⟩
  | inserted hp =>
    obtain ⟨token, hcall, _⟩ := hc.insert hp
    exact ⟨token, hcall⟩
  | found => trivial
  | foundAll => trivial
  | deleted hp => exact ⟨_, hc.deleteMany hp⟩
  | scanned hp =>
    unfold CallState.Consistent at hc
    rwa [hp] at hc
  | expiredDeleted hp => exact hc.deleteExpired hp

theorem resume_consistent {utcNow : DateTime} {c c' : CallState} (hc : c.Consistent)
    (h : ResumeCase utcNow c c') : c'.Consistent := by
  unfold CallState.Consistent at hc
  cases h with
  | stored => trivial
  | asked hp => rw [hp] at hc; exact hc
  | some hp => rw [hp] at hc; exact hc
  | none => trivial
  | cleaned => trivial

theorem fail_consistent {c c' : CallState} (h : FailCase c c') : c'.Consistent := by
  cases h <;> trivial

theorem reach_consistent {guard : GrantState → GrantEvent → Prop} {s : GrantState}
    (reach : GrantReach guard s) {i : CallId} {c : CallState} (hc : s.calls i = some c) :
    c.Consistent := by
  refine calls_invariant (P := CallState.Consistent) newCall_consistent ?_
    (fun _ _ _ _ _ hc he => effect_consistent hc he) (fun _ _ _ hc hr => resume_consistent hc hr)
    (fun _ _ _ hf => fail_consistent hf) reach i c hc
  intro s call
  simp [CallState.Consistent, thrownCall_pc]

/-- A document that was not there before the step was written by it, in the
upsert of the document's writer. -/
theorem mem_docs_of_step {s s' : GrantState} {e : GrantEvent} (h : GrantStepCase s e s') {d : Doc}
    (hd : d ∈ s'.docs) :
    d ∈ s.docs ∨ ∃ c c', e = .effect d.writer ∧ s.calls d.writer = some c ∧
      s'.calls d.writer = some c' ∧ c'.call = c.call ∧ c'.pc = .stored ∧
      (c.pc = .insert d.grant ∨
        ∃ key, c.pc = .search key d.grant ∧ s.docs.any (fun x => x.grant.key = key) = true) := by
  cases h with
  | called => exact Or.inl hd
  | threw => exact Or.inl hd
  | resumed => exact Or.inl hd
  | failed => exact Or.inl hd
  | ticked => exact Or.inl hd
  | effected hc he =>
    cases he with
    | replaced hp ha =>
      rcases mem_of_mem_replaceFirst hd with hnew | hold
      · subst d
        exact Or.inr ⟨_, _, rfl, hc, set_calls_self .., rfl, rfl, Or.inr ⟨_, hp, ha⟩⟩
      · exact Or.inl hold
    | missed => exact Or.inl hd
    | inserted hp =>
      rcases List.mem_append.mp hd with hold | hnew
      · exact Or.inl hold
      · cases List.mem_singleton.mp hnew
        exact Or.inr ⟨_, _, rfl, hc, set_calls_self .., rfl, rfl, Or.inl hp⟩
    | found => exact Or.inl hd
    | foundAll => exact Or.inl hd
    | deleted => exact Or.inl (mem_deleteMany.mp hd).1
    | scanned => exact Or.inl hd
    | expiredDeleted => exact Or.inl (mem_deleteMany.mp hd).1

end IdentityServerMongoDB
