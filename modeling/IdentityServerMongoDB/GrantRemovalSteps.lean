import IdentityServerMongoDB.GrantDocuments

namespace IdentityServerMongoDB

/-- Removals are ordered with the calls made after they completed: such a read
returns nothing that was there when the removal was called and that it is to
delete, and nothing such a store wrote is deleted by it. A grant stored again
is another document. -/
def RemovalOrdered (s : GrantState) : Prop :=
  ∀ r removal filter, s.calls r = some removal → removal.call.removalFilter = some filter →
    (∀ q read, s.calls q = some read → read.after r = true →
      ∀ d ∈ read.returned, d ∈ removal.atCall → filter d.grant = false) ∧
    (∀ d ∈ removal.removed, ∀ store, s.calls d.writer = some store → store.after r = false)

/-- While the delete of a removal that has completed for its caller is still to
take effect, or has failed, no read of a document it was to delete is started,
and while it is to take effect no store of a grant it deletes. -/
def NoOutstandingRemoval (s : GrantState) (e : GrantEvent) : Prop :=
  ∀ i call r removal filter, e = .call i call → s.calls r = some removal →
    removal.task = .completed → removal.call.removalFilter = some filter →
    (removal.pc ≠ .deleted → ∀ d ∈ s.docs, d ∈ removal.atCall → call.start.1.Reads d.grant →
      filter d.grant = false) ∧
    (removal.pc = .deleteMany filter → ∀ token, call = .storeAsync token →
      filter token.toEntity = false)

structure RemovalInv (s : GrantState) : Prop where
  known : ∀ i c r, s.calls i = some c → c.after r = true → ∃ removal, s.calls r = some removal
  deleted : ∀ r removal filter, s.calls r = some removal →
    removal.call.removalFilter = some filter → removal.pc = .deleted →
    ∀ d ∈ s.docs, d ∈ removal.atCall → filter d.grant = false
  unread : ∀ r removal filter q read, s.calls r = some removal →
    removal.call.removalFilter = some filter → s.calls q = some read → read.after r = true →
    ∀ d ∈ s.docs, d ∈ removal.atCall → read.pc.Reads d.grant → filter d.grant = false
  unstored : ∀ r removal filter w store token, s.calls r = some removal →
    removal.pc = .deleteMany filter → s.calls w = some store → store.after r = true →
    store.call = .storeAsync token → store.pc ≠ .failed → filter token.toEntity = false
  ordered : RemovalOrdered s

theorem removalInv_init : RemovalInv grantInit where
  known := by simp [grantInit]
  deleted := by simp [grantInit]
  unread := by simp [grantInit]
  unstored := by simp [grantInit]
  ordered := by simp [RemovalOrdered, grantInit]

theorem task_of_completed {s : GrantState} {r : CallId} (h : s.completed r = true) :
    ∃ c, s.calls r = some c ∧ c.task = .completed := by
  unfold GrantState.completed at h
  split at h
  next => simp at h
  next c hc => exact ⟨c, hc, by simpa using h⟩

theorem known_step {s s' : GrantState} {e : GrantEvent} (inv : RemovalInv s)
    (h : GrantStepCase s e s') {i r : CallId} {c' : CallState} (hc' : s'.calls i = some c')
    (ha : c'.after r = true) : ∃ c, s.calls r = some c := by
  rcases call_before_step h hc' with ⟨c, hc, he⟩ | ⟨call, entry, rfl, _⟩
  · rw [he.after] at ha
    exact inv.known i c r hc ha
  · obtain ⟨c, hc, _⟩ := task_of_completed ha
    exact ⟨c, hc⟩

/-- A removal that a call came after was made before this step. -/
theorem removal_before_step {s s' : GrantState} {e : GrantEvent} (inv : RemovalInv s)
    (h : GrantStepCase s e s') {i r : CallId} {c' removal' : CallState}
    (hc' : s'.calls i = some c') (ha : c'.after r = true) (hr' : s'.calls r = some removal') :
    ∃ removal, s.calls r = some removal ∧ removal.Evolves s.docs s'.docs removal' := by
  obtain ⟨removal, hr⟩ := known_step inv h hc' ha
  exact ⟨removal, hr, evolves_of_step h hr hr'⟩

/-- The guard as it speaks of a call that comes after a removal. -/
theorem outstanding_of_after {s : GrantState} {i r : CallId} {call : GrantCall}
    {removal : CallState} {filter : Entities.PersistedGrant → Bool}
    (outstanding : NoOutstandingRemoval s (.call i call)) (hr : s.calls r = some removal)
    (hf : removal.call.removalFilter = some filter) (ha : s.completed r = true) :
    (removal.pc ≠ .deleted → ∀ d ∈ s.docs, d ∈ removal.atCall → call.start.1.Reads d.grant →
      filter d.grant = false) ∧
    (removal.pc = .deleteMany filter → ∀ token, call = .storeAsync token →
      filter token.toEntity = false) := by
  obtain ⟨c, hc, htask⟩ := task_of_completed ha
  rw [hr] at hc
  cases Option.some.inj hc
  exact outstanding i call r removal filter rfl hr htask hf

theorem deleted_step {guard : GrantState → GrantEvent → Prop} {s s' : GrantState} {e : GrantEvent}
    (reach : GrantReach guard s) (inv : RemovalInv s) (h : GrantStepCase s e s') {r : CallId}
    {removal' : CallState} {filter : Entities.PersistedGrant → Bool}
    (hr' : s'.calls r = some removal') (hf : removal'.call.removalFilter = some filter)
    (hp : removal'.pc = .deleted) :
    ∀ d ∈ s'.docs, d ∈ removal'.atCall → filter d.grant = false := by
  intro d hd hat
  rcases call_before_step h hr' with ⟨removal, hr, he⟩ | ⟨call, entry, rfl, hentry⟩
  · rw [he.call] at hf
    rw [he.atCall] at hat
    rcases he.deleted hp with was | ⟨own, hpending, hdocs⟩
    · have hold := mem_docs_before_step h (met_written reach hr (Or.inl hat)) hd
      exact inv.deleted r removal filter hr hf was d hold hat
    · have hown := (reach_consistent reach hr).deleteMany hpending
      cases Option.some.inj (hf.symm.trans hown)
      rw [hdocs] at hd
      exact (mem_deleteMany.mp hd).2
  · rcases hentry with ⟨_, rfl⟩ | rfl
    · have hstart := start_atStart call
      have hpc : call.start.1 = .deleted := hp
      rw [hpc] at hstart
      exact hstart.elim
    · rw [thrownCall_pc] at hp
      cases hp

theorem unread_step {guard : GrantState → GrantEvent → Prop} {s s' : GrantState} {e : GrantEvent}
    (reach : GrantReach guard s) (inv : RemovalInv s) (outstanding : NoOutstandingRemoval s e)
    (h : GrantStepCase s e s') {r q : CallId} {removal' read' : CallState}
    {filter : Entities.PersistedGrant → Bool}
    (hr' : s'.calls r = some removal') (hf : removal'.call.removalFilter = some filter)
    (hq' : s'.calls q = some read') (ha : read'.after r = true) :
    ∀ d ∈ s'.docs, d ∈ removal'.atCall → read'.pc.Reads d.grant → filter d.grant = false := by
  intro d hd hat hreads
  obtain ⟨removal, hr, he⟩ := removal_before_step inv h hq' ha hr'
  rw [he.call] at hf
  rw [he.atCall] at hat
  have hold := mem_docs_before_step h (met_written reach hr (Or.inl hat)) hd
  rcases call_before_step h hq' with ⟨read, hq, hqe⟩ | ⟨call, entry, rfl, hentry⟩
  · rw [hqe.after] at ha
    exact inv.unread r removal filter q read hr hf hq ha d hold hat (hqe.reads _ hreads)
  · rcases hentry with ⟨rfl, rfl⟩ | rfl
    · -- the read starts here: either the delete is past, or the guard speaks of it
      by_cases hp : removal.pc = .deleted
      · exact inv.deleted r removal filter hr hf hp d hold hat
      · exact (outstanding_of_after outstanding hr hf ha).1 hp d hold hat hreads
    · rw [thrownCall_pc] at hreads
      exact hreads.elim

theorem unstored_step {guard : GrantState → GrantEvent → Prop} {s s' : GrantState} {e : GrantEvent}
    (reach : GrantReach guard s) (inv : RemovalInv s) (outstanding : NoOutstandingRemoval s e)
    (h : GrantStepCase s e s') {r w : CallId} {removal' store' : CallState}
    {filter : Entities.PersistedGrant → Bool} {token : Models.PersistedGrant}
    (hr' : s'.calls r = some removal') (hp : removal'.pc = .deleteMany filter)
    (hw' : s'.calls w = some store') (ha : store'.after r = true)
    (hcall : store'.call = .storeAsync token) (hlive : store'.pc ≠ .failed) :
    filter token.toEntity = false := by
  obtain ⟨removal, hr, he⟩ := removal_before_step inv h hw' ha hr'
  have hpending := he.pending filter hp
  rcases call_before_step h hw' with ⟨store, hw, hwe⟩ | ⟨call, entry, rfl, hentry⟩
  · rw [hwe.after] at ha
    rw [hwe.call] at hcall
    have hlive := fun hp => hlive (hwe.failed hp)
    exact inv.unstored r removal filter w store token hr hpending hw ha hcall hlive
  · rcases hentry with ⟨rfl, rfl⟩ | rfl
    · have hf := (reach_consistent reach hr).deleteMany hpending
      exact (outstanding_of_after outstanding hr hf ha).2 hpending token hcall
    · exact absurd (thrownCall_pc s call) hlive

theorem reads_ordered_step {s s' : GrantState} {e : GrantEvent} (inv : RemovalInv s)
    (h : GrantStepCase s e s') {r q : CallId} {removal' read' : CallState}
    {filter : Entities.PersistedGrant → Bool} (hr' : s'.calls r = some removal')
    (hf : removal'.call.removalFilter = some filter) (hq' : s'.calls q = some read')
    (ha : read'.after r = true) :
    ∀ d ∈ read'.returned, d ∈ removal'.atCall → filter d.grant = false := by
  intro d hd hat
  obtain ⟨removal, hr, he⟩ := removal_before_step inv h hq' ha hr'
  rw [he.call] at hf
  rw [he.atCall] at hat
  rcases call_before_step h hq' with ⟨read, hq, hqe⟩ | ⟨call, entry, rfl, _⟩
  · rw [hqe.after] at ha
    rcases hqe.returned d hd with hold | ⟨hdocs, hreads⟩
    · exact (inv.ordered r removal filter hr hf).1 q read hq ha d hold hat
    · exact inv.unread r removal filter q read hr hf hq ha d hdocs hat hreads
  · cases hd

/-- A document that a removal deletes now was not stored behind it. -/
theorem deleting_not_after {guard : GrantState → GrantEvent → Prop} {s : GrantState}
    (reach : GrantReach guard s) (inv : RemovalInv s) {r : CallId} {removal store : CallState}
    {filter : Entities.PersistedGrant → Bool} (hr : s.calls r = some removal)
    (hpending : removal.pc = .deleteMany filter) {d : Doc} (hd : d ∈ s.docs)
    (hmatch : filter d.grant = true) (hw : s.calls d.writer = some store) :
    store.after r = false := by
  obtain ⟨writer, token, hwriter, hcall, hgrant, hpc⟩ := docs_written reach d hd
  rw [hw] at hwriter
  cases Option.some.inj hwriter
  have hlive : store.pc ≠ .failed := by
    intro hfailed
    rw [hfailed] at hpc
    exact hpc.elim
  cases ha : store.after r with
  | false => rfl
  | true =>
    have hspared := inv.unstored r removal filter d.writer store token hr hpending hw ha hcall hlive
    rw [hgrant, hspared] at hmatch
    cases hmatch

theorem stores_ordered_step {guard : GrantState → GrantEvent → Prop} {s s' : GrantState}
    {e : GrantEvent} (reach : GrantReach guard s) (inv : RemovalInv s) (h : GrantStepCase s e s')
    {r : CallId} {removal' store' : CallState} {filter : Entities.PersistedGrant → Bool}
    (hr' : s'.calls r = some removal') (hf : removal'.call.removalFilter = some filter) {d : Doc}
    (hd : d ∈ removal'.removed) (hw' : s'.calls d.writer = some store') :
    store'.after r = false := by
  rcases call_before_step h hr' with ⟨removal, hr, he⟩ | ⟨call, entry, rfl, _⟩
  · rw [he.call] at hf
    rcases he.removed d hd with hold | ⟨hdocs, hdelete⟩
    · obtain ⟨store, _, hw, _⟩ := met_written reach hr (Or.inr (Or.inl hold))
      rw [(evolves_of_step h hw hw').after]
      exact (inv.ordered r removal filter hr hf).2 d hold store hw
    · obtain ⟨store, _, hw, _⟩ := docs_written reach d hdocs
      rw [(evolves_of_step h hw hw').after]
      rcases hdelete with ⟨own, hpending, hown⟩ | ⟨built, hexpired, _⟩
      · exact deleting_not_after reach inv hr hpending hdocs hown hw
      · rw [(reach_consistent reach hr).deleteExpired hexpired] at hf
        cases hf
  · cases hd

theorem removalInv_step {guard : GrantState → GrantEvent → Prop} {s s' : GrantState}
    {e : GrantEvent} (reach : GrantReach guard s) (inv : RemovalInv s)
    (outstanding : NoOutstandingRemoval s e) (h : GrantStepCase s e s') : RemovalInv s' where
  known := by
    intro i c r hc ha
    obtain ⟨removal, hr⟩ := known_step inv h hc ha
    obtain ⟨removal', hr', _⟩ := call_of_step h hr
    exact ⟨removal', hr'⟩
  deleted := fun _ _ _ hr hf hp => deleted_step reach inv h hr hf hp
  unread := fun _ _ _ _ _ hr hf hq ha => unread_step reach inv outstanding h hr hf hq ha
  unstored := fun _ _ _ _ _ _ hr hp hw ha hcall hlive =>
    unstored_step reach inv outstanding h hr hp hw ha hcall hlive
  ordered := fun _ _ _ hr hf =>
    ⟨fun _ _ hq ha => reads_ordered_step inv h hr hf hq ha,
      fun _ hd _ hw => stores_ordered_step reach inv h hr hf hd hw⟩

end IdentityServerMongoDB
