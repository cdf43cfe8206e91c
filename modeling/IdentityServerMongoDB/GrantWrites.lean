import IdentityServerMongoDB.AsyncTask
import IdentityServerMongoDB.GrantSystem

namespace IdentityServerMongoDB

open Models (PersistedGrantFilter)

/-- When an operation of the driver fails: as it is started, or through its task. -/
inductive FailureTime
  | atStart
  | later
  deriving DecidableEq

structure WriteFailure where
  time : FailureTime
  ex : Exception

/-- An operation of the driver that writes. Where it fails the collection stays as it is. -/
def driverWrite (failure : Option WriteFailure) (write : GrantDocs → GrantDocs)
    (docs : GrantDocs) : Invocation Unit × GrantDocs :=
  match failure with
  | none => (.returned (.completed ()), write docs)
  | some ⟨.atStart, ex⟩ => (.thrown ex, docs)
  | some ⟨.later, ex⟩ => (.returned (.faulted ex), docs)

def PersistedGrantDbContext.remove (failure : Option WriteFailure)
    (filter : Entities.PersistedGrant → Bool) : GrantDocs → Invocation Unit × GrantDocs :=
  driverWrite failure (IdentityServerMongoDB.remove filter)

def PersistedGrantDbContext.insertOrUpdate (failure : Option WriteFailure)
    (filter : Entities.PersistedGrant → Bool) (entity : Entities.PersistedGrant) :
    GrantDocs → Invocation Unit × GrantDocs :=
  driverWrite failure (IdentityServerMongoDB.insertOrUpdate filter entity)

/-- What the `catch` logs it throws again. A null token fails in the first statement. -/
def PersistedGrantStore.storeAsync (failure : Option WriteFailure)
    (token : Option Models.PersistedGrant) (docs : GrantDocs) : Invocation Unit × GrantDocs :=
  match token with
  | none => (.async (.error .nullReference), docs)
  | some token =>
    let (write, docs) := PersistedGrantDbContext.insertOrUpdate failure
      (fun t => t.key = token.key) token.toEntity docs
    (.async write.await, docs)

def PersistedGrantStore.removeAsync (failure : Option WriteFailure) (key : Option String)
    (docs : GrantDocs) : Invocation Unit × GrantDocs :=
  let (write, docs) := PersistedGrantDbContext.remove failure (fun x => x.key = key) docs
  (write.dropped, docs)

def PersistedGrantStore.removeAllAsync (failure : Option WriteFailure)
    (filter : Option PersistedGrantFilter) (docs : GrantDocs) : Invocation Unit × GrantDocs :=
  match validate filter with
  | .error ex => (.thrown ex, docs)
  | .ok filter =>
    let (write, docs) := PersistedGrantDbContext.remove failure (removeAllWhere filter) docs
    (write.dropped, docs)

/-- The write operations of the store. -/
inductive GrantWrite
  | storeAsync (token : Option Models.PersistedGrant)
  | removeAsync (key : Option String)
  | removeAllAsync (filter : Option PersistedGrantFilter)

def GrantWrite.exec (failure : Option WriteFailure) :
    GrantWrite → GrantDocs → Invocation Unit × GrantDocs
  | .storeAsync token => PersistedGrantStore.storeAsync failure token
  | .removeAsync key => PersistedGrantStore.removeAsync failure key
  | .removeAllAsync filter => PersistedGrantStore.removeAllAsync failure filter

/-- The operation starts a delete and does not wait for it. -/
def GrantWrite.StartsDelete : GrantWrite → Prop
  | .storeAsync _ => False
  | .removeAsync _ => True
  | .removeAllAsync filter => ∃ valid, validate filter = .ok valid

section Failure

variable (failure : WriteFailure) (docs : GrantDocs)

theorem fails_driverWrite (write : GrantDocs → GrantDocs) :
    (driverWrite (some failure) write docs).1.Fails := by
  obtain ⟨time, ex⟩ := failure
  cases time with
  | atStart => exact trivial
  | later => exact trivial

theorem throws_driverWrite_iff (write : GrantDocs → GrantDocs) :
    (driverWrite (some failure) write docs).1.Throws ↔ failure.time = .atStart := by
  obtain ⟨time, ex⟩ := failure
  cases time with
  | atStart => exact iff_of_true trivial rfl
  | later => exact iff_of_false (fun h => h) (by simp)

theorem storeAsync_fails (token : Option Models.PersistedGrant) :
    (PersistedGrantStore.storeAsync (some failure) token docs).1.Fails := by
  cases token with
  | none => exact trivial
  | some token => exact Invocation.fails_async_await.mpr (fails_driverWrite failure docs _)

theorem removal_fails_iff (filter : Entities.PersistedGrant → Bool) :
    (PersistedGrantDbContext.remove (some failure) filter docs).1.dropped.Fails ↔
      failure.time = .atStart := by
  rw [Invocation.fails_dropped]
  exact throws_driverWrite_iff failure docs _

/-- The caller comes upon the failure of a write unless it is that of a delete and comes
after the delete was started. -/
theorem write_fails_iff (write : GrantWrite) :
    (write.exec (some failure) docs).1.Fails ↔
      (write.StartsDelete → failure.time = .atStart) := by
  cases write with
  | storeAsync token =>
    exact iff_of_true (storeAsync_fails failure docs token) (fun h => h.elim)
  | removeAsync key =>
    have hiff := removal_fails_iff failure docs (fun x => x.key = key)
    exact hiff.trans ⟨fun h _ => h, fun h => h trivial⟩
  | removeAllAsync filter =>
    simp only [GrantWrite.exec, GrantWrite.StartsDelete, PersistedGrantStore.removeAllAsync]
    cases hv : validate filter with
    | error ex =>
      apply iff_of_true trivial
      rintro ⟨valid, hok⟩
      cases hok
    | ok valid =>
      have hiff := removal_fails_iff failure docs (removeAllWhere valid)
      exact hiff.trans ⟨fun h _ => h, fun h => h ⟨valid, rfl⟩⟩

end Failure

/-- The write a call of the system of concurrent calls makes, if it is one. -/
def GrantCall.write? : GrantCall → Option GrantWrite
  | .storeAsync token => some (.storeAsync (some token))
  | .removeAsync key => some (.removeAsync key)
  | .removeAllAsync filter => some (.removeAllAsync filter)
  | _ => none

section System

variable {call : GrantCall} {write : GrantWrite}

theorem write?_cases (h : call.write? = some write) :
    (∃ token, call = .storeAsync token ∧ write = .storeAsync (some token)) ∨
    (∃ key, call = .removeAsync key ∧ write = .removeAsync key) ∨
    ∃ filter, call = .removeAllAsync filter ∧ write = .removeAllAsync filter := by
  cases call with
  | storeAsync token => exact Or.inl ⟨token, rfl, (Option.some.inj h).symm⟩
  | removeAsync key => exact Or.inr (Or.inl ⟨key, rfl, (Option.some.inj h).symm⟩)
  | removeAllAsync filter => exact Or.inr (Or.inr ⟨filter, rfl, (Option.some.inj h).symm⟩)
  | getAsync key => cases h
  | getAllAsync filter => cases h
  | removeExpiredGrantsAsync => cases h

/-- Without a failure a write does to the collection what the call does. -/
theorem exec_succeeds_docs (h : call.write? = some write) (utcNow : DateTime) (docs : GrantDocs) :
    (write.exec none docs).2 = (call.exec utcNow docs).2 := by
  rcases write?_cases h with ⟨token, rfl, rfl⟩ | ⟨key, rfl, rfl⟩ | ⟨filter, rfl, rfl⟩
  · rfl
  · rfl
  · rw [exec_removeAllAsync_docs]
    simp only [GrantWrite.exec, PersistedGrantStore.removeAllAsync, removeAllAsync]
    cases validate filter with
    | error ex => rfl
    | ok valid => rfl

/-- A failure at the start leaves the caller of a write with a fault in the system as well. -/
theorem thrown_faulted_iff_fails (h : call.write? = some write) (ex : Exception)
    (docs : GrantDocs) :
    call.thrown.2 = .faulted ↔ (write.exec (some ⟨.atStart, ex⟩) docs).1.Fails := by
  have hfails := (write_fails_iff ⟨.atStart, ex⟩ docs write).mpr (fun _ => rfl)
  refine iff_of_true ?_ hfails
  rcases write?_cases h with ⟨token, rfl, rfl⟩ | ⟨key, rfl, rfl⟩ | ⟨filter, rfl, rfl⟩
  · rfl
  · rfl
  · rfl

/-- And so does a failure of the operation it has in flight. -/
theorem fail_faulted_iff_fails (h : call.write? = some write) (ex : Exception) (docs : GrantDocs)
    (s : GrantState) :
    ((s.newCall call call.start).fail.getD (s.newCall call call.start)).task = .faulted ↔
      (write.exec (some ⟨.later, ex⟩) docs).1.Fails := by
  rw [write_fails_iff]
  rcases write?_cases h with ⟨token, rfl, rfl⟩ | ⟨key, rfl, rfl⟩ | ⟨filter, rfl, rfl⟩
  · exact iff_of_true rfl (fun h => h.elim)
  · refine iff_of_false (by simp [GrantState.newCall, GrantCall.start, CallState.fail]) ?_
    intro hstart
    cases hstart trivial
  · simp only [GrantWrite.StartsDelete, GrantState.newCall, GrantCall.start]
    cases hv : validate filter with
    | error e =>
      apply iff_of_true rfl
      rintro ⟨valid, hok⟩
      cases hok
    | ok valid =>
      refine iff_of_false (by simp [CallState.fail]) ?_
      intro hstart
      cases hstart ⟨valid, rfl⟩

end System

/-- The server stops answering behind `RemoveAsync`, and its caller takes the grant for removed. -/
theorem late_failure_unobserved :
    ¬∀ (write : GrantWrite) (failure : WriteFailure) (docs : GrantDocs),
      (write.exec (some failure) docs).1.Fails := by
  intro h
  exact h (.removeAsync (some "key")) ⟨.later, .mongo⟩ [{ key := some "key" }]

end IdentityServerMongoDB
