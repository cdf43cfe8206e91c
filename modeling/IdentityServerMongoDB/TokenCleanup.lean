import IdentityServerMongoDB.PersistedGrantStore

namespace IdentityServerMongoDB

/-- What happens at each point of a cleanup pass: in the container, in the
constructor of the context, and on the server. -/
structure CleanupPass where
  createScope : Except Exception Unit := .ok ()
  openDatabase : Except Exception Unit := .ok ()
  createOne : GrantIndex → Except Exception Unit := fun _ => .ok ()
  query : Except Exception GrantDocs := .ok []
  removeExpired : Except Exception Unit := .ok ()

inductive ServiceEvent
  | logTrace (message : String)
  | logDebug (message : String) (args : List Nat)
  | logError (message : String) (ex : Exception)
  | delay (millisecondsDelay : Int32)
  | pass
  deriving DecidableEq

def ServiceEvent.isLog : ServiceEvent → Bool
  | .logTrace _ | .logDebug _ _ | .logError _ _ => true
  | .delay _ | .pass => false

/-- The constructor of `PersistedGrantDbContext`. -/
def CleanupPass.createContext (p : CleanupPass) : Except Exception Unit := do
  p.openDatabase
  grantIndexes.forM p.createOne

def TokenCleanup.removeGrantsAsync (p : CleanupPass) :
    List ServiceEvent × Except Exception Unit :=
  match p.query with
  | .error ex => ([], .error ex)
  | .ok expired =>
    let found := expired.length
    ([.logDebug "Removing {grantCount} grants" [found]],
      if found > 0 then p.removeExpired else .ok ())

def TokenCleanup.removeExpiredGrantsAsync (p : CleanupPass) :
    List ServiceEvent × Except Exception Unit :=
  let start := ServiceEvent.logTrace "Querying for expired grants to remove"
  match TokenCleanup.removeGrantsAsync p with
  | (log, .ok ()) => (start :: log, .ok ())
  | (log, .error ex) =>
    (start :: log ++ [.logError "Exception removing expired grants: {exception}" ex], .ok ())

/-- Resolving `TokenCleanup` constructs its context. -/
def TokenCleanupService.removeExpiredGrantsAsync (p : CleanupPass) :
    List ServiceEvent × Except Exception Unit :=
  match p.createScope with
  | .error ex => ([], .error ex)
  | .ok () =>
    match p.createContext with
    | .error ex => ([], .error ex)
    | .ok () => TokenCleanup.removeExpiredGrantsAsync p

/-- Nothing fails before the pass is inside its own `try`. -/
structure CleanupPass.Resolves (p : CleanupPass) : Prop where
  createScope : p.createScope = .ok ()
  openDatabase : p.openDatabase = .ok ()
  createOne : ∀ index ∈ grantIndexes, p.createOne index = .ok ()

theorem forM_eq_ok_iff {α ε : Type} {f : α → Except ε Unit} {l : List α} :
    l.forM f = .ok () ↔ ∀ x ∈ l, f x = .ok () := by
  induction l with
  | nil => simp [pure, Except.pure]
  | cons x xs ih =>
    have hcons : (x :: xs).forM f = (f x).bind (fun _ => xs.forM f) := rfl
    rw [hcons]
    cases hx : f x with
    | error e => simp [hx, Except.bind]
    | ok u =>
      change xs.forM f = .ok () ↔ _
      rw [ih]
      simp [hx]

theorem createContext_eq_ok_iff {p : CleanupPass} :
    p.createContext = .ok () ↔
      p.openDatabase = .ok () ∧ ∀ index ∈ grantIndexes, p.createOne index = .ok () := by
  unfold CleanupPass.createContext
  cases h : p.openDatabase with
  | error ex => simp [bind, Except.bind]
  | ok u =>
    simp only [true_and]
    exact forM_eq_ok_iff

/-- The `try` of the pass absorbs what the query and the delete throw. -/
theorem removeExpiredGrantsAsync_ok (p : CleanupPass) :
    (TokenCleanup.removeExpiredGrantsAsync p).2 = .ok () := by
  unfold TokenCleanup.removeExpiredGrantsAsync
  split
  next => rfl
  next => rfl

theorem removeExpiredGrantsAsync_logs (p : CleanupPass) :
    ∀ e ∈ (TokenCleanup.removeExpiredGrantsAsync p).1, e.isLog = true := by
  have inner : ∀ e ∈ (TokenCleanup.removeGrantsAsync p).1, e.isLog = true := by
    unfold TokenCleanup.removeGrantsAsync
    split
    next => simp
    next => simp [ServiceEvent.isLog]
  intro e he
  unfold TokenCleanup.removeExpiredGrantsAsync at he
  split at he
  next log h =>
    rw [h] at inner
    rcases List.mem_cons.mp he with rfl | hm
    · rfl
    · exact inner e hm
  next log ex h =>
    rw [h] at inner
    rcases List.mem_append.mp he with hm | hm
    · rcases List.mem_cons.mp hm with rfl | hm
      · rfl
      · exact inner e hm
    · rw [List.mem_singleton.mp hm]
      rfl

theorem servicePass_logs (p : CleanupPass) :
    ∀ e ∈ (TokenCleanupService.removeExpiredGrantsAsync p).1, e.isLog = true := by
  unfold TokenCleanupService.removeExpiredGrantsAsync
  split
  next => simp
  next =>
    split
    next => simp
    next => exact removeExpiredGrantsAsync_logs p

/-- A pass throws exactly when something fails before its `try`. -/
theorem servicePass_eq_ok_iff {p : CleanupPass} :
    (TokenCleanupService.removeExpiredGrantsAsync p).2 = .ok () ↔ p.Resolves := by
  unfold TokenCleanupService.removeExpiredGrantsAsync
  split
  next ex hs =>
    refine ⟨by simp, ?_⟩
    intro h
    rw [h.createScope] at hs
    cases hs
  next hs =>
    split
    next ex hc =>
      refine ⟨by simp, ?_⟩
      intro h
      rw [createContext_eq_ok_iff.mpr ⟨h.openDatabase, h.createOne⟩] at hc
      cases hc
    next hc =>
      obtain ⟨hopen, hindexes⟩ := createContext_eq_ok_iff.mp hc
      exact ⟨fun _ => ⟨hs, hopen, hindexes⟩, fun _ => removeExpiredGrantsAsync_ok p⟩

end IdentityServerMongoDB
