import IdentityServerMongoDB.TokenCleanup

namespace IdentityServerMongoDB

open TokenCleanupService (removeExpiredGrantsAsync)

structure TokenCleanupOptions where
  interval : Int32 := 60
  enable : Bool := false

/-- One round of the loop as its surroundings decide it: whether `stoppingToken`
is cancelled when the loop looks at it and during the delay, and the pass. -/
structure Iteration where
  cancelledAtCheck : Bool := false
  cancelledInDelay : Bool := false
  pass : CleanupPass := {}

def Iteration.cancelled (it : Iteration) : Bool := it.cancelledAtCheck || it.cancelledInDelay

inductive ServiceStatus
  | returned
  | looping
  | ended
  deriving DecidableEq

/-- `Task.Delay`, awaited. -/
def taskDelay (millisecondsDelay : Int32) (cancelled : Bool) : Except Exception Unit :=
  if millisecondsDelay < -1 then .error (.argumentOutOfRange "millisecondsDelay")
  else if cancelled then .error .taskCanceled
  else .ok ()

def TokenCleanupOptions.delayArgument (options : TokenCleanupOptions) : Int32 :=
  options.interval * 1000

def endOfRemoval : ServiceEvent := .logDebug "Grant removal ended" []

/-- The `catch` clauses around the loop, and `finally`. -/
def leaveLoop : Exception → List ServiceEvent
  | .taskCanceled => [endOfRemoval]
  | ex => [.logError "Error running grant removal: {exception}" ex, endOfRemoval]

def iterate (options : TokenCleanupOptions) (it : Iteration) : List ServiceEvent × ServiceStatus :=
  if it.cancelledAtCheck then ([endOfRemoval], .ended)
  else
    match taskDelay options.delayArgument it.cancelledInDelay with
    | .error ex => (.delay options.delayArgument :: leaveLoop ex, .ended)
    | .ok () =>
      let (passLog, result) := removeExpiredGrantsAsync it.pass
      let log := .delay options.delayArgument :: .pass :: passLog
      match result with
      | .error ex => (log ++ leaveLoop ex, .ended)
      | .ok () => (log, .looping)

/-- `ExecuteAsync` once the loop, where it is entered and not left, has come round `n` times. -/
def executeAsync (options : TokenCleanupOptions) (env : Nat → Iteration) :
    Nat → List ServiceEvent × ServiceStatus
  | 0 =>
    if !options.enable then ([.logDebug "Grant removal is not enabled" []], .returned)
    else if options.interval < 1 then
      ([.logDebug "Grant removal interval must be more than 1 second" []], .returned)
    else ([.logDebug "Grant removal started" []], .looping)
  | n + 1 =>
    let (log, status) := executeAsync options env n
    match status with
    | .looping => (log ++ (iterate options (env n)).1, (iterate options (env n)).2)
    | status => (log, status)

/-- As long as the token is not cancelled the service is in its loop, and every
pass, however it went, is followed by another delay and another pass. -/
def OutlivesFailures (options : TokenCleanupOptions) (env : Nat → Iteration) : Prop :=
  ∀ n, (∀ k < n, (env k).cancelled = false) →
    (executeAsync options env n).2 = .looping ∧
    (executeAsync options env n).1.filter (fun e => !e.isLog) =
      (List.replicate n [.delay options.delayArgument, .pass]).flatten

/-- The interval is not so long that its milliseconds overflow. -/
theorem delayArgument_toInt {options : TokenCleanupOptions} (lower : 1 ≤ options.interval)
    (upper : options.interval ≤ 2147483) :
    options.delayArgument.toInt = options.interval.toInt * 1000 := by
  have hlower := Int32.le_iff_toInt_le.mp lower
  have hupper := Int32.le_iff_toInt_le.mp upper
  have hl : (1 : Int32).toInt = 1 := rfl
  have hu : (2147483 : Int32).toInt = 2147483 := rfl
  have hm : (1000 : Int32).toInt = 1000 := rfl
  rw [hl] at hlower
  rw [hu] at hupper
  unfold TokenCleanupOptions.delayArgument
  rw [Int32.toInt_mul, hm]
  apply Int.bmod_eq_of_le <;> omega

theorem taskDelay_delayArgument {options : TokenCleanupOptions} (lower : 1 ≤ options.interval)
    (upper : options.interval ≤ 2147483) : taskDelay options.delayArgument false = .ok () := by
  have harg := delayArgument_toInt lower upper
  have hlower := Int32.le_iff_toInt_le.mp lower
  have hl : (1 : Int32).toInt = 1 := rfl
  rw [hl] at hlower
  have hnot : ¬options.delayArgument < -1 := by
    intro hlt
    have hneg := Int32.lt_iff_toInt_lt.mp hlt
    have hm : (-1 : Int32).toInt = -1 := rfl
    rw [harg, hm] at hneg
    omega
  simp [taskDelay, hnot]

theorem executeAsync_zero {options : TokenCleanupOptions} (enable : options.enable = true)
    (lower : 1 ≤ options.interval) (env : Nat → Iteration) :
    executeAsync options env 0 = ([.logDebug "Grant removal started" []], .looping) := by
  have hnot : ¬options.interval < 1 := by
    intro hlt
    have hneg := Int32.lt_iff_toInt_lt.mp hlt
    have hpos := Int32.le_iff_toInt_le.mp lower
    omega
  simp [executeAsync, enable, hnot]

theorem executeAsync_succ {options : TokenCleanupOptions} {env : Nat → Iteration} {n : Nat}
    (h : (executeAsync options env n).2 = .looping) :
    executeAsync options env (n + 1) =
      ((executeAsync options env n).1 ++ (iterate options (env n)).1,
        (iterate options (env n)).2) := by
  rw [executeAsync]
  simp only [h]

theorem cancelled_false {it : Iteration} (h : it.cancelled = false) :
    it.cancelledAtCheck = false ∧ it.cancelledInDelay = false := by
  simpa [Iteration.cancelled] using h

theorem iterate_live {options : TokenCleanupOptions} (lower : 1 ≤ options.interval)
    (upper : options.interval ≤ 2147483) {it : Iteration} (live : it.cancelled = false) :
    iterate options it =
      match (removeExpiredGrantsAsync it.pass).2 with
      | .error ex =>
        (.delay options.delayArgument :: .pass :: (removeExpiredGrantsAsync it.pass).1 ++
          leaveLoop ex, .ended)
      | .ok () =>
        (.delay options.delayArgument :: .pass :: (removeExpiredGrantsAsync it.pass).1,
          .looping) := by
  obtain ⟨hcheck, hdelay⟩ := cancelled_false live
  have htask := taskDelay_delayArgument lower upper
  simp [iterate, hcheck, hdelay, htask]

/-- Where every pass resolves its context the service goes on, whatever the query and
the delete of a pass throw. -/
theorem executeAsync_of_resolves {options : TokenCleanupOptions} {env : Nat → Iteration}
    (enable : options.enable = true) (lower : 1 ≤ options.interval)
    (upper : options.interval ≤ 2147483) {n : Nat}
    (h : ∀ k < n, (env k).cancelled = false ∧ (env k).pass.Resolves) :
    (executeAsync options env n).2 = .looping ∧
      (executeAsync options env n).1.filter (fun e => !e.isLog) =
        (List.replicate n [.delay options.delayArgument, .pass]).flatten := by
  induction n with
  | zero =>
    rw [executeAsync_zero enable lower]
    exact ⟨rfl, rfl⟩
  | succ n ih =>
    obtain ⟨hstatus, hsteps⟩ := ih (fun k hk => h k (Nat.lt_succ_of_lt hk))
    obtain ⟨hlive, hresolves⟩ := h n (Nat.lt_succ_self n)
    have hr := servicePass_eq_ok_iff.mpr hresolves
    have hit := iterate_live lower upper hlive
    rw [hr] at hit
    rw [executeAsync_succ hstatus, hit]
    refine ⟨rfl, ?_⟩
    have hlogs : (removeExpiredGrantsAsync (env n).pass).1.filter (fun e => !e.isLog) =
        [] := by
      apply List.filter_eq_nil_iff.mpr
      intro e he
      simp [servicePass_logs _ e he]
    have hnew : (.delay options.delayArgument :: .pass ::
        (removeExpiredGrantsAsync (env n).pass).1).filter (fun e => !e.isLog) =
        [.delay options.delayArgument, .pass] := by
      rw [List.filter_cons_of_pos rfl, List.filter_cons_of_pos rfl, hlogs]
    rw [List.filter_append, hsteps, hnew, List.replicate_succ', List.flatten_append]
    rfl

theorem outlivesFailures_of_resolves {options : TokenCleanupOptions} {env : Nat → Iteration}
    (enable : options.enable = true) (lower : 1 ≤ options.interval)
    (upper : options.interval ≤ 2147483)
    (h : ∀ n, (∀ k ≤ n, (env k).cancelled = false) → (env n).pass.Resolves) :
    OutlivesFailures options env := by
  intro n live
  apply executeAsync_of_resolves enable lower upper
  intro k hk
  exact ⟨live k hk, h k (fun j hj => live j (Nat.lt_of_le_of_lt hj hk))⟩

/-- The service outlives the failures of its passes exactly when none comes
before the `try` of the pass: there only the `catch` around the loop is left. -/
theorem outlivesFailures_iff {options : TokenCleanupOptions} {env : Nat → Iteration}
    (enable : options.enable = true) (lower : 1 ≤ options.interval)
    (upper : options.interval ≤ 2147483) :
    OutlivesFailures options env ↔
      ∀ n, (∀ k ≤ n, (env k).cancelled = false) → (env n).pass.Resolves := by
  refine ⟨?_, outlivesFailures_of_resolves enable lower upper⟩
  intro h n live
  have hstatus := (h n (fun k hk => live k (Nat.le_of_lt hk))).1
  have hnext := (h (n + 1) (fun k hk => live k (Nat.le_of_lt_succ hk))).1
  have hit := iterate_live lower upper (live n (Nat.le_refl n))
  rw [executeAsync_succ hstatus, hit] at hnext
  apply servicePass_eq_ok_iff.mp
  cases hr : (removeExpiredGrantsAsync (env n).pass).2 with
  | ok u => rfl
  | error ex =>
    rw [hr] at hnext
    cases hnext

/-- The server cannot be reached while the third pass queries, and the fourth deletes. -/
def failingPasses : Nat → Iteration
  | 2 => { pass := { query := .error .mongo } }
  | 3 => { pass := { query := .ok [{}], removeExpired := .error .mongo } }
  | _ => {}

theorem outlivesFailures_failingPasses :
    OutlivesFailures { enable := true } failingPasses := by
  apply (outlivesFailures_iff rfl (by decide) (by decide)).mpr
  intro n _
  have hdefault : ∀ p : CleanupPass, p.createScope = .ok () → p.openDatabase = .ok () →
      p.createOne = (fun _ => .ok ()) → p.Resolves := by
    intro p hscope hopen hone
    exact ⟨hscope, hopen, fun index _ => by rw [hone]⟩
  unfold failingPasses
  split
  next => exact hdefault _ rfl rfl rfl
  next => exact hdefault _ rfl rfl rfl
  next => exact hdefault _ rfl rfl rfl

/-- The server cannot be reached when the first pass constructs its context: the
service ends though nobody cancelled it. -/
theorem unreachable_server_ends_service :
    ¬∀ (options : TokenCleanupOptions) (env : Nat → Iteration), options.enable = true →
      1 ≤ options.interval → options.interval ≤ 2147483 → OutlivesFailures options env := by
  intro h
  have hfirst := h { enable := true }
    (fun _ => { pass := { createOne := fun _ => .error .mongo } }) rfl (by decide) (by decide)
  have hlooping := (hfirst 1 (fun _ _ => rfl)).1
  exact absurd hlooping (by decide)

end IdentityServerMongoDB
