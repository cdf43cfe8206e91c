import IdentityServerMongoDB.TokenCleanupService

namespace IdentityServerMongoDB

open TokenCleanupService (removeExpiredGrantsAsync)

/-- Something in the round ends the loop: the token, the length of the delay, or
a pass that throws. -/
def Iteration.Leaves (options : TokenCleanupOptions) (it : Iteration) : Prop :=
  it.cancelledAtCheck = true ∨ it.cancelledInDelay = true ∨ options.delayArgument < -1 ∨
    ¬it.pass.Resolves

/-- What else than logging a round does that the loop is left in. -/
def Iteration.lastSteps (options : TokenCleanupOptions) (it : Iteration) : List ServiceEvent :=
  if it.cancelledAtCheck then []
  else if it.cancelledInDelay || options.delayArgument < -1 then [.delay options.delayArgument]
  else [.delay options.delayArgument, .pass]

def steps (log : List ServiceEvent) : List ServiceEvent :=
  log.filter (fun e => !e.isLog)

def rounds (options : TokenCleanupOptions) (n : Nat) : List ServiceEvent :=
  (List.replicate n [.delay options.delayArgument, .pass]).flatten

/-- What `n` rounds come to. The service returns at once and says why, or goes
through a delay and a pass in every round up to one in which the loop is left,
says then and only then that it has ended, and does nothing from there on. -/
inductive ServiceRun (options : TokenCleanupOptions) (env : Nat → Iteration) (n : Nat)
    (log : List ServiceEvent) : ServiceStatus → Prop
  | notEnabled : options.enable = false →
      log = [.logDebug "Grant removal is not enabled" []] → ServiceRun options env n log .returned
  | tooShort : options.enable = true → options.interval < 1 →
      log = [.logDebug "Grant removal interval must be more than 1 second" []] →
      ServiceRun options env n log .returned
  | looping : options.enable = true → ¬options.interval < 1 →
      (∀ k < n, ¬(env k).Leaves options) → endOfRemoval ∉ log → steps log = rounds options n →
      ServiceRun options env n log .looping
  | ended {m before} : options.enable = true → ¬options.interval < 1 → m < n →
      (∀ k < m, ¬(env k).Leaves options) → (env m).Leaves options →
      log = before ++ [endOfRemoval] → endOfRemoval ∉ before →
      steps log = rounds options m ++ (env m).lastSteps options →
      ServiceRun options env n log .ended

theorem steps_append (log more : List ServiceEvent) : steps (log ++ more) = steps log ++ steps more :=
  List.filter_append ..

theorem steps_of_logs {log : List ServiceEvent} (h : ∀ e ∈ log, e.isLog = true) : steps log = [] := by
  apply List.filter_eq_nil_iff.mpr
  intro e he
  simp [h e he]

theorem endOfRemoval_not_mem_pass (p : CleanupPass) :
    endOfRemoval ∉ (removeExpiredGrantsAsync p).1 := by
  have inner : endOfRemoval ∉ (TokenCleanup.removeGrantsAsync p).1 := by
    unfold TokenCleanup.removeGrantsAsync
    split
    next => simp
    next => simp [endOfRemoval]
  unfold removeExpiredGrantsAsync
  split
  next => simp
  next =>
    split
    next => simp
    next =>
      unfold TokenCleanup.removeExpiredGrantsAsync
      split
      next log h =>
        rw [h] at inner
        simpa [endOfRemoval] using inner
      next log ex h =>
        rw [h] at inner
        simpa [endOfRemoval] using inner

theorem leaveLoop_eq (ex : Exception) :
    ∃ errors, leaveLoop ex = errors ++ [endOfRemoval] ∧ endOfRemoval ∉ errors ∧
      ∀ e ∈ errors, e.isLog = true := by
  unfold leaveLoop
  split
  next => exact ⟨[], rfl, by simp, by simp⟩
  next =>
    exact ⟨[.logError "Error running grant removal: {exception}" ex], rfl,
      by simp [endOfRemoval], by simp [ServiceEvent.isLog]⟩

theorem taskDelay_ok_iff {options : TokenCleanupOptions} {cancelled : Bool} :
    taskDelay options.delayArgument cancelled = .ok () ↔
      cancelled = false ∧ ¬options.delayArgument < -1 := by
  unfold taskDelay
  split
  next h => simp [h]
  next h =>
    split
    next hc => simp [hc]
    next hc => simp [hc, h]

/-- The delay and the pass of a round, with all the pass logs. -/
theorem steps_of_round (options : TokenCleanupOptions) (p : CleanupPass) :
    endOfRemoval ∉ .delay options.delayArgument :: .pass :: (removeExpiredGrantsAsync p).1 ∧
      steps (.delay options.delayArgument :: .pass :: (removeExpiredGrantsAsync p).1) =
        [.delay options.delayArgument, .pass] := by
  have hnot := endOfRemoval_not_mem_pass p
  refine ⟨by simpa [endOfRemoval] using hnot, ?_⟩
  have hcons : steps (.delay options.delayArgument :: .pass :: (removeExpiredGrantsAsync p).1) =
      .delay options.delayArgument :: .pass :: steps (removeExpiredGrantsAsync p).1 := rfl
  rw [hcons, steps_of_logs (servicePass_logs p)]

/-- Whatever is caught behind the loop is logged, and the end of it last. -/
theorem steps_of_leaveLoop {log : List ServiceEvent} (hlog : endOfRemoval ∉ log) (ex : Exception) :
    ∃ before, log ++ leaveLoop ex = before ++ [endOfRemoval] ∧ endOfRemoval ∉ before ∧
      steps (log ++ leaveLoop ex) = steps log := by
  obtain ⟨errors, herrors, hnot, hlogs⟩ := leaveLoop_eq ex
  refine ⟨log ++ errors, by rw [herrors, List.append_assoc], by simp [hlog, hnot], ?_⟩
  rw [herrors, steps_append, steps_append, steps_of_logs hlogs]
  simp [steps, endOfRemoval, ServiceEvent.isLog]

/-- A round in which nothing ends the loop is a delay and a pass. -/
theorem iterate_of_stays {options : TokenCleanupOptions} {it : Iteration}
    (h : ¬it.Leaves options) :
    (iterate options it).2 = .looping ∧ endOfRemoval ∉ (iterate options it).1 ∧
      steps (iterate options it).1 = [.delay options.delayArgument, .pass] := by
  unfold Iteration.Leaves at h
  simp only [not_or, Bool.not_eq_true, Classical.not_not] at h
  obtain ⟨hcheck, hdelay, hlong, hresolves⟩ := h
  have htask := taskDelay_ok_iff.mpr ⟨hdelay, hlong⟩
  have hpass := servicePass_eq_ok_iff.mpr hresolves
  have heq : iterate options it = (.delay options.delayArgument :: .pass ::
      (removeExpiredGrantsAsync it.pass).1, .looping) := by
    simp [iterate, hcheck, htask, hpass]
  rw [heq]
  exact ⟨rfl, steps_of_round options it.pass⟩

theorem iterate_of_leaves {options : TokenCleanupOptions} {it : Iteration} (h : it.Leaves options) :
    (iterate options it).2 = .ended ∧
      ∃ before, (iterate options it).1 = before ++ [endOfRemoval] ∧ endOfRemoval ∉ before ∧
        steps (iterate options it).1 = it.lastSteps options := by
  cases hcheck : it.cancelledAtCheck with
  | true =>
    have heq : iterate options it = ([endOfRemoval], .ended) := by simp [iterate, hcheck]
    rw [heq]
    exact ⟨rfl, [], rfl, by simp, by simp [Iteration.lastSteps, hcheck, steps, endOfRemoval,
      ServiceEvent.isLog]⟩
  | false =>
    cases htask : taskDelay options.delayArgument it.cancelledInDelay with
    | error ex =>
      have hwait : (it.cancelledInDelay || decide (options.delayArgument < -1)) = true := by
        cases hd : (it.cancelledInDelay || decide (options.delayArgument < -1)) with
        | true => rfl
        | false =>
          have hok := taskDelay_ok_iff.mpr (by simpa using hd)
          rw [htask] at hok
          cases hok
      have heq : iterate options it =
          ([.delay options.delayArgument] ++ leaveLoop ex, .ended) := by
        simp [iterate, hcheck, htask]
      have hlast : steps [.delay options.delayArgument] = it.lastSteps options := by
        simp [Iteration.lastSteps, hcheck, hwait, steps, ServiceEvent.isLog]
      obtain ⟨before, hlog, hnot, hsteps⟩ :=
        @steps_of_leaveLoop [.delay options.delayArgument] (by simp [endOfRemoval]) ex
      rw [heq]
      exact ⟨rfl, before, hlog, hnot, hsteps.trans hlast⟩
    | ok u =>
      obtain ⟨hdelay, hlong⟩ := taskDelay_ok_iff.mp htask
      have hresolves : ¬it.pass.Resolves := by
        unfold Iteration.Leaves at h
        simpa [hcheck, hdelay, hlong] using h
      cases hpass : (removeExpiredGrantsAsync it.pass).2 with
      | ok u => exact absurd (servicePass_eq_ok_iff.mp hpass) hresolves
      | error ex =>
        have heq : iterate options it = (.delay options.delayArgument :: .pass ::
            (removeExpiredGrantsAsync it.pass).1 ++ leaveLoop ex, .ended) := by
          simp [iterate, hcheck, htask, hpass]
        have hlast : it.lastSteps options = [.delay options.delayArgument, .pass] := by
          simp [Iteration.lastSteps, hcheck, hdelay, hlong]
        obtain ⟨hround, hdone⟩ := steps_of_round options it.pass
        obtain ⟨before, hlog, hnot, hsteps⟩ := steps_of_leaveLoop hround ex
        rw [heq, hlast]
        exact ⟨rfl, before, hlog, hnot, hsteps.trans hdone⟩

theorem executeAsync_start (options : TokenCleanupOptions) (env : Nat → Iteration) :
    ServiceRun options env 0 (executeAsync options env 0).1 (executeAsync options env 0).2 := by
  cases henable : options.enable with
  | false =>
    have heq : executeAsync options env 0 =
        ([.logDebug "Grant removal is not enabled" []], .returned) := by
      simp [executeAsync, henable]
    rw [heq]
    exact ServiceRun.notEnabled henable rfl
  | true =>
    by_cases hshort : options.interval < 1
    · have heq : executeAsync options env 0 =
          ([.logDebug "Grant removal interval must be more than 1 second" []], .returned) := by
        simp [executeAsync, henable, hshort]
      rw [heq]
      exact ServiceRun.tooShort henable hshort rfl
    · have heq : executeAsync options env 0 =
          ([.logDebug "Grant removal started" []], .looping) := by
        simp [executeAsync, henable, hshort]
      rw [heq]
      refine ServiceRun.looping henable hshort (fun k hk => absurd hk (Nat.not_lt_zero k)) ?_ rfl
      simp [endOfRemoval]

theorem rounds_succ (options : TokenCleanupOptions) (n : Nat) :
    rounds options (n + 1) = rounds options n ++ [.delay options.delayArgument, .pass] := by
  unfold rounds
  rw [List.replicate_succ', List.flatten_append]
  rfl

/-- Behind the loop, or where it was never entered, nothing happens any more. -/
theorem executeAsync_over {options : TokenCleanupOptions} {env : Nat → Iteration} {n : Nat}
    (h : (executeAsync options env n).2 ≠ .looping) :
    executeAsync options env (n + 1) = executeAsync options env n := by
  rw [executeAsync]
  cases hstatus : (executeAsync options env n).2 with
  | looping => exact absurd hstatus h
  | returned =>
    simp only [hstatus]
    rw [← hstatus]
  | ended =>
    simp only [hstatus]
    rw [← hstatus]

/-- A further round of a service that is in its loop. -/
theorem ServiceRun.round {options : TokenCleanupOptions} {env : Nat → Iteration} {n : Nat}
    {log : List ServiceEvent} (h : ServiceRun options env n log .looping) :
    ServiceRun options env (n + 1) (log ++ (iterate options (env n)).1)
      (iterate options (env n)).2 := by
  cases h with
  | looping henable hlong hstays hnot hsteps =>
    by_cases hleaves : (env n).Leaves options
    · obtain ⟨hended, before, hlog, hnot', hlast⟩ := iterate_of_leaves hleaves
      rw [hended]
      refine ServiceRun.ended henable hlong (Nat.lt_succ_self n) hstays hleaves
        (by rw [hlog, ← List.append_assoc]) ?_ ?_
      · simp [hnot, hnot']
      · rw [steps_append, hsteps, hlast]
    · obtain ⟨hlooping, hnot', hround⟩ := iterate_of_stays hleaves
      rw [hlooping]
      refine ServiceRun.looping henable hlong ?_ (by simp [hnot, hnot']) ?_
      · intro k hk
        rcases Nat.lt_succ_iff_lt_or_eq.mp hk with hlt | rfl
        · exact hstays k hlt
        · exact hleaves
      · rw [steps_append, hsteps, hround, rounds_succ]

/-- Whatever the options and whatever happens around it, this is what the service does. -/
theorem executeAsync_run (options : TokenCleanupOptions) (env : Nat → Iteration) (n : Nat) :
    ServiceRun options env n (executeAsync options env n).1 (executeAsync options env n).2 := by
  induction n with
  | zero => exact executeAsync_start options env
  | succ n ih =>
    cases hstatus : (executeAsync options env n).2 with
    | returned =>
      rw [executeAsync_over (by simp [hstatus]), hstatus]
      rw [hstatus] at ih
      cases ih with
      | notEnabled henable hlog => exact ServiceRun.notEnabled henable hlog
      | tooShort henable hshort hlog => exact ServiceRun.tooShort henable hshort hlog
    | ended =>
      rw [executeAsync_over (by simp [hstatus]), hstatus]
      rw [hstatus] at ih
      cases ih with
      | ended henable hlong hm hstays hleaves hlog hnot hsteps =>
        exact ServiceRun.ended henable hlong (by omega) hstays hleaves hlog hnot hsteps
    | looping =>
      rw [executeAsync_succ hstatus]
      rw [hstatus] at ih
      exact ih.round

end IdentityServerMongoDB
