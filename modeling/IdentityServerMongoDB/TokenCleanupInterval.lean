import IdentityServerMongoDB.TokenCleanupService

namespace IdentityServerMongoDB

/-- The delay of the loop lasts the interval to the millisecond, so it neither ends the
loop nor lets it spin: passes that can begin follow one another with a delay between. -/
structure KeepsInterval (options : TokenCleanupOptions) : Prop where
  exact : options.delayArgument.toInt = options.interval.toInt * 1000
  positive : 0 < options.delayArgument.toInt
  accepted : taskDelay options.delayArgument false = .ok ()
  separated : ∀ (env : Nat → Iteration) (n : Nat),
    (∀ k < n, (env k).cancelled = false ∧ (env k).pass.Resolves) →
    (executeAsync options env n).2 = .looping ∧
    (executeAsync options env n).1.filter (fun e => !e.isLog) =
      (List.replicate n [.delay options.delayArgument, .pass]).flatten

/-- The last interval whose milliseconds an `int` can hold is 2147483 seconds. -/
theorem interval_le_of_exact {options : TokenCleanupOptions}
    (h : options.delayArgument.toInt = options.interval.toInt * 1000) :
    options.interval ≤ 2147483 := by
  have hmax := options.delayArgument.toInt_lt
  rw [h] at hmax
  apply Int32.le_iff_toInt_le.mpr
  have hu : (2147483 : Int32).toInt = 2147483 := rfl
  rw [hu]
  omega

theorem keepsInterval_iff {options : TokenCleanupOptions} (enable : options.enable = true)
    (guard : 1 ≤ options.interval) :
    KeepsInterval options ↔ options.interval ≤ 2147483 := by
  constructor
  · exact fun h => interval_le_of_exact h.exact
  · intro upper
    have hexact := delayArgument_toInt guard upper
    have hlower := Int32.le_iff_toInt_le.mp guard
    have hl : (1 : Int32).toInt = 1 := rfl
    rw [hl] at hlower
    refine ⟨hexact, ?_, taskDelay_delayArgument guard upper, ?_⟩
    · rw [hexact]
      omega
    · exact fun env n h => executeAsync_of_resolves enable guard upper h

theorem keepsInterval_hourly : KeepsInterval { enable := true, interval := 3600 } :=
  (keepsInterval_iff rfl (by decide)).mpr (by decide)

/-- One second more than fits, and the first delay throws and ends the loop. -/
theorem long_interval_not_kept :
    ¬∀ options : TokenCleanupOptions, options.enable = true → 1 ≤ options.interval →
      KeepsInterval options := by
  intro h
  have hkept := h { enable := true, interval := 2147484 } rfl (by decide)
  have hlooping := (hkept.separated (fun _ => {}) 1 (fun _ _ =>
    ⟨rfl, rfl, rfl, fun _ _ => rfl⟩)).1
  exact absurd hlooping (by decide)

/-- With an interval of 2^29 seconds the product is zero, and the loop does not wait at all. -/
example : ({ interval := 536870912 } : TokenCleanupOptions).delayArgument = 0 := by decide

end IdentityServerMongoDB
