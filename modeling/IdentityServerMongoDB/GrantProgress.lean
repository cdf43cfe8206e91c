import IdentityServerMongoDB.GrantInvariant

namespace IdentityServerMongoDB

/-- The most steps a call has left before it is over. -/
def Pc.remaining : Pc → Nat
  | .query => 5
  | .scan _ => 4
  | .search _ _ | .scanned _ => 3
  | .insert _ | .deleteExpired _ => 2
  | .stored | .find _ | .findAll _ | .deleteMany _ | .expiredDeleted => 1
  | .deleted | .finished | .failed => 0

/-- The step is one of the call's own. -/
def GrantEvent.own (i : CallId) : GrantEvent → Bool
  | .effect j | .resume j | .fail j => j = i
  | .call _ _ | .throwAtCall _ _ | .tick _ => false

/-- Somebody waits for the task of a call that has come this far. -/
def Pc.Awaited : Pc → Prop
  | .deleteMany _ | .deleted | .finished | .failed => False
  | _ => True

theorem remaining_of_awaited {pc : Pc} (h : pc.Awaited) : 0 < pc.remaining := by
  cases pc with
  | deleteMany | deleted | finished | failed => exact h.elim
  | _ => simp [Pc.remaining]

theorem remaining_le (pc : Pc) : pc.remaining ≤ 5 := by
  cases pc <;> simp [Pc.remaining]

theorem effect_remaining {i : CallId} {docs docs' : List Doc} {c c' : CallState}
    (h : EffectCase i docs c c' docs') : c'.pc.remaining + 1 ≤ c.pc.remaining := by
  cases h with
  | replaced hp | missed hp | inserted hp | found hp | foundAll hp | deleted hp | scanned hp
  | expiredDeleted hp =>
    rw [hp]
    simp [Pc.remaining]

theorem resume_remaining {utcNow : DateTime} {c c' : CallState} (h : ResumeCase utcNow c c') :
    c'.pc.remaining + 1 ≤ c.pc.remaining := by
  cases h with
  | stored hp | asked hp | some hp | none hp | cleaned hp =>
    rw [hp]
    simp [Pc.remaining]

theorem fail_remaining {c c' : CallState} (h : FailCase c c') :
    c'.pc.remaining + 1 ≤ c.pc.remaining := by
  cases h with
  | thrown hp =>
    rcases hp with ⟨_, _, hp⟩ | ⟨_, hp⟩ | ⟨_, hp⟩ | ⟨_, hp⟩ <;>
      (rw [hp]; simp [Pc.remaining])
  | unobserved hp =>
    rw [hp]
    simp [Pc.remaining]
  | logged hp =>
    rcases hp with ⟨_, hp⟩ | ⟨_, hp⟩ <;> (rw [hp]; simp [Pc.remaining])

/-- Its own steps bring a call nearer to its end, and no other step takes it back. -/
theorem remaining_step {s s' : GrantState} {e : GrantEvent} (h : GrantStepCase s e s') {i : CallId}
    {c : CallState} (hc : s.calls i = some c) :
    ∃ c', s'.calls i = some c' ∧
      c'.pc.remaining + (if e.own i then 1 else 0) ≤ c.pc.remaining := by
  have made : ∀ {j : CallId} {d : CallState}, s.calls j = none →
      (s.set j d s.docs).calls i = some c := by
    intro j d hn
    have hj : i ≠ j := by
      rintro rfl
      rw [hc] at hn
      cases hn
    rw [set_calls_other s hj]
    exact hc
  have moved : ∀ {j : CallId} {d d' : CallState} {docs : List Doc}, s.calls j = some d →
      d'.pc.remaining + 1 ≤ d.pc.remaining → ∃ c', (s.set j d' docs).calls i = some c' ∧
        c'.pc.remaining + (if decide (j = i) then 1 else 0) ≤ c.pc.remaining := by
    intro j d d' docs hd hless
    by_cases hj : j = i
    · subst j
      rw [hc] at hd
      cases Option.some.inj hd
      refine ⟨d', set_calls_self .., ?_⟩
      simpa using hless
    · refine ⟨c, (set_calls_other s (Ne.symm hj) _ _).trans hc, ?_⟩
      simp [hj]
  cases h with
  | called call hn => exact ⟨c, made hn, Nat.le_refl _⟩
  | threw call hn => exact ⟨c, made hn, Nat.le_refl _⟩
  | effected hd he => exact moved hd (effect_remaining he)
  | resumed hd hr => exact moved hd (resume_remaining hr)
  | failed hd hf => exact moved hd (fail_remaining hf)
  | ticked => exact ⟨c, hc, Nat.le_refl _⟩

theorem remaining_run {s s' : GrantState} {events : List GrantEvent}
    (h : runAll grantStep s events = some s') {i : CallId} {c : CallState}
    (hc : s.calls i = some c) :
    ∃ c', s'.calls i = some c' ∧
      c'.pc.remaining + events.countP (GrantEvent.own i) ≤ c.pc.remaining := by
  induction events generalizing s c with
  | nil =>
    cases Option.some.inj h
    exact ⟨c, hc, Nat.le_refl _⟩
  | cons e events ih =>
    simp only [runAll] at h
    split at h
    next => simp at h
    next next hstep =>
      obtain ⟨d, hd, hfirst⟩ := remaining_step (grantStep_cases hstep) hc
      obtain ⟨c', hc', hrest⟩ := ih h hd
      refine ⟨c', hc', ?_⟩
      rw [List.countP_cons]
      omega

theorem effect_or_resume {c : CallState} (h : 0 < c.pc.remaining) (i : CallId) (docs : List Doc)
    (utcNow : DateTime) :
    (c.effect i docs).isSome = true ∨ (c.resume utcNow).isSome = true := by
  cases hp : c.pc with
  | search key entity =>
    apply Or.inl
    simp only [CallState.effect, hp]
    split
    next => rfl
    next => rfl
  | insert entity => exact Or.inl (by simp only [CallState.effect, hp, insertOne_grantIndexes]; rfl)
  | find _ | findAll _ | deleteMany _ | scan _ | deleteExpired _ =>
    exact Or.inl (by simp only [CallState.effect, hp]; rfl)
  | stored | query | expiredDeleted => exact Or.inr (by simp only [CallState.resume, hp]; rfl)
  | scanned found =>
    apply Or.inr
    simp only [CallState.resume, hp]
    split
    next => rfl
    next => rfl
  | deleted | finished | failed =>
    rw [hp] at h
    cases h

/-- A call that is not over can go on, whatever else is going on. -/
theorem step_of_remaining {s : GrantState} {i : CallId} {c : CallState} (hc : s.calls i = some c)
    (h : 0 < c.pc.remaining) : ∃ e s', (e = .effect i ∨ e = .resume i) ∧ grantStep s e = some s' := by
  rcases effect_or_resume h i s.docs s.utcNow with he | hr
  · obtain ⟨⟨c', docs⟩, he⟩ := Option.isSome_iff_exists.mp he
    exact ⟨.effect i, s.set i c' docs, Or.inl rfl, by simp [grantStep, hc, he]⟩
  · obtain ⟨c', hr⟩ := Option.isSome_iff_exists.mp hr
    exact ⟨.resume i, s.set i c' s.docs, Or.inr rfl, by simp [grantStep, hc, hr]⟩

/-- The task of a call runs only where the call is not over. A removal has none that runs. -/
theorem awaited_of_running {guard : GrantState → GrantEvent → Prop} {s : GrantState}
    (reach : GrantReach guard s) {i : CallId} {c : CallState} (hc : s.calls i = some c) :
    c.task = .running → c.pc.Awaited := by
  refine calls_invariant (P := fun c => c.task = .running → c.pc.Awaited) ?_ ?_ ?_ ?_ ?_ reach i c hc
  · intro s call
    cases call with
    | storeAsync token => exact fun _ => trivial
    | getAsync key => exact fun _ => trivial
    | removeAsync key => exact TaskStatus.noConfusion
    | removeExpiredGrantsAsync => exact fun _ => trivial
    | getAllAsync filter | removeAllAsync filter =>
      cases hv : validate filter <;> simp [GrantState.newCall, GrantCall.start, hv, Pc.Awaited]
  · intro s call
    cases call <;> simp [GrantState.newCall, GrantCall.thrown]
  · intro i docs c c' docs' ih h
    cases h with
    | replaced | missed | inserted | scanned | expiredDeleted => exact fun _ => trivial
    | found | foundAll => exact TaskStatus.noConfusion
    | deleted hp =>
      rw [hp] at ih
      exact ih
  · intro utcNow c c' ih h
    cases h with
    | asked | some => exact fun _ => trivial
    | stored | none | cleaned => exact TaskStatus.noConfusion
  · intro c c' ih h
    cases h with
    | thrown | logged => exact TaskStatus.noConfusion
    | unobserved hp =>
      rw [hp] at ih
      exact ih

/-- No call ever waits for another one: in every run on from a state it is in, a call
takes at most the steps it had left there, of which there are five at most, and as
long as somebody waits for its task it can take one that is no failure. -/
theorem calls_wait_free {s s' : GrantState} {events : List GrantEvent}
    (reach : GrantReach anyStep s) (h : runAll grantStep s events = some s') {i : CallId} {c : CallState}
    (hc : s.calls i = some c) :
    ∃ c', s'.calls i = some c' ∧
      c'.pc.remaining + events.countP (GrantEvent.own i) ≤ c.pc.remaining ∧ c.pc.remaining ≤ 5 ∧
      (c'.task = .running →
        ∃ e s'', (e = .effect i ∨ e = .resume i) ∧ grantStep s' e = some s'') := by
  obtain ⟨c', hc', hsteps⟩ := remaining_run h hc
  refine ⟨c', hc', hsteps, remaining_le _, ?_⟩
  intro hrunning
  have hawaited := awaited_of_running (reach.of_runAll h) hc' hrunning
  exact step_of_remaining hc' (remaining_of_awaited hawaited)

/-- A store that is overtaken by a removal and a read still ends by itself. -/
def overtakenRun : List GrantEvent :=
  [.call 2 (.removeAsync (some "k")), .effect 2, .call 3 (.getAsync (some "k")), .effect 1,
    .effect 3, .effect 1, .resume 1]

theorem calls_wait_free_overtaken :
    ∃ s s' c c', runAll grantStep grantInit [.call 1 (.storeAsync { key := some "k" })] = some s ∧
      s.calls 1 = some c ∧ runAll grantStep s overtakenRun = some s' ∧ s'.calls 1 = some c' ∧
      c'.pc.remaining + overtakenRun.countP (GrantEvent.own 1) ≤ c.pc.remaining := by
  have reach : ∀ s, runAll grantStep grantInit
      [.call 1 (.storeAsync { key := some "k" })] = some s → GrantReach anyStep s :=
    fun s hs => Reach.start.of_runAll hs
  refine ⟨_, _, _, _, rfl, rfl, rfl, rfl, ?_⟩
  obtain ⟨c', hc', hsteps, _⟩ := @calls_wait_free _ _ overtakenRun (reach _ rfl) rfl 1 _ rfl
  cases Option.some.inj hc'
  exact hsteps

end IdentityServerMongoDB
