import IdentityServerMongoDB.GrantInvariant

namespace IdentityServerMongoDB

/-- The read a call has in flight can return the grant. -/
def Pc.Reads (pc : Pc) (x : Entities.PersistedGrant) : Prop :=
  match pc with
  | .find key => x.key = key
  | .findAll filter => getAllWhere filter x = true
  | _ => False

def Pc.HasWritten : Pc → Prop
  | .stored | .finished => True
  | _ => False

/-- Neither a read nor the delete of a removal is in flight or just done. -/
def Pc.Silent : Pc → Prop
  | .find _ | .findAll _ | .deleteMany _ | .deleted => False
  | _ => True

/-- What one step over `docs` can make of a call. -/
structure CallState.Evolves (docs docs' : List Doc) (c c' : CallState) : Prop where
  call : c'.call = c.call
  after : c'.after = c.after
  ended : c'.ended = c.ended
  atCall : c'.atCall = c.atCall
  reads : ∀ x, c'.pc.Reads x → c.pc.Reads x
  hasWritten : c.pc.HasWritten → c'.pc.HasWritten
  failed : c.pc = .failed → c'.pc = .failed
  pending : ∀ filter, c'.pc = .deleteMany filter → c.pc = .deleteMany filter
  deleted : c'.pc = .deleted → c.pc = .deleted ∨
    ∃ filter, c.pc = .deleteMany filter ∧ docs' = deleteMany (fun d => filter d.grant) docs
  returned : ∀ d ∈ c'.returned, d ∈ c.returned ∨ (d ∈ docs ∧ c.pc.Reads d.grant)
  removed : ∀ d ∈ c'.removed, d ∈ c.removed ∨ (d ∈ docs ∧
    ((∃ filter : Entities.PersistedGrant → Bool,
        c.pc = .deleteMany filter ∧ filter d.grant = true) ∨
      ∃ built, c.pc = .deleteExpired built ∧ isExpired built d.grant = true))
  queried : ∀ d ∈ c'.atQuery, d ∈ c.atQuery ∨ d ∈ docs

theorem CallState.Evolves.refl (docs docs' : List Doc) (c : CallState) :
    c.Evolves docs docs' c where
  call := rfl
  after := rfl
  ended := rfl
  atCall := rfl
  reads := fun _ h => h
  hasWritten := id
  failed := id
  pending := fun _ h => h
  deleted := Or.inl
  returned := fun _ h => Or.inl h
  removed := fun _ h => Or.inl h
  queried := fun _ h => Or.inl h

theorem evolves_silent {docs docs' : List Doc} {c : CallState} {before pc : Pc} {task : TaskStatus}
    {replaced atQuery : List Doc} {asked : DateTime} (hp : c.pc = before) (live : before ≠ .failed)
    (silent : pc.Silent) (hasWritten : before.HasWritten → pc.HasWritten)
    (queried : ∀ d ∈ atQuery, d ∈ c.atQuery ∨ d ∈ docs) :
    c.Evolves docs docs' { c with
      pc := pc, task := task, replaced := replaced, asked := asked, atQuery := atQuery } where
  call := rfl
  after := rfl
  ended := rfl
  atCall := rfl
  reads := by cases pc <;> first | exact fun _ => False.elim | exact silent.elim
  hasWritten := by rwa [hp]
  failed := fun h => absurd (hp.symm.trans h) live
  pending := by rintro filter rfl; exact silent.elim
  deleted := by rintro rfl; exact silent.elim
  returned := fun _ h => Or.inl h
  removed := fun _ h => Or.inl h
  queried := queried

theorem effect_evolves {i : CallId} {docs docs' : List Doc} {c c' : CallState}
    (h : EffectCase i docs c c' docs') : c.Evolves docs docs' c' := by
  have live : ∀ {pc : Pc} {q : Prop}, c.pc = pc → pc ≠ .failed → c.pc = .failed → q :=
    fun hp hn hf => absurd (hp.symm.trans hf) hn
  cases h with
  | replaced hp => exact evolves_silent hp Pc.noConfusion trivial (fun _ => trivial) (fun _ => Or.inl)
  | missed hp => exact evolves_silent hp Pc.noConfusion trivial id (fun _ => Or.inl)
  | inserted hp => exact evolves_silent hp Pc.noConfusion trivial (fun _ => trivial) (fun _ => Or.inl)
  | scanned hp => exact evolves_silent hp Pc.noConfusion trivial id (fun _ => Or.inr)
  | @found key hp =>
    refine ⟨rfl, rfl, rfl, rfl, fun _ => False.elim, fun _ => trivial, live hp Pc.noConfusion,
      fun _ => Pc.noConfusion, Pc.noConfusion, ?_, fun _ => Or.inl, fun _ => Or.inl⟩
    intro d hd
    have hf := Option.mem_toList.mp hd
    have hk : d.grant.key = key := by simpa using List.find?_some hf
    refine Or.inr ⟨List.mem_of_find?_eq_some hf, ?_⟩
    rw [hp]
    exact hk
  | @foundAll filter hp =>
    refine ⟨rfl, rfl, rfl, rfl, fun _ => False.elim, fun _ => trivial, live hp Pc.noConfusion,
      fun _ => Pc.noConfusion, Pc.noConfusion, ?_, fun _ => Or.inl, fun _ => Or.inl⟩
    intro d hd
    obtain ⟨hm, hf⟩ := List.mem_filter.mp hd
    refine Or.inr ⟨hm, ?_⟩
    rw [hp]
    exact hf
  | @deleted filter hp =>
    refine ⟨rfl, rfl, rfl, rfl, fun _ => False.elim, by rw [hp]; exact id, live hp Pc.noConfusion,
      fun _ => Pc.noConfusion, fun _ => Or.inr ⟨filter, hp, rfl⟩, fun _ => Or.inl, ?_, fun _ => Or.inl⟩
    intro d hd
    obtain ⟨hm, hf⟩ := List.mem_filter.mp hd
    exact Or.inr ⟨hm, Or.inl ⟨filter, hp, hf⟩⟩
  | @expiredDeleted built hp =>
    refine ⟨rfl, rfl, rfl, rfl, fun _ => False.elim, by rw [hp]; exact id, live hp Pc.noConfusion,
      fun _ => Pc.noConfusion, Pc.noConfusion, fun _ => Or.inl, ?_, fun _ => Or.inl⟩
    intro d hd
    obtain ⟨hm, hf⟩ := List.mem_filter.mp hd
    exact Or.inr ⟨hm, Or.inr ⟨built, hp, hf⟩⟩

theorem resume_evolves {utcNow : DateTime} {docs docs' : List Doc} {c c' : CallState}
    (h : ResumeCase utcNow c c') : c.Evolves docs docs' c' := by
  cases h with
  | stored hp => exact evolves_silent hp Pc.noConfusion trivial (fun _ => trivial) (fun _ => Or.inl)
  | asked hp => exact evolves_silent hp Pc.noConfusion trivial id (fun _ => Or.inl)
  | some hp => exact evolves_silent hp Pc.noConfusion trivial id (fun _ => Or.inl)
  | none hp => exact evolves_silent hp Pc.noConfusion trivial (fun _ => trivial) (fun _ => Or.inl)
  | cleaned hp => exact evolves_silent hp Pc.noConfusion trivial (fun _ => trivial) (fun _ => Or.inl)

theorem fail_evolves {docs docs' : List Doc} {c c' : CallState} (h : FailCase c c') :
    c.Evolves docs docs' c' := by
  cases h with
  | thrown hp =>
    rcases hp with ⟨_, _, hp⟩ | ⟨_, hp⟩ | ⟨_, hp⟩ | ⟨_, hp⟩
    · exact evolves_silent hp Pc.noConfusion trivial id (fun _ => Or.inl)
    · exact evolves_silent hp Pc.noConfusion trivial id (fun _ => Or.inl)
    · exact evolves_silent hp Pc.noConfusion trivial id (fun _ => Or.inl)
    · exact evolves_silent hp Pc.noConfusion trivial id (fun _ => Or.inl)
  | unobserved hp => exact evolves_silent hp Pc.noConfusion trivial id (fun _ => Or.inl)
  | logged hp =>
    rcases hp with ⟨_, hp⟩ | ⟨_, hp⟩
    · exact evolves_silent hp Pc.noConfusion trivial id (fun _ => Or.inl)
    · exact evolves_silent hp Pc.noConfusion trivial id (fun _ => Or.inl)

theorem set_evolves {s : GrantState} {i j : CallId} {c c' d : CallState} {docs docs' : List Doc}
    (hc : s.calls i = some c) (he : c.Evolves s.docs docs' c') (hd : s.calls j = some d) :
    ∃ d', (s.set i c' docs).calls j = some d' ∧ d.Evolves s.docs docs' d' := by
  by_cases hj : j = i
  · subst j
    rw [hc] at hd
    cases Option.some.inj hd
    exact ⟨c', set_calls_self .., he⟩
  · exact ⟨d, (set_calls_other s hj _ _).trans hd, CallState.Evolves.refl ..⟩

/-- A step keeps every call that was made, and makes of it what it can. -/
theorem call_of_step {s s' : GrantState} {e : GrantEvent} (h : GrantStepCase s e s') {j : CallId}
    {c : CallState} (hc : s.calls j = some c) :
    ∃ c', s'.calls j = some c' ∧ c.Evolves s.docs s'.docs c' := by
  have other : ∀ {i : CallId} (c' : CallState), s.calls i = none →
      ∃ d, (s.set i c' s.docs).calls j = some d ∧ c.Evolves s.docs s.docs d := by
    intro i c' hn
    have hj : j ≠ i := by
      rintro rfl
      rw [hc] at hn
      cases hn
    exact ⟨c, (set_calls_other s hj _ _).trans hc, CallState.Evolves.refl ..⟩
  cases h with
  | called call hn => exact other _ hn
  | threw call hn => exact other _ hn
  | effected hi he => exact set_evolves hi (effect_evolves he) hc
  | resumed hi hr => exact set_evolves hi (resume_evolves hr) hc
  | failed hi hf => exact set_evolves hi (fail_evolves hf) hc
  | ticked => exact ⟨c, hc, CallState.Evolves.refl ..⟩

theorem evolves_of_step {s s' : GrantState} {e : GrantEvent} (h : GrantStepCase s e s')
    {j : CallId} {c c' : CallState} (hc : s.calls j = some c) (hc' : s'.calls j = some c') :
    c.Evolves s.docs s'.docs c' := by
  obtain ⟨d, hd, he⟩ := call_of_step h hc
  rw [hc'] at hd
  cases Option.some.inj hd
  exact he

/-- A call there is after a step was there before it, or is what the step made. -/
theorem call_before_step {s s' : GrantState} {e : GrantEvent} (h : GrantStepCase s e s')
    {j : CallId} {c' : CallState} (hc' : s'.calls j = some c') :
    (∃ c, s.calls j = some c ∧ c.Evolves s.docs s'.docs c') ∨
    ∃ call entry, c' = s.newCall call entry ∧
      ((e = .call j call ∧ entry = call.start) ∨ entry = call.thrown) := by
  cases hc : s.calls j with
  | some c => exact Or.inl ⟨c, rfl, evolves_of_step h hc hc'⟩
  | none =>
    have gone : ∀ {i : CallId} {c d : CallState} {docs : List Doc}, s.calls i = some c →
        (s.set i d docs).calls j ≠ some c' := by
      intro i c d docs hi hset
      rcases set_calls_some hset with ⟨rfl, _⟩ | ⟨_, hold⟩
      · rw [hc] at hi
        cases hi
      · rw [hc] at hold
        cases hold
    apply Or.inr
    cases h with
    | called call hn =>
      rcases set_calls_some hc' with ⟨rfl, rfl⟩ | ⟨_, hold⟩
      · exact ⟨call, _, rfl, Or.inl ⟨rfl, rfl⟩⟩
      · rw [hc] at hold
        cases hold
    | threw call hn =>
      rcases set_calls_some hc' with ⟨rfl, rfl⟩ | ⟨_, hold⟩
      · exact ⟨call, _, rfl, Or.inr rfl⟩
      · rw [hc] at hold
        cases hold
    | effected hi => exact absurd hc' (gone hi)
    | resumed hi => exact absurd hc' (gone hi)
    | failed hi => exact absurd hc' (gone hi)
    | ticked =>
      rw [hc] at hc'
      cases hc'

end IdentityServerMongoDB
