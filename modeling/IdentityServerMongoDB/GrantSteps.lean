import IdentityServerMongoDB.GrantSystem

namespace IdentityServerMongoDB

/-- What an effect on the database can be, by the operation in flight. -/
inductive EffectCase (i : CallId) (docs : List Doc) (c : CallState) : CallState → List Doc → Prop
  | replaced {key entity} : c.pc = .search key entity →
      docs.any (fun d => d.grant.key = key) = true →
      EffectCase i docs c { c with
        pc := .stored
        replaced := (docs.find? (fun d => d.grant.key = key)).toList }
        (replaceFirst (fun d => d.grant.key = key) ⟨entity, i⟩ docs)
  | missed {key entity} : c.pc = .search key entity →
      docs.any (fun d => d.grant.key = key) = false →
      EffectCase i docs c { c with pc := .insert entity } docs
  | inserted {entity} : c.pc = .insert entity →
      EffectCase i docs c { c with pc := .stored } (docs ++ [⟨entity, i⟩])
  | found {key} : c.pc = .find key →
      EffectCase i docs c { c with
        pc := .finished
        task := .completed
        returned := (docs.find? (fun d => d.grant.key = key)).toList } docs
  | foundAll {filter} : c.pc = .findAll filter →
      EffectCase i docs c { c with
        pc := .finished
        task := .completed
        returned := docs.filter (fun d => getAllWhere filter d.grant) } docs
  | deleted {filter} : c.pc = .deleteMany filter →
      EffectCase i docs c { c with
        pc := .deleted
        removed := docs.filter (fun d => filter d.grant) }
        (deleteMany (fun d => filter d.grant) docs)
  | scanned {asked} : c.pc = .scan asked →
      EffectCase i docs c { c with
        pc := .scanned (docs.filter (fun d => isExpired asked d.grant)).length
        atQuery := docs } docs
  | expiredDeleted {built} : c.pc = .deleteExpired built →
      EffectCase i docs c { c with
        pc := .expiredDeleted
        removed := docs.filter (fun d => isExpired built d.grant) }
        (deleteMany (fun d => isExpired built d.grant) docs)

inductive ResumeCase (utcNow : DateTime) (c : CallState) : CallState → Prop
  | stored : c.pc = .stored → ResumeCase utcNow c { c with pc := .finished, task := .completed }
  | asked : c.pc = .query →
      ResumeCase utcNow c { c with pc := .scan utcNow, asked := utcNow }
  | some {found} : c.pc = .scanned found → 0 < found →
      ResumeCase utcNow c { c with pc := .deleteExpired utcNow }
  | none : c.pc = .scanned 0 →
      ResumeCase utcNow c { c with pc := .finished, task := .completed }
  | cleaned : c.pc = .expiredDeleted →
      ResumeCase utcNow c { c with pc := .finished, task := .completed }

inductive FailCase (c : CallState) : CallState → Prop
  | thrown : (∃ key entity, c.pc = .search key entity) ∨ (∃ entity, c.pc = .insert entity) ∨
      (∃ key, c.pc = .find key) ∨ (∃ filter, c.pc = .findAll filter) →
      FailCase c { c with pc := .failed, task := .faulted }
  | unobserved {filter} : c.pc = .deleteMany filter → FailCase c { c with pc := .failed }
  | logged : (∃ asked, c.pc = .scan asked) ∨ (∃ built, c.pc = .deleteExpired built) →
      FailCase c { c with pc := .failed, task := .completed }

/-- Everything a step of the system can be. -/
inductive GrantStepCase (s : GrantState) : GrantEvent → GrantState → Prop
  | called {i} (call : GrantCall) : s.calls i = none →
      GrantStepCase s (.call i call) (s.set i (s.newCall call call.start) s.docs)
  | threw {i} (call : GrantCall) : s.calls i = none →
      GrantStepCase s (.throwAtCall i call) (s.set i (s.newCall call call.thrown) s.docs)
  | effected {i c c' docs} : s.calls i = some c → EffectCase i s.docs c c' docs →
      GrantStepCase s (.effect i) (s.set i c' docs)
  | resumed {i c c'} : s.calls i = some c → ResumeCase s.utcNow c c' →
      GrantStepCase s (.resume i) (s.set i c' s.docs)
  | failed {i c c'} : s.calls i = some c → FailCase c c' →
      GrantStepCase s (.fail i) (s.set i c' s.docs)
  | ticked {utcNow} : s.utcNow ≤ utcNow →
      GrantStepCase s (.tick utcNow) { s with utcNow := utcNow }

/-- No index the context creates is unique, so the insert of an upsert never fails on one. -/
theorem insertOne_grantIndexes (d : Doc) (docs : List Doc) :
    insertOne (grantIndexes.map (Index.comap Doc.grant)) d docs = some (docs ++ [d]) := by
  apply insertOne_of_no_unique
  intro index hi
  obtain ⟨original, ho, rfl⟩ := List.mem_map.mp hi
  exact grantIndexes_not_unique original ho

theorem effect_cases {i : CallId} {docs docs' : List Doc} {c c' : CallState}
    (h : c.effect i docs = some (c', docs')) : EffectCase i docs c c' docs' := by
  unfold CallState.effect at h
  split at h
  next key entity hp =>
    split at h
    next ha => cases Option.some.inj h; exact EffectCase.replaced hp ha
    next ha => cases Option.some.inj h; exact EffectCase.missed hp (by simpa using ha)
  next entity hp =>
    rw [insertOne_grantIndexes] at h
    cases Option.some.inj h
    exact EffectCase.inserted hp
  next hp => cases Option.some.inj h; exact EffectCase.found hp
  next hp => cases Option.some.inj h; exact EffectCase.foundAll hp
  next hp => cases Option.some.inj h; exact EffectCase.deleted hp
  next hp => cases Option.some.inj h; exact EffectCase.scanned hp
  next hp => cases Option.some.inj h; exact EffectCase.expiredDeleted hp
  next => simp at h

theorem resume_cases {utcNow : DateTime} {c c' : CallState} (h : c.resume utcNow = some c') :
    ResumeCase utcNow c c' := by
  unfold CallState.resume at h
  split at h
  next hp => cases Option.some.inj h; exact ResumeCase.stored hp
  next hp => cases Option.some.inj h; exact ResumeCase.asked hp
  next found hp =>
    split at h
    next hf => cases Option.some.inj h; exact ResumeCase.some hp hf
    next hf =>
      have hz : found = 0 := by omega
      subst found
      cases Option.some.inj h
      exact ResumeCase.none hp
  next hp => cases Option.some.inj h; exact ResumeCase.cleaned hp
  next => simp at h

theorem fail_cases {c c' : CallState} (h : c.fail = some c') : FailCase c c' := by
  unfold CallState.fail at h
  split at h
  next key entity hp =>
    cases Option.some.inj h
    exact FailCase.thrown (Or.inl ⟨key, entity, hp⟩)
  next entity hp =>
    cases Option.some.inj h
    exact FailCase.thrown (Or.inr (Or.inl ⟨entity, hp⟩))
  next key hp =>
    cases Option.some.inj h
    exact FailCase.thrown (Or.inr (Or.inr (Or.inl ⟨key, hp⟩)))
  next filter hp =>
    cases Option.some.inj h
    exact FailCase.thrown (Or.inr (Or.inr (Or.inr ⟨filter, hp⟩)))
  next hp => cases Option.some.inj h; exact FailCase.unobserved hp
  next asked hp => cases Option.some.inj h; exact FailCase.logged (Or.inl ⟨asked, hp⟩)
  next built hp => cases Option.some.inj h; exact FailCase.logged (Or.inr ⟨built, hp⟩)
  next => simp at h

theorem grantStep_cases {s s' : GrantState} {e : GrantEvent} (h : grantStep s e = some s') :
    GrantStepCase s e s' := by
  cases e with
  | call i call =>
    simp only [grantStep] at h
    split at h
    next => simp at h
    next hn => cases Option.some.inj h; exact GrantStepCase.called call hn
  | throwAtCall i call =>
    simp only [grantStep] at h
    split at h
    next => simp at h
    next hn => cases Option.some.inj h; exact GrantStepCase.threw call hn
  | effect i =>
    obtain ⟨c, hc, h⟩ := Option.bind_eq_some_iff.mp h
    obtain ⟨⟨c', docs⟩, he, h⟩ := Option.bind_eq_some_iff.mp h
    cases Option.some.inj h
    exact GrantStepCase.effected hc (effect_cases he)
  | resume i =>
    obtain ⟨c, hc, h⟩ := Option.bind_eq_some_iff.mp h
    obtain ⟨c', hr, h⟩ := Option.bind_eq_some_iff.mp h
    cases Option.some.inj h
    exact GrantStepCase.resumed hc (resume_cases hr)
  | fail i =>
    obtain ⟨c, hc, h⟩ := Option.bind_eq_some_iff.mp h
    obtain ⟨c', hf, h⟩ := Option.bind_eq_some_iff.mp h
    cases Option.some.inj h
    exact GrantStepCase.failed hc (fail_cases hf)
  | tick utcNow =>
    simp only [grantStep] at h
    split at h
    next hle => cases Option.some.inj h; exact GrantStepCase.ticked hle
    next => simp at h

theorem set_calls_self (s : GrantState) (i : CallId) (c : CallState) (docs : List Doc) :
    (s.set i c docs).calls i = some c := Function.update_self ..

theorem set_calls_other (s : GrantState) {i j : CallId} (h : j ≠ i) (c : CallState)
    (docs : List Doc) : (s.set i c docs).calls j = s.calls j := Function.update_of_ne h ..

theorem set_calls_some {s : GrantState} {i j : CallId} {c d : CallState} {docs : List Doc}
    (h : (s.set i c docs).calls j = some d) :
    (j = i ∧ d = c) ∨ (j ≠ i ∧ s.calls j = some d) := by
  by_cases hj : j = i
  · subst j
    rw [set_calls_self] at h
    exact Or.inl ⟨rfl, (Option.some.inj h).symm⟩
  · rw [set_calls_other s hj] at h
    exact Or.inr ⟨hj, h⟩

@[simp] theorem set_docs (s : GrantState) (i : CallId) (c : CallState) (docs : List Doc) :
    (s.set i c docs).docs = docs := rfl

@[simp] theorem set_utcNow (s : GrantState) (i : CallId) (c : CallState) (docs : List Doc) :
    (s.set i c docs).utcNow = s.utcNow := rfl

end IdentityServerMongoDB
