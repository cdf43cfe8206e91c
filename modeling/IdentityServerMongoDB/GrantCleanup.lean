import IdentityServerMongoDB.GrantDocuments

namespace IdentityServerMongoDB

/-- How far a cleanup pass has come, and what it has established. -/
def CallState.CleanupStage (s : GrantState) (c : CallState) : Prop :=
  match c.pc with
  | .scan asked => c.asked = asked ∧ asked ≤ s.utcNow
  | .scanned found => c.asked ≤ s.utcNow ∧
      (found = 0 → ∀ d ∈ c.atQuery, isExpired c.asked d.grant = false)
  | .deleteExpired built => c.asked ≤ built ∧ built ≤ s.utcNow
  | .expiredDeleted | .finished =>
    ∀ d ∈ s.docs, d ∈ c.atQuery → isExpired c.asked d.grant = false
  | _ => True

/-- What a pass has established lasts while the clock does not go back and the
documents it queried are not put back. -/
theorem cleanupStage_frame {s s' : GrantState} {c : CallState} (hc : c.CleanupStage s)
    (clock : s.utcNow ≤ s'.utcNow) (docs : ∀ d ∈ s'.docs, d ∈ c.atQuery → d ∈ s.docs) :
    c.CleanupStage s' := by
  have gone : (∀ d ∈ s.docs, d ∈ c.atQuery → isExpired c.asked d.grant = false) →
      ∀ d ∈ s'.docs, d ∈ c.atQuery → isExpired c.asked d.grant = false :=
    fun h d hd hq => h d (docs d hd hq) hq
  unfold CallState.CleanupStage at hc ⊢
  cases hp : c.pc with
  | scan asked => rw [hp] at hc; exact ⟨hc.1, Nat.le_trans hc.2 clock⟩
  | scanned found => rw [hp] at hc; exact ⟨Nat.le_trans hc.1 clock, hc.2⟩
  | deleteExpired built => rw [hp] at hc; exact ⟨hc.1, Nat.le_trans hc.2 clock⟩
  | expiredDeleted => rw [hp] at hc; exact gone hc
  | finished => rw [hp] at hc; exact gone hc
  | _ => trivial

theorem effect_cleanupStage {s : GrantState} {i : CallId} {c c' : CallState} {docs : List Doc}
    (hcon : c.Consistent) (hcall : c.call = .removeExpiredGrantsAsync) (hc : c.CleanupStage s)
    (h : EffectCase i s.docs c c' docs) : c'.CleanupStage (s.set i c' docs) := by
  unfold CallState.CleanupStage at hc
  cases h with
  | replaced => trivial
  | missed => trivial
  | inserted => trivial
  | deleted => trivial
  | found hp => cases hcall.symm.trans (hcon.find hp)
  | foundAll hp => cases hcall.symm.trans (hcon.findAll hp)
  | @scanned asked hp =>
    rw [hp] at hc
    obtain ⟨heq, hle⟩ := hc
    subst asked
    refine ⟨hle, ?_⟩
    intro hnone d hd
    have hempty := List.length_eq_zero_iff.mp hnone
    have hnot := List.filter_eq_nil_iff.mp hempty d hd
    simpa using hnot
  | @expiredDeleted built hp =>
    rw [hp] at hc
    intro d hd _
    have hkept := (mem_deleteMany.mp hd).2
    cases hexp : isExpired c.asked d.grant with
    | false => rfl
    | true =>
      have hlater : isExpired built d.grant = true := isBefore_mono hc.1 hexp
      rw [hkept] at hlater
      cases hlater

theorem resume_cleanupStage {s : GrantState} {i : CallId} {c c' : CallState}
    (hcon : c.Consistent) (hcall : c.call = .removeExpiredGrantsAsync) (hc : c.CleanupStage s)
    (h : ResumeCase s.utcNow c c') : c'.CleanupStage (s.set i c' s.docs) := by
  unfold CallState.CleanupStage at hc
  cases h with
  | stored hp =>
    obtain ⟨token, hstore⟩ := hcon.stored hp
    cases hcall.symm.trans hstore
  | asked => exact ⟨rfl, Nat.le_refl _⟩
  | some hp =>
    rw [hp] at hc
    exact ⟨hc.1, Nat.le_refl _⟩
  | none hp =>
    rw [hp] at hc
    exact fun d _ hq => hc.2 rfl d hq
  | cleaned hp =>
    rw [hp] at hc
    exact hc

theorem fail_cleanupStage {s : GrantState} {c c' : CallState} (h : FailCase c c') :
    c'.CleanupStage s := by
  cases h <;> trivial

theorem cleanupStage_step {guard : GrantState → GrantEvent → Prop} {s s' : GrantState}
    {e : GrantEvent} (reach : GrantReach guard s)
    (inv : ∀ i c, s.calls i = some c → c.call = .removeExpiredGrantsAsync → c.CleanupStage s)
    (h : GrantStepCase s e s') {j : CallId} {c' : CallState} (hc' : s'.calls j = some c')
    (hcall : c'.call = .removeExpiredGrantsAsync) : c'.CleanupStage s' := by
  have clock : s.utcNow ≤ s'.utcNow := by
    cases h with
    | ticked hle => exact hle
    | _ => exact Nat.le_refl _
  have kept : s.calls j = some c' → c'.CleanupStage s' := by
    intro hc
    refine cleanupStage_frame (inv j c' hc hcall) clock ?_
    exact fun d hd hq => mem_docs_before_step h (met_written reach hc (Or.inr (Or.inr hq))) hd
  cases h with
  | called call =>
    rcases set_calls_some hc' with ⟨_, rfl⟩ | ⟨_, hold⟩
    · have heq : call = .removeExpiredGrantsAsync := hcall
      subst call
      trivial
    · exact kept hold
  | threw call =>
    rcases set_calls_some hc' with ⟨_, rfl⟩ | ⟨_, hold⟩
    · have hp := thrownCall_pc s call
      unfold CallState.CleanupStage
      rw [hp]
      trivial
    · exact kept hold
  | effected hc he =>
    rcases set_calls_some hc' with ⟨rfl, rfl⟩ | ⟨_, hold⟩
    · have hsame : _ = GrantCall.removeExpiredGrantsAsync := (effect_evolves he).call ▸ hcall
      exact effect_cleanupStage (reach_consistent reach hc) hsame (inv _ _ hc hsame) he
    · exact kept hold
  | resumed hc hr =>
    rcases set_calls_some hc' with ⟨rfl, rfl⟩ | ⟨_, hold⟩
    · have hsame := (@resume_evolves _ s.docs s.docs _ _ hr).call.symm.trans hcall
      exact resume_cleanupStage (reach_consistent reach hc) hsame (inv _ _ hc hsame) hr
    · exact kept hold
  | failed hc hf =>
    rcases set_calls_some hc' with ⟨rfl, rfl⟩ | ⟨_, hold⟩
    · exact fail_cleanupStage hf
    · exact kept hold
  | ticked => exact kept hc'

theorem reach_cleanupStage {guard : GrantState → GrantEvent → Prop} {s : GrantState}
    (reach : GrantReach guard s) : ∀ i c, s.calls i = some c →
      c.call = .removeExpiredGrantsAsync → c.CleanupStage s := by
  induction reach with
  | start => simp [grantInit]
  | next prior _ step ih =>
    exact fun i c hc hcall => cleanupStage_step prior ih (grantStep_cases step) hc hcall

/-- A pass deletes what is expired under the clock of the step that deletes it,
as the clock has not gone back since the filter was built. -/
theorem deleted_by_cleanup_expired {guard : GrantState → GrantEvent → Prop} {s s' : GrantState}
    (reach : GrantReach guard s) {e : GrantEvent} {i : CallId} {c : CallState}
    (hc : s.calls i = some c) (hcall : c.call = .removeExpiredGrantsAsync)
    (he : e = .effect i ∨ e = .resume i ∨ e = .fail i) (h : grantStep s e = some s') {d : Doc}
    (hd : d ∈ s.docs) (hgone : d ∉ s'.docs) : isExpired s.utcNow d.grant = true := by
  have hcon := reach_consistent reach hc
  have hstage := reach_cleanupStage reach i c hc hcall
  unfold CallState.CleanupStage at hstage
  cases grantStep_cases h with
  | called => rcases he with he | he | he <;> cases he
  | threw => rcases he with he | he | he <;> cases he
  | ticked => rcases he with he | he | he <;> cases he
  | resumed => exact absurd hd hgone
  | failed => exact absurd hd hgone
  | @effected i' c0 c' docs hc0 heffect =>
    have hi : i' = i := by
      rcases he with he | he | he
      · exact GrantEvent.effect.inj he
      · cases he
      · cases he
    subst i'
    rw [hc] at hc0
    cases Option.some.inj hc0
    cases heffect with
    | replaced hp =>
      obtain ⟨token, hstore, _⟩ := hcon.search hp
      cases hcall.symm.trans hstore
    | inserted hp =>
      obtain ⟨token, hstore, _⟩ := hcon.insert hp
      cases hcall.symm.trans hstore
    | deleted hp =>
      have hfilter := hcon.deleteMany hp
      rw [hcall] at hfilter
      cases hfilter
    | missed => exact absurd hd hgone
    | found => exact absurd hd hgone
    | foundAll => exact absurd hd hgone
    | scanned => exact absurd hd hgone
    | @expiredDeleted built hp =>
      rw [hp] at hstage
      cases hexp : isExpired built d.grant with
      | false => exact absurd (mem_deleteMany.mpr ⟨hd, hexp⟩) hgone
      | true => exact isBefore_mono hstage.2 hexp

/-- A cleanup pass among any other calls deletes dead grants only, and when it
met no failure none is left of those that were dead when it asked for them. -/
theorem cleanup_removes_dead_grants {s : GrantState} (reach : GrantReach anyStep s) {i : CallId}
    {c : CallState} (hc : s.calls i = some c) (hcall : c.call = .removeExpiredGrantsAsync) :
    (∀ e s', e = .effect i ∨ e = .resume i ∨ e = .fail i → grantStep s e = some s' →
      ∀ d ∈ s.docs, d ∉ s'.docs → ∃ t, d.grant.expiration = some t ∧ t < s.utcNow) ∧
    (c.pc = .finished → ∀ d ∈ s.docs, d ∈ c.atQuery →
      ∀ t, d.grant.expiration = some t → ¬t < c.asked) := by
  refine ⟨?_, ?_⟩
  · intro e s' he h d hd hgone
    exact isBefore_iff.mp (deleted_by_cleanup_expired reach hc hcall he h hd hgone)
  · intro hp d hd hq t ht hlt
    have hstage := reach_cleanupStage reach i c hc hcall
    unfold CallState.CleanupStage at hstage
    rw [hp] at hstage
    have hdead : isExpired c.asked d.grant = true := isBefore_iff.mpr ⟨t, ht, hlt⟩
    rw [hstage d hd hq] at hdead
    cases hdead

/-- Two grants have expired when a pass asks for them, and one of them is stored
again before the pass deletes. -/
def renewalRun : List GrantEvent :=
  [.call 0 (.storeAsync { key := some "k", expiration := some 1 }), .effect 0, .effect 0,
    .call 1 (.storeAsync { key := some "l", expiration := some 1 }), .effect 1, .effect 1,
    .tick 5, .call 2 .removeExpiredGrantsAsync, .resume 2, .effect 2,
    .call 3 (.storeAsync { key := some "l", expiration := some 9 }), .effect 3,
    .resume 2, .effect 2, .resume 2]

theorem cleanup_removes_dead_grants_renewed :
    ∃ s c, runAll grantStep grantInit renewalRun = some s ∧ s.calls 2 = some c ∧
      s.docs.map (fun d => d.grant.key) = [some "l"] ∧
      ∀ d ∈ s.docs, d ∈ c.atQuery → ∀ t, d.grant.expiration = some t → ¬t < c.asked := by
  have reach : ∀ s, runAll grantStep grantInit renewalRun = some s → GrantReach anyStep s :=
    fun s hs => Reach.start.of_runAll hs
  refine ⟨_, _, rfl, rfl, rfl, ?_⟩
  exact (@cleanup_removes_dead_grants _ (reach _ rfl) 2 _ rfl rfl).2 rfl

end IdentityServerMongoDB
