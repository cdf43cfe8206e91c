import IdentityServerMongoDB.GrantCleanup
import IdentityServerMongoDB.GrantSequential
import IdentityServerMongoDB.GrantUpsert

namespace IdentityServerMongoDB

open Models (PersistedGrantFilter)

/-- The call is past its effect on the collection, if it has any. -/
def Pc.TookEffect : Pc → Prop
  | .stored | .deleted | .scanned 0 | .expiredDeleted | .finished => True
  | _ => False

/-- What the caller has got, or gets when the code behind the effect has run. -/
def CallState.Gets (c : CallState) (result : GrantResult) : Prop :=
  match c.pc with
  | .finished | .deleted => c.Gives result
  | .stored | .scanned 0 | .expiredDeleted => result = .done
  | _ => False

/-- What a step can make of a call that took effect. -/
structure CallState.Settles (c c' : CallState) : Prop where
  call : c'.call = c.call
  ended : c'.ended = c.ended
  asked : c'.asked = c.asked
  removed : c'.removed = c.removed
  replaced : c'.replaced = c.replaced
  tookEffect : c'.pc.TookEffect
  gets : ∀ result, c.Gets result → c'.Gets result

theorem resume_settles {utcNow : DateTime} {c c' : CallState} (hp : c.pc.TookEffect)
    (h : ResumeCase utcNow c c') : c.Settles c' := by
  have finish : (∀ result, c.Gets result → result = .done) →
      c.Settles { c with pc := .finished, task := .completed } := by
    intro hdone
    refine ⟨rfl, rfl, rfl, rfl, rfl, trivial, ?_⟩
    intro result hg
    have hr := hdone result hg
    subst result
    exact ⟨rfl, Or.inl rfl⟩
  cases h with
  | stored hpc =>
    apply finish
    intro result hg
    unfold CallState.Gets at hg
    rwa [hpc] at hg
  | none hpc =>
    apply finish
    intro result hg
    unfold CallState.Gets at hg
    rwa [hpc] at hg
  | cleaned hpc =>
    apply finish
    intro result hg
    unfold CallState.Gets at hg
    rwa [hpc] at hg
  | asked hpc =>
    rw [hpc] at hp
    exact hp.elim
  | @some found hpc hf =>
    rw [hpc] at hp
    obtain ⟨n, rfl⟩ := Nat.exists_eq_succ_of_ne_zero (Nat.ne_of_gt hf)
    exact hp.elim

theorem pending_of_effect {i : CallId} {docs docs' : List Doc} {c c' : CallState}
    (h : EffectCase i docs c c' docs') : ¬c.pc.TookEffect ∧ c.pc ≠ .failed := by
  cases h with
  | replaced hp => rw [hp]; exact ⟨id, Pc.noConfusion⟩
  | missed hp => rw [hp]; exact ⟨id, Pc.noConfusion⟩
  | inserted hp => rw [hp]; exact ⟨id, Pc.noConfusion⟩
  | found hp => rw [hp]; exact ⟨id, Pc.noConfusion⟩
  | foundAll hp => rw [hp]; exact ⟨id, Pc.noConfusion⟩
  | deleted hp => rw [hp]; exact ⟨id, Pc.noConfusion⟩
  | scanned hp => rw [hp]; exact ⟨id, Pc.noConfusion⟩
  | expiredDeleted hp => rw [hp]; exact ⟨id, Pc.noConfusion⟩

theorem not_tookEffect_of_fail {c c' : CallState} (h : FailCase c c') : ¬c.pc.TookEffect := by
  cases h with
  | thrown hp =>
    rcases hp with ⟨_, _, hp⟩ | ⟨_, hp⟩ | ⟨_, hp⟩ | ⟨_, hp⟩ <;> (rw [hp]; exact id)
  | unobserved hp => rw [hp]; exact id
  | logged hp => rcases hp with ⟨_, hp⟩ | ⟨_, hp⟩ <;> (rw [hp]; exact id)

/-- What a step can make of a call that was there before it. -/
inductive ChangeCase (i : CallId) (s s' : GrantState) (c : CallState) : CallState → Prop
  | same : ChangeCase i s s' c c
  | effected {c'} : EffectCase i s.docs c c' s'.docs → ChangeCase i s s' c c'
  | resumed {c'} : ResumeCase s.utcNow c c' → ChangeCase i s s' c c'
  | failed {c'} : FailCase c c' → ChangeCase i s s' c c'

theorem change_of_step {s s' : GrantState} {e : GrantEvent} (h : GrantStepCase s e s') {i : CallId}
    {c c' : CallState} (hc : s.calls i = some c) (hc' : s'.calls i = some c') :
    ChangeCase i s s' c c' := by
  have same : s'.calls i = s.calls i → ChangeCase i s s' c c' := by
    intro hkept
    rw [hkept, hc] at hc'
    cases Option.some.inj hc'
    exact ChangeCase.same
  have fresh : ∀ {j : CallId}, s.calls j = none → i ≠ j := by
    rintro j hn rfl
    rw [hc] at hn
    cases hn
  cases h with
  | called call hn => exact same (set_calls_other s (fresh hn) _ _)
  | threw call hn => exact same (set_calls_other s (fresh hn) _ _)
  | ticked => exact same rfl
  | @effected j d d' docs hd he =>
    by_cases hj : i = j
    · subst j
      rw [hc] at hd
      cases Option.some.inj hd
      rw [set_calls_self] at hc'
      cases Option.some.inj hc'
      exact ChangeCase.effected he
    · exact same (set_calls_other s hj _ _)
  | @resumed j d d' hd hr =>
    by_cases hj : i = j
    · subst j
      rw [hc] at hd
      cases Option.some.inj hd
      rw [set_calls_self] at hc'
      cases Option.some.inj hc'
      exact ChangeCase.resumed hr
    · exact same (set_calls_other s hj _ _)
  | @failed j d d' hd hf =>
    by_cases hj : i = j
    · subst j
      rw [hc] at hd
      cases Option.some.inj hd
      rw [set_calls_self] at hc'
      cases Option.some.inj hc'
      exact ChangeCase.failed hf
    · exact same (set_calls_other s hj _ _)

/-- A call that took effect only goes on to its end. -/
theorem settles_of_step {s s' : GrantState} {e : GrantEvent} (h : GrantStepCase s e s') {j : CallId}
    {c : CallState} (hc : s.calls j = some c) (hp : c.pc.TookEffect) :
    ∃ c', s'.calls j = some c' ∧ c.Settles c' := by
  obtain ⟨c', hc', _⟩ := call_of_step h hc
  refine ⟨c', hc', ?_⟩
  cases change_of_step h hc hc' with
  | same => exact ⟨rfl, rfl, rfl, rfl, rfl, hp, fun _ hg => hg⟩
  | effected he => exact absurd hp (pending_of_effect he).1
  | resumed hr => exact resume_settles hp hr
  | failed hf => exact absurd hp (not_tookEffect_of_fail hf)

/-- The call starts a delete that its caller does not wait for. -/
def GrantCall.StartsDelete (call : GrantCall) : Prop :=
  ∃ filter, call.start.1 = .deleteMany filter

/-- The task of a call that starts no delete ends behind its effect, or in a failure. -/
def CallState.Settled (c : CallState) : Prop :=
  c.call.StartsDelete ∨ c.pc.TookEffect ∨ c.pc = .failed

theorem settled_step {s s' : GrantState} {e : GrantEvent} (h : GrantStepCase s e s') {j : CallId}
    {c : CallState} (hc : s.calls j = some c) (hs : c.Settled) :
    ∃ c', s'.calls j = some c' ∧ c'.Settled := by
  obtain ⟨c', hc', he⟩ := call_of_step h hc
  refine ⟨c', hc', ?_⟩
  rcases hs with hdelete | hp | hfailed
  · rw [← he.call] at hdelete
    exact Or.inl hdelete
  · obtain ⟨d, hd, hsettles⟩ := settles_of_step h hc hp
    rw [hc'] at hd
    cases Option.some.inj hd
    exact Or.inr (Or.inl hsettles.tookEffect)
  · exact Or.inr (Or.inr (he.failed hfailed))

theorem settled_of_task {guard : GrantState → GrantEvent → Prop} {s : GrantState}
    (reach : GrantReach guard s) {i : CallId} {c : CallState} (hc : s.calls i = some c)
    (htask : c.task ≠ .running) : c.Settled := by
  have unsettled : ∀ (c : CallState) (pc : Pc), (c.task ≠ .running → c.Settled) → c.pc = pc →
      ¬pc.TookEffect → pc ≠ .failed → c.task ≠ .running → c.call.StartsDelete := by
    rintro c _ h rfl hp hf htask
    rcases h htask with hdelete | htook | hfailed
    · exact hdelete
    · exact absurd htook hp
    · exact absurd hfailed hf
  refine calls_invariant (P := fun c => c.task ≠ .running → c.Settled) ?_ ?_ ?_ ?_ ?_ reach i c
    hc htask
  · intro s call ht
    cases call with
    | removeAsync key => exact Or.inl ⟨_, rfl⟩
    | removeAllAsync filter =>
      cases hv : validate filter with
      | error e =>
        exact Or.inr (Or.inl (by simp [GrantState.newCall, GrantCall.start, hv, Pc.TookEffect]))
      | ok f => exact Or.inl ⟨removeAllWhere f, by simp [GrantState.newCall, GrantCall.start, hv]⟩
    | getAllAsync filter =>
      cases hv : validate filter with
      | error e =>
        exact Or.inr (Or.inl (by simp [GrantState.newCall, GrantCall.start, hv, Pc.TookEffect]))
      | ok f => exact absurd (by simp [GrantState.newCall, GrantCall.start, hv]) ht
    | _ => exact absurd rfl ht
  · intro s call _
    exact Or.inr (Or.inr (thrownCall_pc s call))
  · intro i docs c c' docs' hc he ht
    cases he with
    | missed hp => exact Or.inl (unsettled c _ hc hp id Pc.noConfusion ht)
    | scanned hp => exact Or.inl (unsettled c _ hc hp id Pc.noConfusion ht)
    | _ => exact Or.inr (Or.inl trivial)
  · intro utcNow c c' hc hr ht
    cases hr with
    | asked hp => exact Or.inl (unsettled c _ hc hp id Pc.noConfusion ht)
    | @some found hp hf =>
      obtain ⟨n, rfl⟩ := Nat.exists_eq_succ_of_ne_zero (Nat.ne_of_gt hf)
      exact Or.inl (unsettled c _ hc hp id Pc.noConfusion ht)
    | _ => exact Or.inr (Or.inl trivial)
  · intro c c' _ hf _
    cases hf <;> exact Or.inr (Or.inr rfl)

theorem task_of_ended {s : GrantState} {i : CallId} (h : s.ended i = true) :
    ∃ c, s.calls i = some c ∧ c.task ≠ .running := by
  unfold GrantState.ended at h
  split at h
  next => cases h
  next c hc => exact ⟨c, hc, of_decide_eq_true h⟩

/-- A call that had ended when another was made is settled since. -/
theorem settled_of_ended {guard : GrantState → GrantEvent → Prop} {s : GrantState}
    (reach : GrantReach guard s) {j i : CallId} {c : CallState} (hc : s.calls j = some c)
    (ha : c.ended i = true) : ∃ d, s.calls i = some d ∧ d.Settled := by
  induction reach generalizing c with
  | start => simp [grantInit] at hc
  | @next s s' e prior guard step ih =>
    have hcase := grantStep_cases step
    rcases call_before_step hcase hc with ⟨c0, hc0, he⟩ | ⟨call, entry, rfl, _⟩
    · rw [he.ended] at ha
      obtain ⟨d, hd, hs⟩ := ih hc0 ha
      exact settled_step hcase hd hs
    · obtain ⟨d, hd, htask⟩ := task_of_ended ha
      exact settled_step hcase hd (settled_of_task prior hd htask)

theorem utcNow_step {s s' : GrantState} {e : GrantEvent} (h : GrantStepCase s e s') :
    s.utcNow ≤ s'.utcNow := by
  cases h with
  | ticked hle => exact hle
  | _ => exact Nat.le_refl _

theorem asked_le {guard : GrantState → GrantEvent → Prop} {s : GrantState}
    (reach : GrantReach guard s) {i : CallId} {c : CallState} (hc : s.calls i = some c) :
    c.asked ≤ s.utcNow := by
  have update : ∀ (s : GrantState) i (c : CallState) docs,
      (∀ j d, s.calls j = some d → d.asked ≤ s.utcNow) →
      c.asked ≤ s.utcNow → ∀ j d, (s.set i c docs).calls j = some d → d.asked ≤ s.utcNow := by
    intro s i c docs hs hle j d hd
    rcases set_calls_some hd with ⟨_, rfl⟩ | ⟨_, hold⟩
    · exact hle
    · exact hs j d hold
  refine reach.invariant (I := fun s => ∀ j d, s.calls j = some d → d.asked ≤ s.utcNow) ?_ ?_ i c hc
  · intro j d hd
    simp [grantInit] at hd
  · intro s e s' hs _ hstep
    cases grantStep_cases hstep with
    | called call => exact update s _ _ _ hs (Nat.zero_le _)
    | threw call => exact update s _ _ _ hs (Nat.zero_le _)
    | effected hd he =>
      have hle := hs _ _ hd
      exact update s _ _ _ hs (by cases he <;> exact hle)
    | resumed hd hr =>
      have hle := hs _ _ hd
      refine update s _ _ _ hs ?_
      cases hr with
      | asked => exact Nat.le_refl _
      | _ => exact hle
    | failed hd hf =>
      have hle := hs _ _ hd
      exact update s _ _ _ hs (by cases hf <;> exact hle)
    | ticked hle => exact fun j d hd => Nat.le_trans (hs j d hd) hle

/-- The step did to the collection, and gives the caller, what the call does when
all of it happens at once. -/
structure Executes (docs docs' : List Doc) (c : CallState) (utcNow : DateTime) : Prop where
  leaves : docs'.map Doc.grant = (c.call.exec utcNow (docs.map Doc.grant)).2
  tookEffect : c.pc.TookEffect
  gets : c.Gets (c.call.exec utcNow (docs.map Doc.grant)).1

/-- A filter that is asked for, or removed by, was accepted when the call was
made. The caller of a removal has its task completed by then. -/
def CallState.Accepted (c : CallState) : Prop :=
  match c.pc with
  | .findAll _ => ∀ f, c.call = .getAllAsync (some f) → validate (some f) = .ok f
  | .deleteMany _ =>
    c.task = .completed ∧ ∀ f, c.call = .removeAllAsync (some f) → validate (some f) = .ok f
  | _ => True

theorem newCall_accepted (s : GrantState) (call : GrantCall) :
    (s.newCall call call.start).Accepted := by
  cases call with
  | getAllAsync filter =>
    cases hv : validate filter with
    | error e => simp [CallState.Accepted, GrantState.newCall, GrantCall.start, hv]
    | ok f =>
      have hf := validate_ok_eq hv
      subst filter
      simp [CallState.Accepted, GrantState.newCall, GrantCall.start, hv]
  | removeAllAsync filter =>
    cases hv : validate filter with
    | error e => simp [CallState.Accepted, GrantState.newCall, GrantCall.start, hv]
    | ok f =>
      have hf := validate_ok_eq hv
      subst filter
      simp [CallState.Accepted, GrantState.newCall, GrantCall.start, hv]
  | removeAsync key => simp [CallState.Accepted, GrantState.newCall, GrantCall.start]
  | _ => trivial

theorem reach_accepted {guard : GrantState → GrantEvent → Prop} {s : GrantState}
    (reach : GrantReach guard s) {i : CallId} {c : CallState} (hc : s.calls i = some c) :
    c.Accepted := by
  refine calls_invariant (P := CallState.Accepted) newCall_accepted ?_ ?_ ?_ ?_ reach i c hc
  · intro s call
    simp [CallState.Accepted, thrownCall_pc]
  · intro i docs c c' docs' _ he
    cases he <;> trivial
  · intro utcNow c c' _ hr
    cases hr <;> trivial
  · intro c c' _ hf
    cases hf <;> trivial

theorem exec_of_removalFilter {call : GrantCall} {filter : Entities.PersistedGrant → Bool}
    (h : call.removalFilter = some filter)
    (hv : ∀ f, call = .removeAllAsync (some f) → validate (some f) = .ok f) (utcNow : DateTime)
    (docs : GrantDocs) : call.exec utcNow docs = (.done, remove filter docs) := by
  cases call with
  | removeAsync key =>
    cases Option.some.inj h
    rfl
  | removeAllAsync f =>
    cases f with
    | none => cases h
    | some f =>
      cases Option.some.inj h
      simp [GrantCall.exec, removeAllAsync_of_valid (hv f rfl)]
  | _ => cases h

theorem executes_of_call {docs docs' : List Doc} {c : CallState} {call : GrantCall}
    (hcall : c.call = call) {utcNow : DateTime} (hp : c.pc.TookEffect)
    (leaves : docs'.map Doc.grant = (call.exec utcNow (docs.map Doc.grant)).2)
    (gets : c.Gets (call.exec utcNow (docs.map Doc.grant)).1) : Executes docs docs' c utcNow := by
  subst call
  exact ⟨leaves, hp, gets⟩

/-- Where no rival upsert is about to insert, an effect changes nothing and is
not the last of its call, or does what the whole call does at once. -/
theorem effect_executes {s : GrantState} (reach : GrantReach NoRivalUpsert s) {i : CallId}
    {c c' : CallState} {docs : List Doc} (hc : s.calls i = some c)
    (h : EffectCase i s.docs c c' docs) :
    (docs = s.docs ∧ ¬c'.pc.TookEffect) ∨
      ∃ utcNow, c'.asked ≤ utcNow ∧ utcNow ≤ s.utcNow ∧ Executes s.docs docs c' utcNow := by
  have hcon := reach_consistent reach hc
  have haccepted := reach_accepted reach hc
  have hasked := asked_le reach hc
  have hsame := (effect_evolves h).call
  unfold CallState.Accepted at haccepted
  cases h with
  | missed => exact Or.inl ⟨rfl, id⟩
  | @replaced key entity hp ha =>
    obtain ⟨token, hcall, rfl, rfl⟩ := hcon.search hp
    have hone := storeAsync_docs token i s.docs
    rw [replaceOne, if_pos ha] at hone
    exact Or.inr ⟨_, hasked, Nat.le_refl _, executes_of_call (hsame.trans hcall) trivial hone rfl⟩
  | @inserted entity hp =>
    obtain ⟨token, hcall, rfl⟩ := hcon.insert hp
    have habsent := (upsertInv_of_reach reach).absent i c _ hc hp
    have hnone : ¬s.docs.any (fun d => d.grant.key = token.key) = true := by
      intro ha
      obtain ⟨d, hd, hk⟩ := List.any_eq_true.mp ha
      exact habsent d hd (by simpa using hk)
    have hone := storeAsync_docs token i s.docs
    rw [replaceOne, if_neg hnone] at hone
    exact Or.inr ⟨_, hasked, Nat.le_refl _, executes_of_call (hsame.trans hcall) trivial hone rfl⟩
  | @found key hp =>
    refine Or.inr ⟨_, hasked, Nat.le_refl _,
      executes_of_call (hsame.trans (hcon.find hp)) trivial rfl ?_⟩
    exact ⟨rfl, getAsync_docs key s.docs⟩
  | @foundAll filter hp =>
    rw [hp] at haccepted
    have hcall := hcon.findAll hp
    have hok := getAllAsync_of_valid (haccepted filter hcall) (s.docs.map Doc.grant)
    refine Or.inr ⟨_, hasked, Nat.le_refl _, executes_of_call (hsame.trans hcall) trivial ?_ ?_⟩
    · exact (exec_getAllAsync_docs (some filter) s.utcNow _).symm
    · simp only [GrantCall.exec, hok]
      exact ⟨rfl, by simp [List.filter_map, Function.comp_def]⟩
  | @deleted filter hp =>
    have hremoval := hcon.deleteMany hp
    rw [hp] at haccepted
    obtain ⟨htask, hvalid⟩ := haccepted
    have hexec := exec_of_removalFilter hremoval hvalid s.utcNow (s.docs.map Doc.grant)
    refine Or.inr ⟨_, hasked, Nat.le_refl _, executes_of_call hsame trivial ?_ ?_⟩
    · rw [hexec]
      exact (deleteMany_map Doc.grant filter s.docs).symm
    · rw [hexec]
      exact ⟨htask, Or.inr rfl⟩
  | @scanned asked hp =>
    have hcall : c.call = .removeExpiredGrantsAsync := by
      unfold CallState.Consistent at hcon
      rwa [hp] at hcon
    have hstage := reach_cleanupStage reach i c hc hcall
    unfold CallState.CleanupStage at hstage
    rw [hp] at hstage
    cases hn : s.docs.filter (fun d => isExpired asked d.grant) with
    | cons d ds => exact Or.inl ⟨rfl, id⟩
    | nil =>
      rw [hn] at hsame
      have hdelete := removeExpired_docs asked s.docs
      rw [deleteMany_of_none hn] at hdelete
      exact Or.inr ⟨asked, Nat.le_of_eq hstage.1, hstage.2,
        executes_of_call (hsame.trans hcall) trivial hdelete rfl⟩
  | @expiredDeleted built hp =>
    have hcall := hcon.deleteExpired hp
    have hstage := reach_cleanupStage reach i c hc hcall
    unfold CallState.CleanupStage at hstage
    rw [hp] at hstage
    exact Or.inr ⟨built, hstage.1, hstage.2,
      executes_of_call (hsame.trans hcall) trivial (removeExpired_docs built s.docs) rfl⟩

end IdentityServerMongoDB
