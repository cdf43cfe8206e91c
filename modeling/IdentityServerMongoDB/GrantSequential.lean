import IdentityServerMongoDB.GrantSteps

namespace IdentityServerMongoDB

open Models (PersistedGrantFilter)

/-- What the caller of a call that is over has got. -/
def CallState.Gives (c : CallState) : GrantResult → Prop
  | .done => c.task = .completed ∧ (c.pc = .finished ∨ c.pc = .deleted)
  | .grant model =>
    c.task = .completed ∧ (c.returned.map (fun d => d.grant.toModel)).head? = model
  | .grants models =>
    c.task = .completed ∧ c.returned.map (fun d => d.grant.toModel) = models
  | .thrown _ => c.task = .faulted

theorem set_set (s : GrantState) (i : CallId) (c c' : CallState) (docs docs' : List Doc) :
    (s.set i c docs).set i c' docs' = s.set i c' docs' := by
  simp [GrantState.set, Function.update_idem]

theorem grantStep_call {s : GrantState} {i : CallId} (h : s.calls i = none) (call : GrantCall) :
    grantStep s (.call i call) = some (s.set i (s.newCall call call.start) s.docs) := by
  simp [grantStep, h]

theorem grantStep_effect {s : GrantState} {i : CallId} {c c' : CallState} {docs docs' : List Doc}
    (h : c.effect i docs = some (c', docs')) :
    grantStep (s.set i c docs) (.effect i) = some (s.set i c' docs') := by
  simp [grantStep, set_calls_self, h, set_set]

theorem grantStep_resume {s : GrantState} {i : CallId} {c c' : CallState} {docs : List Doc}
    (h : c.resume s.utcNow = some c') :
    grantStep (s.set i c docs) (.resume i) = some (s.set i c' docs) := by
  simp [grantStep, set_calls_self, h, set_set]

/-- The steps of one call with nothing in between. -/
inductive Alone (i : CallId) (utcNow : DateTime) :
    CallState → List Doc → CallState → List Doc → Prop
  | done (c : CallState) (docs : List Doc) : Alone i utcNow c docs c docs
  | effect {c c1 c' docs docs1 docs'} : c.effect i docs = some (c1, docs1) →
      Alone i utcNow c1 docs1 c' docs' → Alone i utcNow c docs c' docs'
  | resume {c c1 c' docs docs'} : c.resume utcNow = some c1 →
      Alone i utcNow c1 docs c' docs' → Alone i utcNow c docs c' docs'

theorem Alone.run {s : GrantState} {i : CallId} {c c' : CallState} {docs docs' : List Doc}
    (h : Alone i s.utcNow c docs c' docs') :
    ∃ es, runAll grantStep (s.set i c docs) es = some (s.set i c' docs') := by
  induction h with
  | done => exact ⟨[], rfl⟩
  | effect he _ ih =>
    obtain ⟨es, hes⟩ := ih
    exact ⟨.effect i :: es, by simp [runAll, grantStep_effect he, hes]⟩
  | resume hr _ ih =>
    obtain ⟨es, hes⟩ := ih
    exact ⟨.resume i :: es, by simp [runAll, grantStep_resume hr, hes]⟩

theorem resume_scanned_none {utcNow : DateTime} {c : CallState} (h : c.pc = .scanned 0) :
    c.resume utcNow = some { c with pc := .finished, task := .completed } := by
  simp [CallState.resume, h]

theorem resume_scanned_some {utcNow : DateTime} {c : CallState} {n : Nat}
    (h : c.pc = .scanned (n + 1)) :
    c.resume utcNow = some { c with pc := .deleteExpired utcNow } := by
  simp [CallState.resume, h]

theorem storeAsync_docs (token : Models.PersistedGrant) (i : CallId) (docs : List Doc) :
    (replaceOne (fun d : Doc => d.grant.key = token.key) ⟨token.toEntity, i⟩ docs).map Doc.grant =
      storeAsync token (docs.map Doc.grant) :=
  (replaceOne_map Doc.grant (fun t => t.key = token.key) ⟨token.toEntity, i⟩ docs).symm

theorem getAsync_docs (key : Option String) (docs : List Doc) :
    (((docs.find? (fun d => d.grant.key = key)).toList).map (fun d => d.grant.toModel)).head? =
      getAsync key (docs.map Doc.grant) := by
  have hfind : (docs.map Doc.grant).find? (fun x => x.key = key) =
      (docs.find? (fun d => d.grant.key = key)).map Doc.grant := List.find?_map ..
  unfold getAsync
  rw [hfind]
  cases docs.find? (fun d => d.grant.key = key) with
  | none => rfl
  | some d => rfl

theorem removeExpired_docs (utcNow : DateTime) (docs : List Doc) :
    (deleteMany (fun d : Doc => isExpired utcNow d.grant) docs).map Doc.grant =
      removeGrantsAsync utcNow (docs.map Doc.grant) := by
  rw [removeGrantsAsync_eq]
  exact (deleteMany_map Doc.grant (isExpired utcNow) docs).symm

/-- The call, made and left alone, ends with the collection and the result of `exec`. -/
def ExecutedAlone (s : GrantState) (i : CallId) (call : GrantCall) : Prop :=
  ∃ c docs, Alone i s.utcNow (s.newCall call call.start) s.docs c docs ∧
    docs.map Doc.grant = (call.exec s.utcNow (s.docs.map Doc.grant)).2 ∧
    c.Gives (call.exec s.utcNow (s.docs.map Doc.grant)).1

section Call

variable (s : GrantState) (i : CallId)

theorem storeAsync_alone (token : Models.PersistedGrant) :
    ExecutedAlone s i (.storeAsync token) := by
  have hmap := storeAsync_docs token i s.docs
  cases ha : s.docs.any (fun d => d.grant.key = token.key) with
  | true =>
    have hfirst : (s.newCall (.storeAsync token) (GrantCall.start (.storeAsync token))).effect i
        s.docs = some ({ s.newCall (.storeAsync token) (GrantCall.start (.storeAsync token)) with
          pc := .stored
          replaced := (s.docs.find? (fun d => d.grant.key = token.key)).toList },
          replaceOne (fun d => d.grant.key = token.key) ⟨token.toEntity, i⟩ s.docs) := by
      simp [CallState.effect, GrantState.newCall, GrantCall.start, ha, replaceOne]
    exact ⟨_, _, .effect hfirst (.resume rfl (.done _ _)), hmap, rfl, Or.inl rfl⟩
  | false =>
    have hsearch : (s.newCall (.storeAsync token) (GrantCall.start (.storeAsync token))).effect i
        s.docs = some ({ s.newCall (.storeAsync token) (GrantCall.start (.storeAsync token)) with
          pc := .insert token.toEntity }, s.docs) := by
      simp [CallState.effect, GrantState.newCall, GrantCall.start, ha]
    have hinsert : CallState.effect i s.docs
        { s.newCall (.storeAsync token) (GrantCall.start (.storeAsync token)) with
          pc := .insert token.toEntity } =
        some ({ s.newCall (.storeAsync token) (GrantCall.start (.storeAsync token)) with
          pc := .stored }, replaceOne (fun d => d.grant.key = token.key) ⟨token.toEntity, i⟩ s.docs) := by
      simp [CallState.effect, insertOne_grantIndexes, ha, replaceOne]
    exact ⟨_, _, .effect hsearch (.effect hinsert (.resume rfl (.done _ _))), hmap, rfl, Or.inl rfl⟩

theorem getAsync_alone (key : Option String) : ExecutedAlone s i (.getAsync key) := by
  refine ⟨_, _, .effect rfl (.done _ _), rfl, rfl, ?_⟩
  exact getAsync_docs key s.docs

/-- A call that is refused does nothing but fault its task. -/
theorem refused_alone {call : GrantCall} {e : Exception}
    (hstart : call.start = (.finished, .faulted))
    (hexec : call.exec s.utcNow (s.docs.map Doc.grant) = (.thrown e, s.docs.map Doc.grant)) :
    ExecutedAlone s i call := by
  refine ⟨_, _, .done _ _, ?_, ?_⟩
  · rw [hexec]
  · rw [hexec, hstart]
    rfl

theorem getAllAsync_alone (filter : Option PersistedGrantFilter) :
    ExecutedAlone s i (.getAllAsync filter) := by
  cases hv : validate filter with
  | error e =>
    have hstart : GrantCall.start (.getAllAsync filter) = (.finished, .faulted) := by
      simp [GrantCall.start, hv]
    exact refused_alone (e := e) s i hstart (by simp [GrantCall.exec, getAllAsync, hv])
  | ok f =>
    have hstart : GrantCall.start (.getAllAsync filter) = (.findAll f, .running) := by
      simp [GrantCall.start, hv]
    have heffect : (s.newCall (.getAllAsync filter) (.findAll f, .running)).effect i s.docs = some
        ({ s.newCall (.getAllAsync filter) (.findAll f, .running) with
          pc := .finished
          task := .completed
          returned := s.docs.filter (fun d => getAllWhere f d.grant) }, s.docs) := rfl
    unfold ExecutedAlone
    rw [hstart]
    refine ⟨_, _, .effect heffect (.done _ _), ?_, ?_⟩
    · exact (exec_getAllAsync_docs filter s.utcNow _).symm
    · simp only [GrantCall.exec, getAllAsync, hv]
      refine ⟨rfl, ?_⟩
      simp [List.filter_map, Function.comp_def]

theorem removeAsync_alone (key : Option String) : ExecutedAlone s i (.removeAsync key) :=
  ⟨_, _, .effect rfl (.done _ _),
    (deleteMany_map Doc.grant (fun x => x.key = key) s.docs).symm, rfl, Or.inr rfl⟩

theorem removeAllAsync_alone (filter : Option PersistedGrantFilter) :
    ExecutedAlone s i (.removeAllAsync filter) := by
  cases hv : validate filter with
  | error e =>
    have hstart : GrantCall.start (.removeAllAsync filter) = (.finished, .faulted) := by
      simp [GrantCall.start, hv]
    exact refused_alone (e := e) s i hstart (by simp [GrantCall.exec, removeAllAsync, hv])
  | ok f =>
    have hstart : GrantCall.start (.removeAllAsync filter) =
        (.deleteMany (removeAllWhere f), .completed) := by
      simp [GrantCall.start, hv]
    have heffect : (s.newCall (.removeAllAsync filter)
        (.deleteMany (removeAllWhere f), .completed)).effect i s.docs = some
        ({ s.newCall (.removeAllAsync filter) (.deleteMany (removeAllWhere f), .completed) with
          pc := .deleted
          removed := s.docs.filter (fun d => removeAllWhere f d.grant) },
          deleteMany (fun d => removeAllWhere f d.grant) s.docs) := rfl
    unfold ExecutedAlone
    rw [hstart]
    refine ⟨_, _, .effect heffect (.done _ _), ?_, ?_⟩
    · simp only [GrantCall.exec, removeAllAsync, hv]
      exact (deleteMany_map Doc.grant (removeAllWhere f) s.docs).symm
    · simp only [GrantCall.exec, removeAllAsync, hv]
      exact ⟨rfl, Or.inr rfl⟩

theorem removeExpiredGrantsAsync_alone : ExecutedAlone s i .removeExpiredGrantsAsync := by
  have hdocs := removeExpired_docs s.utcNow s.docs
  cases hn : s.docs.filter (fun d => isExpired s.utcNow d.grant) with
  | nil =>
    have hcount : Pc.scanned (s.docs.filter (fun d => isExpired s.utcNow d.grant)).length =
        .scanned 0 := by rw [hn]; rfl
    rw [deleteMany_of_none hn] at hdocs
    exact ⟨_, _, .resume rfl (.effect rfl (.resume (resume_scanned_none hcount) (.done _ _))),
      hdocs, rfl, Or.inl rfl⟩
  | cons d ds =>
    have hcount : Pc.scanned (s.docs.filter (fun d => isExpired s.utcNow d.grant)).length =
        .scanned (ds.length + 1) := by rw [hn]; rfl
    exact ⟨_, _, .resume rfl (.effect rfl (.resume (resume_scanned_some hcount) (.effect rfl
      (.resume rfl (.done _ _))))), hdocs, rfl, Or.inl rfl⟩

/-- Left alone, every call does in the system what it does on the collection. -/
theorem call_alone (call : GrantCall) : ExecutedAlone s i call := by
  cases call with
  | storeAsync token => exact storeAsync_alone s i token
  | getAsync key => exact getAsync_alone s i key
  | getAllAsync filter => exact getAllAsync_alone s i filter
  | removeAsync key => exact removeAsync_alone s i key
  | removeAllAsync filter => exact removeAllAsync_alone s i filter
  | removeExpiredGrantsAsync => exact removeExpiredGrantsAsync_alone s i

end Call

/-- The clock does not go back from one call to the next. -/
def ClockForward : DateTime → List (GrantCall × DateTime) → Prop
  | _, [] => True
  | utcNow, (_, next) :: calls => utcNow ≤ next ∧ ClockForward next calls

/-- Calls made one after the other reach a state of the system that holds what
`execAll` leaves, and each got what `execAll` returns for it. -/
theorem execAll_reached {calls : List (GrantCall × DateTime)} {s : GrantState} {n : Nat}
    (reach : GrantReach anyStep s) (fresh : ∀ i : Nat, n ≤ i → s.calls i = none)
    (clock : ClockForward s.utcNow calls) :
    ∃ s', GrantReach anyStep s' ∧ (∀ i : Nat, i < n → s'.calls i = s.calls i) ∧
      s'.docs.map Doc.grant = (execAll calls (s.docs.map Doc.grant)).2 ∧
      ∀ j result, (execAll calls (s.docs.map Doc.grant)).1[j]? = some result →
        ∃ c, s'.calls (n + j) = some c ∧ c.Gives result := by
  induction calls generalizing s n with
  | nil => exact ⟨s, reach, fun _ _ => rfl, rfl, by simp [execAll]⟩
  | cons head calls ih =>
    obtain ⟨call, utcNow⟩ := head
    obtain ⟨hnow, hclock⟩ := clock
    have hticked : GrantReach anyStep { s with utcNow := utcNow } :=
      reach.next (e := .tick utcNow) trivial (by simp [grantStep, hnow])
    have hcall := @grantStep_call { s with utcNow := utcNow } n (fresh n (Nat.le_refl n)) call
    have hcalled := hticked.next trivial hcall
    obtain ⟨c, docs, halone, hdocs, hgives⟩ := call_alone { s with utcNow := utcNow } n call
    obtain ⟨es, hes⟩ := halone.run
    have hdone := hcalled.of_runAll hes
    have hfresh : ∀ i : Nat, n + 1 ≤ i →
        (({ s with utcNow := utcNow } : GrantState).set n c docs).calls i = none := by
      intro i hi
      rw [set_calls_other _ (Nat.ne_of_gt hi)]
      exact fresh i (Nat.le_of_succ_le hi)
    obtain ⟨s', hreach, hkept, hfinal, hresults⟩ := ih hdone hfresh hclock
    refine ⟨s', hreach, ?_, ?_, ?_⟩
    · intro i hi
      rw [hkept i (Nat.lt_succ_of_lt hi), set_calls_other _ (Nat.ne_of_lt hi)]
    · rw [hfinal, execAll_cons, set_docs, hdocs]
    · intro j result hj
      rw [execAll_cons] at hj
      cases j with
      | zero =>
        have hr := Option.some.inj hj
        refine ⟨c, ?_, ?_⟩
        · rw [Nat.add_zero, hkept n (Nat.lt_succ_self n), set_calls_self]
        · rw [← hr]
          exact hgives
      | succ j =>
        rw [set_docs, hdocs] at hresults
        obtain ⟨c', hc', hgives'⟩ := hresults j result hj
        refine ⟨c', ?_, hgives'⟩
        rw [← hc', Nat.succ_add_eq_add_succ]

end IdentityServerMongoDB
