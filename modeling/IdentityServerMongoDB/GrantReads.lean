import IdentityServerMongoDB.GrantRetention

namespace IdentityServerMongoDB

open Models (PersistedGrantFilter)

/-- What the query of a read looks for: the key, or the subject, client and type
of the filter, whatever session it sets. -/
def GrantCall.Queries (call : GrantCall) (x : Entities.PersistedGrant) : Prop :=
  match call with
  | .getAsync key => x.key = key
  | .getAllAsync (some f) => f.Covers x
  | _ => False

theorem queries_of_reads {c : CallState} (hcon : c.Consistent) {x : Entities.PersistedGrant}
    (h : c.pc.Reads x) : c.call.Queries x := by
  cases hp : c.pc with
  | find key =>
    rw [hp] at h
    rw [hcon.find hp]
    exact h
  | findAll filter =>
    rw [hp] at h
    rw [hcon.findAll hp]
    exact getAllWhere_iff.mp h
  | _ =>
    rw [hp] at h
    exact h.elim

/-- In every run, once a document has been deleted it is not there again, and no
read returns it that has not returned it by then. -/
theorem deleted_stays_gone {guard : GrantState → GrantEvent → Prop} {s s' : GrantState}
    (reach : GrantReach guard s) (later : Reach grantStep guard s s') {r : CallId} {c : CallState}
    (hc : s.calls r = some c) {d : Doc} (hd : d ∈ c.removed) :
    d ∉ s'.docs ∧ ∀ q read, s'.calls q = some read → d ∈ read.returned →
      ∃ before, s.calls q = some before ∧ d ∈ before.returned := by
  obtain ⟨hwritten, hdeleted⟩ := taken_gone reach hc (Or.inl hd)
  have run : s'.Written d ∧ d ∉ s'.docs ∧ ∀ q read, s'.calls q = some read → d ∈ read.returned →
      ∃ before, s.calls q = some before ∧ d ∈ before.returned := by
    induction later with
    | start => exact ⟨hwritten, hdeleted, fun q read hq hr => ⟨read, hq, hr⟩⟩
    | @next t t' e _ _ step ih =>
      obtain ⟨hw, hgone, hreads⟩ := ih
      have hcase := grantStep_cases step
      refine ⟨written_step hcase hw, ?_, ?_⟩
      · exact fun hback => hgone (mem_docs_before_step hcase hw hback)
      · intro q read hq hr
        rcases call_before_step hcase hq with ⟨before, hbefore, he⟩ | ⟨call, entry, rfl, _⟩
        · rcases he.returned d hr with hold | ⟨hdocs, _⟩
          · exact hreads q before hbefore hold
          · exact absurd hdocs hgone
        · cases hr
  exact run.2

/-- What every read has returned: what some store wrote, as it was stored, that
its query looks for (all the filter asks for, where it asks for no session), and
that no cleanup pass had deleted which was over before. -/
structure CallState.ReadsStored (s : GrantState) (read : CallState) : Prop where
  written : ∀ d ∈ read.returned, s.Written d
  queried : ∀ d ∈ read.returned, read.call.Queries d.grant
  asked : ∀ d ∈ read.returned, ∀ f, read.call = .getAllAsync (some f) →
    isNullOrWhiteSpace f.sessionId = true → agrees f d.grant.toModel = true
  fresh : ∀ d ∈ read.returned, ∀ r pass, s.calls r = some pass → d ∈ pass.removed →
    pass.call = .removeExpiredGrantsAsync → read.ended r = false

theorem fresh_step {guard : GrantState → GrantEvent → Prop} {s s' : GrantState} {e : GrantEvent}
    (reach : GrantReach guard s) (h : GrantStepCase s e s') {q r : CallId}
    {read read' pass pass' : CallState} (hq : s.calls q = some read) (hq' : s'.calls q = some read')
    (hread : read.ReadsStored s) (hr : s.calls r = some pass) (hr' : s'.calls r = some pass')
    (hpass : pass.call = .removeExpiredGrantsAsync) {d : Doc} (hd : d ∈ read'.returned)
    (hremoved : d ∈ pass'.removed) : read.ended r = false := by
  rcases removed_of_step h hr hr' hremoved with hold | ⟨_, _, hpending, hlive⟩
  · rcases (evolves_of_step h hq hq').returned d hd with hbefore | ⟨hdocs, _⟩
    · exact hread.fresh d hbefore r pass hr hold hpass
    · exact absurd hdocs (taken_gone reach hr (Or.inl hold)).2
  · cases hended : read.ended r with
    | false => rfl
    | true =>
      -- a pass that was over would be past its delete
      obtain ⟨settled, hs, hsettled⟩ := settled_of_ended reach hq hended
      rw [hr] at hs
      cases Option.some.inj hs
      rcases hsettled with ⟨filter, hdelete⟩ | htook | hfailed
      · rw [hpass] at hdelete
        cases hdelete
      · exact absurd htook hpending
      · exact absurd hfailed hlive

theorem asked_of_queried {x : Entities.PersistedGrant} {f : PersistedGrantFilter}
    (h : (GrantCall.getAllAsync (some f)).Queries x) (hs : isNullOrWhiteSpace f.sessionId = true) :
    agrees f x.toModel = true := by
  rw [agrees_of_session_blank hs]
  exact getAllWhere_iff.mpr h

theorem read_returns_stored {guard : GrantState → GrantEvent → Prop} {s : GrantState}
    (reach : GrantReach guard s) {q : CallId} {read : CallState} (hq : s.calls q = some read) :
    read.ReadsStored s := by
  induction reach generalizing read with
  | start => simp [grantInit] at hq
  | @next s s' e prior guard step ih =>
    have hcase := grantStep_cases step
    rcases call_before_step hcase hq with ⟨before, hbefore, he⟩ | ⟨call, entry, rfl, _⟩
    · have hstored := ih hbefore
      have hqueried : ∀ d ∈ read.returned, read.call.Queries d.grant := by
        intro d hd
        rw [he.call]
        rcases he.returned d hd with hold | ⟨_, hreads⟩
        · exact hstored.queried d hold
        · exact queries_of_reads (reach_consistent prior hbefore) hreads
      refine ⟨?_, hqueried, ?_, ?_⟩
      · intro d hd
        rcases he.returned d hd with hold | ⟨hdocs, _⟩
        · exact written_step hcase (hstored.written d hold)
        · exact written_step hcase (docs_written prior d hdocs)
      · intro d hd f hcall
        have hf := hqueried d hd
        rw [hcall] at hf
        exact asked_of_queried hf
      · intro d hd r pass' hr' hremoved hpass
        rw [he.ended]
        rcases call_before_step hcase hr' with ⟨pass, hr, hepass⟩ | ⟨call, entry, rfl, _⟩
        · rw [hepass.call] at hpass
          exact fresh_step prior hcase hbefore hq hstored hr hr' hpass hd hremoved
        · cases hremoved
    · exact ⟨fun d hd => absurd hd List.not_mem_nil, fun d hd => absurd hd List.not_mem_nil,
        fun d hd => absurd hd List.not_mem_nil, fun d hd => absurd hd List.not_mem_nil⟩

/-- A grant expires, is read once more, and is deleted by a pass; a read made
after that returns nothing. -/
def expiredReadRun : List GrantEvent :=
  [.call 0 (.storeAsync { key := some "k", expiration := some 1 }), .effect 0, .effect 0, .resume 0,
    .tick 5, .call 1 (.getAsync (some "k")), .effect 1,
    .call 2 .removeExpiredGrantsAsync, .resume 2, .effect 2, .resume 2, .effect 2]

theorem read_returns_stored_expired :
    ∃ s read, runAll grantStep grantInit expiredReadRun = some s ∧ s.calls 1 = some read ∧
      read.returned.length = 1 ∧ read.ReadsStored s := by
  have reach : ∀ s, runAll grantStep grantInit expiredReadRun = some s → GrantReach anyStep s :=
    fun s hs => Reach.start.of_runAll hs
  exact ⟨_, _, rfl, rfl, rfl, @read_returns_stored _ _ (reach _ rfl) 1 _ rfl⟩

theorem deleted_stays_gone_expired :
    ∃ s s' c d, runAll grantStep grantInit expiredReadRun = some s ∧ s.calls 2 = some c ∧
      d ∈ c.removed ∧ runAll grantStep s [.call 3 (.getAsync (some "k")), .effect 3] = some s' ∧
      d ∉ s'.docs := by
  have reach : ∀ s, runAll grantStep grantInit expiredReadRun = some s → GrantReach anyStep s :=
    fun s hs => Reach.start.of_runAll hs
  have later : ∀ s s', runAll grantStep s [.call 3 (.getAsync (some "k")), .effect 3] = some s' →
      Reach grantStep anyStep s s' := fun s s' hs => Reach.start.of_runAll hs
  refine ⟨_, _, _, ⟨Models.PersistedGrant.toEntity { key := some "k", expiration := some 1 }, 0⟩,
    rfl, rfl, List.mem_singleton.mpr rfl, rfl, ?_⟩
  exact (@deleted_stays_gone _ _ _ (reach _ rfl) (later _ _ rfl) 2 _ rfl _
    (List.mem_singleton.mpr rfl)).1

end IdentityServerMongoDB
