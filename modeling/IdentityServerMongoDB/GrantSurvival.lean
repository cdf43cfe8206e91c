import IdentityServerMongoDB.GrantCalls
import IdentityServerMongoDB.GrantFilter

namespace IdentityServerMongoDB

open Models (PersistedGrantFilter)

def keyDocs (k : Option String) (docs : GrantDocs) : GrantDocs :=
  docs.filter (fun x => x.key = k)

/-- The call writes no document of key `k`. -/
def GrantCall.Spares (k : Option String) (utcNow : DateTime) (docs : GrantDocs) :
    GrantCall → Prop
  | .storeAsync token => token.key ≠ k
  | .removeAsync key => key ≠ k
  | .removeAllAsync filter => ∀ f, validate filter = .ok f →
      ∀ x ∈ keyDocs k docs, removeAllWhere f x = false
  | .removeExpiredGrantsAsync => ∀ x ∈ keyDocs k docs, isExpired utcNow x = false
  | .getAsync _ => True
  | .getAllAsync _ => True

def AllSpare (k : Option String) : List (GrantCall × DateTime) → GrantDocs → Prop
  | [], _ => True
  | (call, utcNow) :: calls, docs =>
    call.Spares k utcNow docs ∧ AllSpare k calls (call.exec utcNow docs).2

/-- Both ways of reading a grant back return it as it was stored. -/
structure Survives (g : Models.PersistedGrant) (docs : GrantDocs) : Prop where
  get : getAsync g.key docs = some g
  getAll : ∀ f : PersistedGrantFilter, f.isBlank = false → agrees f g = true →
    ∃ models, getAllAsync (some f) docs = .ok models ∧ g ∈ models

theorem keyDocs_remove {k : Option String} {filter : Entities.PersistedGrant → Bool}
    {docs : GrantDocs} (h : ∀ x ∈ keyDocs k docs, filter x = false) :
    keyDocs k (remove filter docs) = keyDocs k docs := by
  unfold keyDocs remove deleteMany
  rw [List.filter_filter]
  apply List.filter_congr
  intro x hx
  by_cases hk : x.key = k
  · simp [hk, h x (List.mem_filter.mpr ⟨hx, by simp [hk]⟩)]
  · simp [hk]

theorem keyDocs_exec {k : Option String} {utcNow : DateTime} {docs : GrantDocs} {call : GrantCall}
    (h : call.Spares k utcNow docs) : keyDocs k (call.exec utcNow docs).2 = keyDocs k docs := by
  cases call with
  | storeAsync token =>
    have hk : token.key ≠ k := h
    apply filter_replaceOne_of_disjoint
    · simp [hk]
    · intro x hx
      have he : x.key = token.key := by simpa using hx
      simp [he, hk]
  | getAsync key => rfl
  | getAllAsync filter => rw [exec_getAllAsync_docs]
  | removeAsync key =>
    have hk : key ≠ k := h
    apply keyDocs_remove
    intro x hx
    have he : x.key = k := by simpa [keyDocs] using (List.mem_filter.mp hx).2
    simp [he, Ne.symm hk]
  | removeAllAsync filter =>
    rw [exec_removeAllAsync_docs]
    unfold removeAllAsync
    cases hv : validate filter with
    | error e => rfl
    | ok f => exact keyDocs_remove (h f hv)
  | removeExpiredGrantsAsync =>
    change keyDocs k (removeGrantsAsync utcNow docs) = _
    rw [removeGrantsAsync_eq]
    exact keyDocs_remove h

theorem keyDocs_execAll {k : Option String} {calls : List (GrantCall × DateTime)}
    {docs : GrantDocs} (h : AllSpare k calls docs) :
    keyDocs k (execAll calls docs).2 = keyDocs k docs := by
  induction calls generalizing docs with
  | nil => rfl
  | cons entry calls ih =>
    obtain ⟨call, utcNow⟩ := entry
    rw [execAll_cons]
    exact (ih h.2).trans (keyDocs_exec h.1)

theorem getAsync_eq_head (k : Option String) (docs : GrantDocs) :
    getAsync k docs = (keyDocs k docs).head?.map Entities.PersistedGrant.toModel := by
  simp [getAsync, keyDocs]

/-- The first document of the key is the one just stored, whatever was there before. -/
theorem keyDocs_storeAsync_head (g : Models.PersistedGrant) (docs : GrantDocs) :
    (keyDocs g.key (storeAsync g docs)).head? = some g.toEntity := by
  unfold keyDocs
  rw [List.head?_filter]
  exact find?_replaceOne_self (by simp) docs

theorem validate_ok_of_agrees {f : PersistedGrantFilter} {g : Models.PersistedGrant}
    (hn : g.sessionId = none) (ha : agrees f g = true) (hb : f.isBlank = false) :
    validate (some f) = .ok f := by
  by_contra hv
  have hs : isNullOrWhiteSpace f.sessionId = true := by
    by_contra hs
    rcases (agrees_iff.mp ha).2 with hblank | heq
    · exact hs hblank
    · rw [← heq, hn] at hs
      exact hs rfl
  rw [isBlank_iff.mpr ⟨hs, hv⟩] at hb
  cases hb

/-- A stored grant is read back in full if and only if it has no member that
the entity lacks. -/
theorem survives_iff (g : Models.PersistedGrant) (docs : GrantDocs)
    (calls : List (GrantCall × DateTime)) (h : AllSpare g.key calls (storeAsync g docs)) :
    Survives g (execAll calls (storeAsync g docs)).2 ↔
      g.sessionId = none ∧ g.description = none ∧ g.consumedTime = none := by
  have hhead : (keyDocs g.key (execAll calls (storeAsync g docs)).2).head? = some g.toEntity := by
    rw [keyDocs_execAll h]
    exact keyDocs_storeAsync_head g docs
  have hget : getAsync g.key (execAll calls (storeAsync g docs)).2 = some g.toEntity.toModel := by
    rw [getAsync_eq_head, hhead]
    rfl
  constructor
  · intro hs
    exact toModel_toEntity_eq_iff.mp (Option.some.inj (hget.symm.trans hs.get))
  · intro hn
    have hround := toModel_toEntity_eq_iff.mpr hn
    refine ⟨hget.trans (congrArg some hround), ?_⟩
    intro f hb ha
    have hv := validate_ok_of_agrees hn.1 ha hb
    refine ⟨_, getAllAsync_of_valid hv _, ?_⟩
    have hw := (agrees_iff.mp ha).1
    have hmem := List.mem_of_mem_head? (Option.mem_def.mpr hhead)
    have hdoc := (List.mem_filter.mp hmem).1
    exact List.mem_map.mpr ⟨g.toEntity, List.mem_filter.mpr ⟨hdoc, hw⟩, hround⟩

theorem survives_overwriting :
    Survives { key := some "k", subjectId := some "alice", expiration := some 9 }
      (execAll [(.removeAsync (some "j"), 3), (.removeExpiredGrantsAsync, 5)]
        (storeAsync { key := some "k", subjectId := some "alice", expiration := some 9 }
          [{ key := some "k", data := some "old" }, { key := some "j" }])).2 :=
  (survives_iff { key := some "k", subjectId := some "alice", expiration := some 9 }
    [{ key := some "k", data := some "old" }, { key := some "j" }]
    [(.removeAsync (some "j"), 3), (.removeExpiredGrantsAsync, 5)]
    ⟨by simp [GrantCall.Spares], by simp only [GrantCall.Spares]; decide, trivial⟩).mpr
    ⟨rfl, rfl, rfl⟩

/-- A refresh token that has been consumed is read back as not consumed. -/
theorem consumed_grant_not_survives :
    ¬Survives { key := some "k", consumedTime := some 7 }
      (storeAsync { key := some "k", consumedTime := some 7 } []) := by
  intro h
  have hg := h.get
  revert hg
  decide

end IdentityServerMongoDB
