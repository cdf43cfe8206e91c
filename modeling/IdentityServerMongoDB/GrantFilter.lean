import IdentityServerMongoDB.SavedGrants

namespace IdentityServerMongoDB

open Models (PersistedGrantFilter)

/-- No criterion of the filter is set. -/
def Models.PersistedGrantFilter.isBlank (filter : PersistedGrantFilter) : Bool :=
  isNullOrWhiteSpace filter.subjectId && isNullOrWhiteSpace filter.sessionId &&
    isNullOrWhiteSpace filter.clientId && isNullOrWhiteSpace filter.type

/-- A criterion that is not blank asks for its value. -/
abbrev Meets (value field : Option String) : Prop :=
  isNullOrWhiteSpace value = true ∨ field = value

/-- What a filter asks for: agreement with every criterion that is set. -/
def agrees (filter : PersistedGrantFilter) (g : Models.PersistedGrant) : Bool :=
  decide (Meets filter.subjectId g.subjectId ∧ Meets filter.sessionId g.sessionId ∧
    Meets filter.clientId g.clientId ∧ Meets filter.type g.type)

/-- Both filter operations select exactly the saved grants a filter asks for,
and refuse a filter that asks for nothing. -/
structure SelectsExactly (tokens : List Models.PersistedGrant)
    (filter : Option PersistedGrantFilter) : Prop where
  refused : (∀ f, filter = some f → f.isBlank = true) →
    (∃ e, getAllAsync filter (storeAll tokens) = .error e) ∧
      ∃ e, removeAllAsync filter (storeAll tokens) = (.error e, storeAll tokens)
  returned : ∀ f, filter = some f → f.isBlank = false →
    getAllAsync filter (storeAll tokens) =
      .ok (((savedGrants tokens).filter (agrees f)).map (fun g => g.toEntity.toModel))
  removed : ∀ f, filter = some f → f.isBlank = false →
    removeAllAsync filter (storeAll tokens) =
      (.ok (), ((savedGrants tokens).filter (fun g => !agrees f g)).map
        Models.PersistedGrant.toEntity)

/-- The session criterion is not set, or one of the three others is and already
tells the sessions of the saved grants apart. -/
def SessionImplied (tokens : List Models.PersistedGrant) (f : PersistedGrantFilter) : Prop :=
  isNullOrWhiteSpace f.sessionId = true ∨
    ((isNullOrWhiteSpace f.subjectId = false ∨ isNullOrWhiteSpace f.clientId = false ∨
      isNullOrWhiteSpace f.type = false) ∧
      ∀ g ∈ savedGrants tokens, getAllWhere f g.toEntity = true → g.sessionId = f.sessionId)

theorem criterion_iff {value field : Option String} :
    criterion value field = true ↔ Meets value field := by
  simp [criterion]

/-- The grant meets every criterion of the filter but the session's, which no document has. -/
abbrev Models.PersistedGrantFilter.Covers (f : PersistedGrantFilter)
    (x : Entities.PersistedGrant) : Prop :=
  Meets f.subjectId x.subjectId ∧ Meets f.clientId x.clientId ∧ Meets f.type x.type

theorem getAllWhere_iff {f : PersistedGrantFilter} {x : Entities.PersistedGrant} :
    getAllWhere f x = true ↔ f.Covers x := by
  unfold getAllWhere
  rw [Bool.and_eq_true, Bool.and_eq_true, criterion_iff, criterion_iff, criterion_iff, and_assoc]

theorem agrees_iff {f : PersistedGrantFilter} {g : Models.PersistedGrant} :
    agrees f g = true ↔ getAllWhere f g.toEntity = true ∧ Meets f.sessionId g.sessionId := by
  rw [getAllWhere_iff]
  unfold agrees
  rw [decide_eq_true_iff]
  constructor
  · rintro ⟨hsubject, hsession, hclient, htype⟩
    exact ⟨⟨hsubject, hclient, htype⟩, hsession⟩
  · rintro ⟨⟨hsubject, hclient, htype⟩, hsession⟩
    exact ⟨hsubject, hsession, hclient, htype⟩

theorem agrees_eq (f : PersistedGrantFilter) (g : Models.PersistedGrant) :
    agrees f g = (getAllWhere f g.toEntity && decide (Meets f.sessionId g.sessionId)) := by
  rw [Bool.eq_iff_iff, agrees_iff, Bool.and_eq_true, decide_eq_true_iff]

theorem meets_of_set {value field : Option String} (h : isNullOrWhiteSpace value = false) :
    Meets value field ↔ field = value := by
  simp [h]

theorem isBlank_iff {f : PersistedGrantFilter} :
    f.isBlank = true ↔ isNullOrWhiteSpace f.sessionId = true ∧ ¬validate (some f) = .ok f := by
  rw [validate_ok_iff]
  unfold PersistedGrantFilter.isBlank
  cases isNullOrWhiteSpace f.subjectId <;> cases isNullOrWhiteSpace f.sessionId <;>
    cases isNullOrWhiteSpace f.clientId <;> simp

theorem isBlank_of_valid {f : PersistedGrantFilter} (h : validate (some f) = .ok f) :
    f.isBlank = false := by
  by_contra hb
  exact (isBlank_iff.mp (by simpa using hb)).2 h

theorem validate_error_of_not_ok {f : PersistedGrantFilter} (h : ¬validate (some f) = .ok f) :
    ∃ e, validate (some f) = .error e := by
  simp only [validate_ok_iff, not_or, Bool.not_eq_false] at h
  exact ⟨_, validate_error_of_blank h.1 h.2.1 h.2.2⟩

theorem getAllAsync_storeAll {tokens : List Models.PersistedGrant} {f : PersistedGrantFilter}
    (h : validate (some f) = .ok f) :
    getAllAsync (some f) (storeAll tokens) =
      .ok (((savedGrants tokens).filter (fun g => getAllWhere f g.toEntity)).map
        (fun g => g.toEntity.toModel)) := by
  rw [getAllAsync_of_valid h, storeAll_eq, List.filter_map, List.map_map]
  rfl

theorem removeAllAsync_storeAll {tokens : List Models.PersistedGrant} {f : PersistedGrantFilter}
    (h : validate (some f) = .ok f) :
    removeAllAsync (some f) (storeAll tokens) =
      (.ok (), ((savedGrants tokens).filter (fun g => !getAllWhere f g.toEntity)).map
        Models.PersistedGrant.toEntity) := by
  rw [removeAllAsync_of_valid h, storeAll_eq, removeAllWhere_eq, remove, deleteMany_map]
  rfl

theorem refused_of_error {filter : Option PersistedGrantFilter} {e : Exception}
    (h : validate filter = .error e) (docs : GrantDocs) :
    getAllAsync filter docs = .error e ∧ removeAllAsync filter docs = (.error e, docs) := by
  simp [getAllAsync, removeAllAsync, h]

theorem agrees_of_session_blank {f : PersistedGrantFilter}
    (h : isNullOrWhiteSpace f.sessionId = true) (g : Models.PersistedGrant) :
    agrees f g = getAllWhere f g.toEntity := by
  rw [Bool.eq_iff_iff, agrees_iff]
  exact and_iff_left (Or.inl h)

theorem agrees_of_sessionImplied {tokens : List Models.PersistedGrant} {f : PersistedGrantFilter}
    (h : SessionImplied tokens f) {g : Models.PersistedGrant} (hg : g ∈ savedGrants tokens) :
    agrees f g = getAllWhere f g.toEntity := by
  rcases h with hb | ⟨_, hs⟩
  · exact agrees_of_session_blank hb g
  · rw [Bool.eq_iff_iff, agrees_iff]
    exact and_iff_left_of_imp (fun hw => Or.inr (hs g hg hw))

theorem validate_ok_of_sessionImplied {tokens : List Models.PersistedGrant}
    {f : PersistedGrantFilter} (h : SessionImplied tokens f) (hb : f.isBlank = false) :
    validate (some f) = .ok f := by
  rcases h with hs | ⟨hv, _⟩
  · by_contra hn
    have ht := isBlank_iff.mpr ⟨hs, hn⟩
    rw [hb] at ht
    cases ht
  · exact validate_ok_iff.mpr hv

/-- Where the operations select exactly, the session criterion must already follow. -/
theorem sessionImplied_of_selectsExactly {tokens : List Models.PersistedGrant}
    {f : PersistedGrantFilter} (h : SelectsExactly tokens (some f)) : SessionImplied tokens f := by
  cases hb : isNullOrWhiteSpace f.sessionId with
  | true => exact Or.inl hb
  | false =>
    have hne : f.isBlank = false := by
      simp [PersistedGrantFilter.isBlank, hb]
    have hr := h.returned f rfl hne
    have hv : validate (some f) = .ok f := by
      by_contra hn
      obtain ⟨e, he⟩ := validate_error_of_not_ok hn
      rw [(refused_of_error he _).1] at hr
      cases hr
    refine Or.inr ⟨validate_ok_iff.mp hv, ?_⟩
    rw [getAllAsync_storeAll hv] at hr
    have hlen := congrArg List.length (Except.ok.inj hr)
    have hsplit : (savedGrants tokens).filter (agrees f) =
        ((savedGrants tokens).filter (fun g => getAllWhere f g.toEntity)).filter
          (fun g => decide (Meets f.sessionId g.sessionId)) := by
      rw [List.filter_filter]
      apply List.filter_congr
      intro g _
      rw [agrees_eq, Bool.and_comm]
    rw [List.length_map, List.length_map, hsplit] at hlen
    intro g hg hw
    have hall := List.length_filter_eq_length_iff.mp hlen.symm g (List.mem_filter.mpr ⟨hg, hw⟩)
    exact (meets_of_set hb).mp (of_decide_eq_true hall)

/-- The filter operations select exactly what the filter names if and only if
the filter is null, or its session criterion follows from the three others. -/
theorem selectsExactly_iff (tokens : List Models.PersistedGrant)
    (filter : Option PersistedGrantFilter) :
    SelectsExactly tokens filter ↔ ∀ f, filter = some f → SessionImplied tokens f := by
  constructor
  · intro h f hf
    subst hf
    exact sessionImplied_of_selectsExactly h
  · intro h
    refine ⟨?_, ?_, ?_⟩
    · intro hblank
      cases filter with
      | none =>
        have hn := @refused_of_error none _ rfl (storeAll tokens)
        exact ⟨⟨_, hn.1⟩, ⟨_, hn.2⟩⟩
      | some f =>
        obtain ⟨e, he⟩ := validate_error_of_not_ok (isBlank_iff.mp (hblank f rfl)).2
        have hn := refused_of_error he (storeAll tokens)
        exact ⟨⟨_, hn.1⟩, ⟨_, hn.2⟩⟩
    · rintro f rfl hblank
      have hs := h f rfl
      have hv := validate_ok_of_sessionImplied hs hblank
      rw [getAllAsync_storeAll hv]
      congr 2
      exact List.filter_congr (fun g hg => (agrees_of_sessionImplied hs hg).symm)
    · rintro f rfl hblank
      have hs := h f rfl
      have hv := validate_ok_of_sessionImplied hs hblank
      rw [removeAllAsync_storeAll hv]
      congr 2
      exact List.filter_congr (fun g hg => by rw [agrees_of_sessionImplied hs hg])

/-- Asking for one session of a subject returns and removes the grants of another. -/
theorem session_filter_not_exact :
    ¬SelectsExactly
      [{ key := some "k1", subjectId := some "alice", sessionId := some "s1" },
        { key := some "k2", subjectId := some "alice", sessionId := some "s2" }]
      (some { subjectId := some "alice", sessionId := some "s1" }) := by
  intro h
  have hr := h.returned _ rfl (by decide)
  revert hr
  decide

end IdentityServerMongoDB
