import IdentityServerMongoDB.GrantHistory

namespace IdentityServerMongoDB

/-- The document was written by the call that is its writer, and by nothing else since. -/
def GrantState.Written (s : GrantState) (d : Doc) : Prop :=
  ∃ c token, s.calls d.writer = some c ∧ c.call = .storeAsync token ∧
    d.grant = token.toEntity ∧ c.pc.HasWritten

theorem written_step {s s' : GrantState} {e : GrantEvent} (h : GrantStepCase s e s') {d : Doc}
    (hd : s.Written d) : s'.Written d := by
  obtain ⟨c, token, hc, hcall, hgrant, hpc⟩ := hd
  obtain ⟨c', hc', he⟩ := call_of_step h hc
  exact ⟨c', token, hc', he.call.trans hcall, hgrant, he.hasWritten hpc⟩

/-- What has been written is not written again. -/
theorem mem_docs_before_step {s s' : GrantState} {e : GrantEvent} (h : GrantStepCase s e s')
    {d : Doc} (hw : s.Written d) (hd : d ∈ s'.docs) : d ∈ s.docs := by
  rcases mem_docs_of_step h hd with hold | ⟨c, _, _, hc, _, _, _, hpc⟩
  · exact hold
  · obtain ⟨w, _, hwc, _, _, hwritten⟩ := hw
    rw [hc] at hwc
    cases Option.some.inj hwc
    rcases hpc with hp | ⟨_, hp, _⟩ <;> (rw [hp] at hwritten; exact hwritten.elim)

/-- The documents of the collection are written. -/
theorem docs_written {guard : GrantState → GrantEvent → Prop} {s : GrantState}
    (reach : GrantReach guard s) : ∀ d ∈ s.docs, s.Written d := by
  induction reach with
  | start =>
    intro d hd
    simp [grantInit] at hd
  | @next s s' e prior guard step ih =>
    have hcase := grantStep_cases step
    intro d hd
    rcases mem_docs_of_step hcase hd with hold | ⟨c, c', _, hc, hc', hsame, hstored, hpc⟩
    · exact written_step hcase (ih d hold)
    · have hcon := reach_consistent prior hc
      have hwritten : c'.pc.HasWritten := by rw [hstored]; trivial
      rcases hpc with hp | ⟨key, hp, _⟩
      · obtain ⟨token, hcall, hgrant⟩ := hcon.insert hp
        exact ⟨c', token, hc', hsame.trans hcall, hgrant, hwritten⟩
      · obtain ⟨token, hcall, _, hgrant⟩ := hcon.search hp
        exact ⟨c', token, hc', hsame.trans hcall, hgrant, hwritten⟩

/-- So are the documents that any call has met. -/
theorem met_written {guard : GrantState → GrantEvent → Prop} {s : GrantState}
    (reach : GrantReach guard s) {i : CallId} {c : CallState} {d : Doc} (hc : s.calls i = some c)
    (hd : d ∈ c.atCall ∨ d ∈ c.removed ∨ d ∈ c.atQuery) : s.Written d := by
  induction reach generalizing c with
  | start => simp [grantInit] at hc
  | @next s s' e prior guard step ih =>
    have hcase := grantStep_cases step
    apply written_step hcase
    rcases call_before_step hcase hc with ⟨c0, hc0, he⟩ | ⟨call, entry, rfl, _⟩
    · rcases hd with hat | hremoved | hqueried
      · rw [he.atCall] at hat
        exact ih hc0 (Or.inl hat)
      · rcases he.removed d hremoved with hold | ⟨hdocs, _⟩
        · exact ih hc0 (Or.inr (Or.inl hold))
        · exact docs_written prior d hdocs
      · rcases he.queried d hqueried with hold | hdocs
        · exact ih hc0 (Or.inr (Or.inr hold))
        · exact docs_written prior d hdocs
    · have hdocs : d ∈ s.docs := by simpa [GrantState.newCall] using hd
      exact docs_written prior d hdocs

end IdentityServerMongoDB
