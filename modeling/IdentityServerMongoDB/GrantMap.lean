import IdentityServerMongoDB.FiniteMap
import IdentityServerMongoDB.GrantCalls
import IdentityServerMongoDB.GrantFilter

namespace IdentityServerMongoDB

open Models (PersistedGrantFilter)

abbrev GrantMap := FiniteMap (Option String) Models.PersistedGrant

inductive MapResult
  | done
  | grant (model : Option Models.PersistedGrant)
  | grants (models : Set Models.PersistedGrant)
  | thrown

/-- The expiration of the grant is set, and past. -/
abbrev Models.PersistedGrant.Expired (g : Models.PersistedGrant) (utcNow : DateTime) : Prop :=
  ∃ t ∈ g.expiration, t < utcNow

/-- What the store is for: a map from each key to the last grant stored under it. -/
def GrantCall.spec (call : GrantCall) (utcNow : DateTime) (m : GrantMap) : MapResult × GrantMap :=
  match call with
  | .storeAsync token => (.done, m.store token.key token)
  | .getAsync key => (.grant (m.get key), m)
  | .getAllAsync none => (.thrown, m)
  | .getAllAsync (some f) =>
    if f.isBlank then (.thrown, m) else (.grants {g | g ∈ m.entries ∧ agrees f g = true}, m)
  | .removeAsync key => (.done, m.erase key)
  | .removeAllAsync none => (.thrown, m)
  | .removeAllAsync (some f) =>
    if f.isBlank then (.thrown, m) else (.done, m.restrict (fun g => !agrees f g))
  | .removeExpiredGrantsAsync => (.done, m.restrict (fun g => ¬g.Expired utcNow))

def specAll : List (GrantCall × DateTime) → GrantMap → List MapResult × GrantMap
  | [], m => ([], m)
  | (call, utcNow) :: calls, m =>
    let (result, next) := call.spec utcNow m
    let (results, final) := specAll calls next
    (result :: results, final)

/-- Two grants that agree on the members the comparison is about. -/
def SameGrant (a b : Models.PersistedGrant) : Prop :=
  a.key = b.key ∧ a.type = b.type ∧ a.subjectId = b.subjectId ∧ a.clientId = b.clientId ∧
    a.creationTime = b.creationTime ∧ a.expiration = b.expiration ∧ a.data = b.data

/-- The results of the store, seen as results of the map. Returned grants are
listed once for each key. -/
inductive SameResult : GrantResult → MapResult → Prop
  | done : SameResult .done .done
  | grant {a b} : Option.Rel SameGrant a b → SameResult (.grant a) (.grant b)
  | grants {models set} : (models.map Models.PersistedGrant.key).Nodup →
      (∀ g ∈ models, ∃ h ∈ set, SameGrant g h) → (∀ h ∈ set, ∃ g ∈ models, SameGrant g h) →
      SameResult (.grants models) (.grants set)
  | thrown {e} : SameResult (.thrown e) .thrown

def GrantCall.SessionBlank : GrantCall → Prop
  | .getAllAsync (some f) => isNullOrWhiteSpace f.sessionId = true
  | .removeAllAsync (some f) => isNullOrWhiteSpace f.sessionId = true
  | _ => True

abbrev RepresentsGrants (docs : GrantDocs) (m : GrantMap) : Prop :=
  Represents Entities.PersistedGrant.key Models.PersistedGrant.toEntity docs m

theorem sameGrant_toModel (g : Models.PersistedGrant) : SameGrant g.toEntity.toModel g :=
  ⟨rfl, rfl, rfl, rfl, rfl, rfl, rfl⟩

theorem isExpired_eq (utcNow : DateTime) (g : Models.PersistedGrant) :
    isExpired utcNow g.toEntity = decide (g.Expired utcNow) := by
  rw [Bool.eq_iff_iff, decide_eq_true_iff]
  exact isBefore_iff

theorem sameResult_getAsync {docs : GrantDocs} {m : GrantMap} (h : RepresentsGrants docs m)
    (key : Option String) : Option.Rel SameGrant (getAsync key docs) (m.get key) := by
  have hl : getAsync key docs =
      ((m.get key).map Models.PersistedGrant.toEntity).map Entities.PersistedGrant.toModel := by
    rw [← h.agree key]
    rfl
  rw [hl]
  cases m.get key with
  | none => exact Option.Rel.none
  | some g => exact Option.Rel.some (sameGrant_toModel g)

theorem sameResult_getAllAsync {docs : GrantDocs} {m : GrantMap} (h : RepresentsGrants docs m)
    {f : PersistedGrantFilter} (hs : isNullOrWhiteSpace f.sessionId = true) :
    SameResult (.grants ((docs.filter (getAllWhere f)).map Entities.PersistedGrant.toModel))
      (.grants {g | g ∈ m.entries ∧ agrees f g = true}) := by
  refine SameResult.grants ?_ ?_ ?_
  · rw [List.map_map]
    exact h.unique.sublist (List.filter_sublist.map _)
  · intro g hg
    obtain ⟨d, hd, rfl⟩ := List.mem_map.mp hg
    obtain ⟨hm, hw⟩ := List.mem_filter.mp hd
    obtain ⟨x, hx, rfl⟩ := h.mem_iff.mp hm
    exact ⟨x, ⟨hx, (agrees_of_session_blank hs x).trans hw⟩, sameGrant_toModel x⟩
  · rintro x ⟨hx, ha⟩
    have hm := h.mem_iff.mpr ⟨x, hx, rfl⟩
    have hw := (agrees_of_session_blank hs x).symm.trans ha
    exact ⟨_, List.mem_map.mpr ⟨_, List.mem_filter.mpr ⟨hm, hw⟩, rfl⟩, sameGrant_toModel x⟩

/-- One call on a collection that stands for a map does what the call does on the map. -/
theorem spec_of_exec {docs : GrantDocs} {m : GrantMap} (h : RepresentsGrants docs m)
    {call : GrantCall} (hs : call.SessionBlank) (utcNow : DateTime) :
    SameResult (call.exec utcNow docs).1 (call.spec utcNow m).1 ∧
      RepresentsGrants (call.exec utcNow docs).2 (call.spec utcNow m).2 := by
  cases call with
  | storeAsync token => exact ⟨SameResult.done, h.replaceOne rfl⟩
  | getAsync key => exact ⟨SameResult.grant (sameResult_getAsync h key), h⟩
  | getAllAsync filter =>
    cases filter with
    | none => exact ⟨SameResult.thrown, h⟩
    | some f =>
      simp only [GrantCall.exec, GrantCall.spec]
      by_cases hv : validate (some f) = .ok f
      · rw [getAllAsync_of_valid hv, isBlank_of_valid hv]
        exact ⟨sameResult_getAllAsync h hs, h⟩
      · obtain ⟨e, he⟩ := validate_error_of_not_ok hv
        rw [(refused_of_error he docs).1, isBlank_iff.mpr ⟨hs, hv⟩]
        exact ⟨SameResult.thrown, h⟩
  | removeAsync key =>
    refine ⟨SameResult.done, ?_⟩
    change RepresentsGrants (deleteMany (fun x => x.key = key) docs) (m.erase key)
    rw [h.keyed.erase_eq_restrict key]
    exact h.deleteMany (fun _ _ => rfl)
  | removeAllAsync filter =>
    cases filter with
    | none => exact ⟨SameResult.thrown, h⟩
    | some f =>
      simp only [GrantCall.exec, GrantCall.spec]
      by_cases hv : validate (some f) = .ok f
      · rw [removeAllAsync_of_valid hv, isBlank_of_valid hv]
        refine ⟨SameResult.done, h.deleteMany ?_⟩
        intro g _
        rw [agrees_of_session_blank hs, removeAllWhere_eq]
      · obtain ⟨e, he⟩ := validate_error_of_not_ok hv
        rw [(refused_of_error he docs).2, isBlank_iff.mpr ⟨hs, hv⟩]
        exact ⟨SameResult.thrown, h⟩
  | removeExpiredGrantsAsync =>
    refine ⟨SameResult.done, ?_⟩
    change RepresentsGrants (removeGrantsAsync utcNow docs) _
    rw [removeGrantsAsync_eq]
    refine h.deleteMany ?_
    intro g _
    rw [isExpired_eq, decide_not]

theorem specAll_of_execAll {calls : List (GrantCall × DateTime)}
    (hs : ∀ c ∈ calls, c.1.SessionBlank) {docs : GrantDocs} {m : GrantMap}
    (h : RepresentsGrants docs m) :
    List.Forall₂ SameResult (execAll calls docs).1 (specAll calls m).1 ∧
      RepresentsGrants (execAll calls docs).2 (specAll calls m).2 := by
  induction calls generalizing docs m with
  | nil => exact ⟨List.Forall₂.nil, h⟩
  | cons entry calls ih =>
    obtain ⟨call, utcNow⟩ := entry
    obtain ⟨hr, hn⟩ := spec_of_exec h (hs (call, utcNow) (by simp)) utcNow
    obtain ⟨hrs, hf⟩ := ih (fun c hc => hs c (List.mem_cons_of_mem _ hc)) hn
    exact ⟨List.Forall₂.cons hr hrs, hf⟩

/-- Any sequence of calls on an empty collection, each finished before the next,
has the results it has on the empty map, and leaves a collection that stands
for the map it leaves. -/
theorem grantStore_refines_map (calls : List (GrantCall × DateTime))
    (h : ∀ c ∈ calls, c.1.SessionBlank) :
    List.Forall₂ SameResult (execAll calls []).1 (specAll calls FiniteMap.empty).1 ∧
      RepresentsGrants (execAll calls []).2 (specAll calls FiniteMap.empty).2 :=
  specAll_of_execAll h (Represents.empty _ _)

theorem grantStore_refines_map_short :
    List.Forall₂ SameResult
      (execAll [(.storeAsync { key := some "k", clientId := some "c", expiration := some 4 }, 1),
        (.getAllAsync (some { clientId := some "c" }), 2), (.removeExpiredGrantsAsync, 5)] []).1
      (specAll [(.storeAsync { key := some "k", clientId := some "c", expiration := some 4 }, 1),
        (.getAllAsync (some { clientId := some "c" }), 2), (.removeExpiredGrantsAsync, 5)]
        FiniteMap.empty).1 :=
  (grantStore_refines_map
    [(.storeAsync { key := some "k", clientId := some "c", expiration := some 4 }, 1),
      (.getAllAsync (some { clientId := some "c" }), 2), (.removeExpiredGrantsAsync, 5)]
    (by simp [GrantCall.SessionBlank, isNullOrWhiteSpace])).1

end IdentityServerMongoDB
