import IdentityServerMongoDB.GrantCalls
import IdentityServerMongoDB.GrantSequential

namespace IdentityServerMongoDB

def isLive (utcNow : DateTime) (x : Entities.PersistedGrant) : Bool :=
  !isExpired utcNow x

/-- Two results that differ in expired grants only. -/
inductive SameLive (utcNow : DateTime) : GrantResult → GrantResult → Prop
  | done : SameLive utcNow .done .done
  | grant {a b : Option Models.PersistedGrant} :
      a.filter (fun g => isLive utcNow g.toEntity) = b.filter (fun g => isLive utcNow g.toEntity) →
      SameLive utcNow (.grant a) (.grant b)
  | grants {a b : List Models.PersistedGrant} :
      (a.filter (fun g => isLive utcNow g.toEntity)).Perm
        (b.filter (fun g => isLive utcNow g.toEntity)) →
      SameLive utcNow (.grants a) (.grants b)
  | thrown {e} : SameLive utcNow (.thrown e) (.thrown e)

def GrantCall.isCleanup : GrantCall → Bool
  | .removeExpiredGrantsAsync => true
  | _ => false

/-- What the calls that are no cleanup pass return, each with its call and clock. -/
def answers (calls : List (GrantCall × DateTime)) (docs : GrantDocs) :
    List ((GrantCall × DateTime) × GrantResult) :=
  (calls.zip (execAll calls docs).1).filter (fun a => !a.1.1.isCleanup)

/-- Two collections that hold the same unexpired grants. -/
structure AgreeLive (utcNow : DateTime) (docs docs' : GrantDocs) : Prop where
  unique : KeysUnique Entities.PersistedGrant.key docs
  unique' : KeysUnique Entities.PersistedGrant.key docs'
  live : ∀ k, (lookup Entities.PersistedGrant.key docs k).filter (isLive utcNow) =
    (lookup Entities.PersistedGrant.key docs' k).filter (isLive utcNow)

theorem filter_live_mono {utcNow later : DateTime} (h : utcNow ≤ later)
    (x : Option Entities.PersistedGrant) :
    x.filter (isLive later) = (x.filter (isLive utcNow)).filter (isLive later) := by
  cases x with
  | none => rfl
  | some d =>
    cases he : isExpired utcNow d with
    | false => simp [Option.filter, isLive, he]
    | true =>
      have hlater : isExpired later d = true := isBefore_mono h he
      simp [Option.filter, isLive, he, hlater]

theorem AgreeLive.later {utcNow later : DateTime} {docs docs' : GrantDocs}
    (h : AgreeLive utcNow docs docs') (hle : utcNow ≤ later) : AgreeLive later docs docs' := by
  refine ⟨h.unique, h.unique', ?_⟩
  intro k
  rw [filter_live_mono hle, h.live k, ← filter_live_mono hle]

theorem AgreeLive.storeAsync {utcNow : DateTime} {docs docs' : GrantDocs}
    (h : AgreeLive utcNow docs docs') (token : Models.PersistedGrant) :
    AgreeLive utcNow (storeAsync token docs) (storeAsync token docs') := by
  have hkey : Entities.PersistedGrant.key token.toEntity = token.key := rfl
  refine ⟨keysUnique_replaceOne h.unique hkey, keysUnique_replaceOne h.unique' hkey, ?_⟩
  intro k
  unfold IdentityServerMongoDB.storeAsync insertOrUpdate
  rw [lookup_replaceOne hkey, lookup_replaceOne hkey]
  by_cases hk : k = token.key
  · subst k
    rw [Function.update_self, Function.update_self]
  · rw [Function.update_of_ne hk, Function.update_of_ne hk]
    exact h.live k

theorem AgreeLive.remove {utcNow : DateTime} {docs docs' : GrantDocs}
    (h : AgreeLive utcNow docs docs') (filter : Entities.PersistedGrant → Bool) :
    AgreeLive utcNow (remove filter docs) (remove filter docs') := by
  refine ⟨keysUnique_deleteMany h.unique filter, keysUnique_deleteMany h.unique' filter, ?_⟩
  have swap : ∀ x : Option Entities.PersistedGrant, (x.filter (fun d => !filter d)).filter
      (isLive utcNow) = (x.filter (isLive utcNow)).filter (fun d => !filter d) := by
    intro x
    rw [Option.filter_filter, Option.filter_filter]
    congr 1
    funext d
    exact Bool.and_comm _ _
  intro k
  unfold IdentityServerMongoDB.remove
  rw [lookup_deleteMany h.unique, lookup_deleteMany h.unique', swap, swap, h.live k]

/-- A cleanup pass takes nothing away but expired grants. -/
theorem AgreeLive.cleanup {utcNow : DateTime} {docs docs' : GrantDocs}
    (h : AgreeLive utcNow docs docs') : AgreeLive utcNow (removeGrantsAsync utcNow docs) docs' := by
  rw [removeGrantsAsync_eq]
  refine ⟨keysUnique_deleteMany h.unique _, h.unique', ?_⟩
  intro k
  unfold removeExpired IdentityServerMongoDB.remove
  rw [lookup_deleteMany h.unique, ← h.live k, Option.filter_filter]
  congr 1
  funext d
  exact Bool.and_self _

theorem AgreeLive.getAsync {utcNow : DateTime} {docs docs' : GrantDocs}
    (h : AgreeLive utcNow docs docs') (key : Option String) :
    (getAsync key docs).filter (fun g => isLive utcNow g.toEntity) =
      (getAsync key docs').filter (fun g => isLive utcNow g.toEntity) := by
  have hmap : ∀ x : Option Entities.PersistedGrant,
      (x.map Entities.PersistedGrant.toModel).filter (fun g => isLive utcNow g.toEntity) =
        (x.filter (isLive utcNow)).map Entities.PersistedGrant.toModel :=
    fun x => Option.filter_map ..
  unfold IdentityServerMongoDB.getAsync
  rw [hmap, hmap]
  exact congrArg (Option.map Entities.PersistedGrant.toModel) (h.live key)

theorem AgreeLive.perm {utcNow : DateTime} {docs docs' : GrantDocs}
    (h : AgreeLive utcNow docs docs') :
    (docs.filter (isLive utcNow)).Perm (docs'.filter (isLive utcNow)) := by
  have hu := keysUnique_deleteMany h.unique (isExpired utcNow)
  have hu' := keysUnique_deleteMany h.unique' (isExpired utcNow)
  apply perm_of_lookup hu hu'
  intro k
  rw [lookup_deleteMany h.unique, lookup_deleteMany h.unique']
  exact h.live k

theorem AgreeLive.getAllWhere {utcNow : DateTime} {docs docs' : GrantDocs}
    (h : AgreeLive utcNow docs docs') (filter : Models.PersistedGrantFilter) :
    (((docs.filter (getAllWhere filter)).map Entities.PersistedGrant.toModel).filter
      (fun g => isLive utcNow g.toEntity)).Perm
    (((docs'.filter (getAllWhere filter)).map Entities.PersistedGrant.toModel).filter
      (fun g => isLive utcNow g.toEntity)) := by
  have hmap : ∀ docs : GrantDocs,
      ((docs.filter (IdentityServerMongoDB.getAllWhere filter)).map
        Entities.PersistedGrant.toModel).filter (fun g => isLive utcNow g.toEntity) =
      ((docs.filter (isLive utcNow)).filter (IdentityServerMongoDB.getAllWhere filter)).map
        Entities.PersistedGrant.toModel := by
    intro docs
    rw [List.filter_map, List.filter_filter, List.filter_filter]
    congr 2
    funext d
    exact Bool.and_comm _ _
  rw [hmap, hmap]
  exact (h.perm.filter _).map _

theorem exec_agreeLive {utcNow : DateTime} {docs docs' : GrantDocs}
    (h : AgreeLive utcNow docs docs') {call : GrantCall} (hc : call.isCleanup = false) :
    SameLive utcNow (call.exec utcNow docs).1 (call.exec utcNow docs').1 ∧
      AgreeLive utcNow (call.exec utcNow docs).2 (call.exec utcNow docs').2 := by
  cases call with
  | storeAsync token => exact ⟨SameLive.done, h.storeAsync token⟩
  | getAsync key => exact ⟨SameLive.grant (h.getAsync key), h⟩
  | getAllAsync filter =>
    cases hv : validate filter with
    | error e =>
      simp only [GrantCall.exec, IdentityServerMongoDB.getAllAsync, hv]
      exact ⟨SameLive.thrown, h⟩
    | ok f =>
      simp only [GrantCall.exec, IdentityServerMongoDB.getAllAsync, hv]
      exact ⟨SameLive.grants (h.getAllWhere f), h⟩
  | removeAsync key => exact ⟨SameLive.done, h.remove _⟩
  | removeAllAsync filter =>
    cases hv : validate filter with
    | error e =>
      simp only [GrantCall.exec, IdentityServerMongoDB.removeAllAsync, hv]
      exact ⟨SameLive.thrown, h⟩
    | ok f =>
      simp only [GrantCall.exec, IdentityServerMongoDB.removeAllAsync, hv]
      exact ⟨SameLive.done, h.remove _⟩
  | removeExpiredGrantsAsync => cases hc

theorem answers_cons (call : GrantCall) (utcNow : DateTime) (calls : List (GrantCall × DateTime))
    (docs : GrantDocs) :
    answers ((call, utcNow) :: calls) docs =
      if call.isCleanup = true then answers calls (call.exec utcNow docs).2
      else ((call, utcNow), (call.exec utcNow docs).1) :: answers calls (call.exec utcNow docs).2 := by
  unfold answers
  rw [execAll_cons, List.zip_cons_cons, List.filter_cons]
  cases call.isCleanup <;> simp

theorem answers_agreeLive {calls : List (GrantCall × DateTime)} {utcNow : DateTime}
    {docs docs' : GrantDocs} (clock : ClockForward utcNow calls) (h : AgreeLive utcNow docs docs') :
    List.Forall₂ (fun a b => a.1 = b.1 ∧ SameLive a.1.2 a.2 b.2) (answers calls docs)
      (answers (calls.filter (fun c => !c.1.isCleanup)) docs') := by
  induction calls generalizing utcNow docs docs' with
  | nil => exact List.Forall₂.nil
  | cons entry calls ih =>
    obtain ⟨call, next⟩ := entry
    obtain ⟨hle, hclock⟩ := clock
    have hnext := h.later hle
    rw [answers_cons]
    cases hc : call.isCleanup with
    | true =>
      have hcall : call = .removeExpiredGrantsAsync := by
        cases call with
        | removeExpiredGrantsAsync => rfl
        | _ => cases hc
      subst call
      exact ih hclock hnext.cleanup
    | false =>
      obtain ⟨hsame, hagree⟩ := exec_agreeLive hnext hc
      have hkept : List.filter (fun c => !c.1.isCleanup) ((call, next) :: calls) =
          (call, next) :: calls.filter (fun c => !c.1.isCleanup) := by
        simp [hc]
      rw [hkept, answers_cons, hc]
      exact List.Forall₂.cons ⟨rfl, hsame⟩ (ih hclock hagree)

/-- With or without cleanup passes among them, calls under a clock that does not
go back return the same but for expired grants. -/
theorem cleanup_unobserved {docs : GrantDocs} (unique : KeysUnique Entities.PersistedGrant.key docs)
    {utcNow : DateTime} {calls : List (GrantCall × DateTime)} (clock : ClockForward utcNow calls) :
    List.Forall₂ (fun a b => a.1 = b.1 ∧ SameLive a.1.2 a.2 b.2) (answers calls docs)
      (answers (calls.filter (fun c => !c.1.isCleanup)) docs) :=
  answers_agreeLive clock ⟨unique, unique, fun _ => rfl⟩

/-- A grant expires and is read behind a cleanup pass, and without it. -/
def expiredGrantCalls : List (GrantCall × DateTime) :=
  [(.storeAsync { key := some "k", expiration := some 4 }, 1), (.removeExpiredGrantsAsync, 5),
    (.getAsync (some "k"), 5)]

theorem cleanup_unobserved_expired :
    List.Forall₂ (fun a b => a.1 = b.1 ∧ SameLive a.1.2 a.2 b.2) (answers expiredGrantCalls [])
      (answers (expiredGrantCalls.filter (fun c => !c.1.isCleanup)) []) := by
  have unique : KeysUnique Entities.PersistedGrant.key [] := List.nodup_nil
  have clock : ClockForward 0 expiredGrantCalls :=
    ⟨Nat.zero_le 1, by decide, Nat.le_refl 5, trivial⟩
  exact cleanup_unobserved unique clock

end IdentityServerMongoDB
