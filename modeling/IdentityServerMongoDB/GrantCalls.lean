import IdentityServerMongoDB.PersistedGrantStore

namespace IdentityServerMongoDB

open Models (PersistedGrantFilter)

/-- The calls clients make: those of the store, and a token cleanup pass. -/
inductive GrantCall
  | storeAsync (token : Models.PersistedGrant)
  | getAsync (key : Option String)
  | getAllAsync (filter : Option PersistedGrantFilter)
  | removeAsync (key : Option String)
  | removeAllAsync (filter : Option PersistedGrantFilter)
  | removeExpiredGrantsAsync

inductive GrantResult
  | done
  | grant (model : Option Models.PersistedGrant)
  | grants (models : List Models.PersistedGrant)
  | thrown (e : Exception)

/-- A call none of whose effects is interleaved with those of another. -/
def GrantCall.exec (call : GrantCall) (utcNow : DateTime) (docs : GrantDocs) :
    GrantResult × GrantDocs :=
  match call with
  | .storeAsync token => (.done, IdentityServerMongoDB.storeAsync token docs)
  | .getAsync key => (.grant (IdentityServerMongoDB.getAsync key docs), docs)
  | .getAllAsync filter =>
    match IdentityServerMongoDB.getAllAsync filter docs with
    | .error e => (.thrown e, docs)
    | .ok models => (.grants models, docs)
  | .removeAsync key => (.done, IdentityServerMongoDB.removeAsync key docs)
  | .removeAllAsync filter =>
    match IdentityServerMongoDB.removeAllAsync filter docs with
    | (.error e, docs) => (.thrown e, docs)
    | (.ok (), docs) => (.done, docs)
  | .removeExpiredGrantsAsync => (.done, removeGrantsAsync utcNow docs)

def execAll : List (GrantCall × DateTime) → GrantDocs → List GrantResult × GrantDocs
  | [], docs => ([], docs)
  | (call, utcNow) :: calls, docs =>
    let (result, next) := call.exec utcNow docs
    let (results, final) := execAll calls next
    (result :: results, final)

theorem execAll_cons (call : GrantCall) (utcNow : DateTime) (calls : List (GrantCall × DateTime))
    (docs : GrantDocs) :
    execAll ((call, utcNow) :: calls) docs =
      ((call.exec utcNow docs).1 :: (execAll calls (call.exec utcNow docs).2).1,
        (execAll calls (call.exec utcNow docs).2).2) := rfl

/-- The collection after a `RemoveAllAsync`, refused or not. -/
theorem exec_removeAllAsync_docs (filter : Option PersistedGrantFilter) (utcNow : DateTime)
    (docs : GrantDocs) :
    ((GrantCall.removeAllAsync filter).exec utcNow docs).2 =
      (IdentityServerMongoDB.removeAllAsync filter docs).2 := by
  simp only [GrantCall.exec]
  split
  next h => rw [h]
  next h => rw [h]

theorem exec_getAllAsync_docs (filter : Option PersistedGrantFilter) (utcNow : DateTime)
    (docs : GrantDocs) : ((GrantCall.getAllAsync filter).exec utcNow docs).2 = docs := by
  simp only [GrantCall.exec]
  split
  next => rfl
  next => rfl

end IdentityServerMongoDB
