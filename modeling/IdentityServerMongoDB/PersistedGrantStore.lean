import IdentityServerMongoDB.KeyedCollection
import IdentityServerMongoDB.PersistedGrant

namespace IdentityServerMongoDB

open Models (PersistedGrantFilter)

abbrev GrantDocs := List Entities.PersistedGrant

abbrev GrantIndex := Index Entities.PersistedGrant (List (Option String))

/-- The four indexes the context creates when it is constructed. The options
they share leave `Unique` at its default. -/
def grantIndexes : List GrantIndex :=
  [ { entries := fun x => [[x.key]], background := true },
    { entries := fun x => [[x.subjectId]], background := true },
    { entries := fun x => [[x.clientId, x.subjectId]], background := true },
    { entries := fun x => [[x.clientId, x.subjectId, x.type]], background := true } ]

def remove (filter : Entities.PersistedGrant → Bool) (docs : GrantDocs) : GrantDocs :=
  deleteMany filter docs

def isExpired (utcNow : DateTime) (x : Entities.PersistedGrant) : Bool :=
  isBefore x.expiration utcNow

def removeExpired (utcNow : DateTime) (docs : GrantDocs) : GrantDocs :=
  remove (isExpired utcNow) docs

def insertOrUpdate (filter : Entities.PersistedGrant → Bool) (entity : Entities.PersistedGrant)
    (docs : GrantDocs) : GrantDocs :=
  replaceOne filter entity docs

/-- The collection once `StoreAsync` has completed. -/
def storeAsync (token : Models.PersistedGrant) (docs : GrantDocs) : GrantDocs :=
  insertOrUpdate (fun t => t.key = token.key) token.toEntity docs

def getAsync (key : Option String) (docs : GrantDocs) : Option Models.PersistedGrant :=
  (docs.find? (fun x => x.key = key)).map Entities.PersistedGrant.toModel

/-- `string.IsNullOrWhiteSpace(value) || field == value`. -/
def criterion (value field : Option String) : Bool :=
  isNullOrWhiteSpace value || field = value

def validate (filter : Option PersistedGrantFilter) : Except Exception PersistedGrantFilter :=
  match filter with
  | none => .error (.argumentNull "filter")
  | some filter =>
    if isNullOrWhiteSpace filter.clientId && isNullOrWhiteSpace filter.subjectId &&
        isNullOrWhiteSpace filter.type then
      .error (.argument "No filter values set." "filter")
    else .ok filter

def getAllWhere (filter : PersistedGrantFilter) (x : Entities.PersistedGrant) : Bool :=
  criterion filter.subjectId x.subjectId && criterion filter.clientId x.clientId &&
    criterion filter.type x.type

def getAllAsync (filter : Option PersistedGrantFilter) (docs : GrantDocs) :
    Except Exception (List Models.PersistedGrant) :=
  match validate filter with
  | .error e => .error e
  | .ok filter => .ok ((docs.filter (getAllWhere filter)).map Entities.PersistedGrant.toModel)

/-- The collection once the delete of `RemoveAsync` has taken effect. -/
def removeAsync (key : Option String) (docs : GrantDocs) : GrantDocs :=
  remove (fun x => x.key = key) docs

def removeAllWhere (filter : PersistedGrantFilter) (x : Entities.PersistedGrant) : Bool :=
  criterion filter.subjectId x.subjectId && criterion filter.clientId x.clientId &&
    criterion filter.type x.type

/-- The result of `RemoveAllAsync`, and the collection once its delete, if one
was started, has taken effect. -/
def removeAllAsync (filter : Option PersistedGrantFilter) (docs : GrantDocs) :
    Except Exception Unit × GrantDocs :=
  match validate filter with
  | .error e => (.error e, docs)
  | .ok filter => (.ok (), remove (removeAllWhere filter) docs)

/-- `TokenCleanup.RemoveGrantsAsync` under a clock that stands still: the query
for expired grants, and the delete when it found some. -/
def removeGrantsAsync (utcNow : DateTime) (docs : GrantDocs) : GrantDocs :=
  let expired := docs.filter (isExpired utcNow)
  if expired.length > 0 then removeExpired utcNow docs else docs

theorem grantIndexes_not_unique : ∀ index ∈ grantIndexes, index.unique = false := by
  simp [grantIndexes]

theorem removeAllWhere_eq (filter : PersistedGrantFilter) :
    removeAllWhere filter = getAllWhere filter := rfl

theorem validate_error_of_blank {filter : PersistedGrantFilter}
    (hs : isNullOrWhiteSpace filter.subjectId = true)
    (hc : isNullOrWhiteSpace filter.clientId = true) (ht : isNullOrWhiteSpace filter.type = true) :
    validate (some filter) = .error (.argument "No filter values set." "filter") := by
  simp [validate, hs, hc, ht]

theorem validate_ok_iff {filter : PersistedGrantFilter} :
    validate (some filter) = .ok filter ↔
      isNullOrWhiteSpace filter.subjectId = false ∨ isNullOrWhiteSpace filter.clientId = false ∨
        isNullOrWhiteSpace filter.type = false := by
  cases hs : isNullOrWhiteSpace filter.subjectId <;>
    cases hc : isNullOrWhiteSpace filter.clientId <;>
      cases ht : isNullOrWhiteSpace filter.type <;> simp [validate, hs, hc, ht]

theorem getAllAsync_of_valid {filter : PersistedGrantFilter}
    (h : validate (some filter) = .ok filter) (docs : GrantDocs) :
    getAllAsync (some filter) docs =
      .ok ((docs.filter (getAllWhere filter)).map Entities.PersistedGrant.toModel) := by
  simp [getAllAsync, h]

theorem removeAllAsync_of_valid {filter : PersistedGrantFilter}
    (h : validate (some filter) = .ok filter) (docs : GrantDocs) :
    removeAllAsync (some filter) docs = (.ok (), remove (removeAllWhere filter) docs) := by
  simp [removeAllAsync, h]

/-- The gate on the count makes no difference: with nothing expired there is nothing to delete. -/
theorem removeGrantsAsync_eq (utcNow : DateTime) (docs : GrantDocs) :
    removeGrantsAsync utcNow docs = removeExpired utcNow docs := by
  simp only [removeGrantsAsync]
  split
  next => rfl
  next h =>
    have hn : docs.filter (isExpired utcNow) = [] := by
      simpa [List.length_pos_iff] using h
    exact (deleteMany_of_none hn).symm

end IdentityServerMongoDB
