import IdentityServerMongoDB.DotNet

namespace IdentityServerMongoDB

/-- The document kept in the PersistedGrants collection. -/
structure Entities.PersistedGrant where
  key : Option String := none
  type : Option String := none
  subjectId : Option String := none
  clientId : Option String := none
  creationTime : DateTime := 0
  expiration : Option DateTime := none
  data : Option String := none
  deriving DecidableEq

structure Models.PersistedGrant where
  key : Option String := none
  type : Option String := none
  subjectId : Option String := none
  sessionId : Option String := none
  clientId : Option String := none
  description : Option String := none
  creationTime : DateTime := 0
  expiration : Option DateTime := none
  consumedTime : Option DateTime := none
  data : Option String := none
  deriving DecidableEq

structure Models.PersistedGrantFilter where
  subjectId : Option String := none
  sessionId : Option String := none
  clientId : Option String := none
  type : Option String := none
  deriving DecidableEq

/-- Members of equal name are copied, and the others keep their defaults. -/
def Entities.PersistedGrant.toModel (token : Entities.PersistedGrant) : Models.PersistedGrant where
  key := token.key
  type := token.type
  subjectId := token.subjectId
  clientId := token.clientId
  creationTime := token.creationTime
  expiration := token.expiration
  data := token.data

def Models.PersistedGrant.toEntity (token : Models.PersistedGrant) : Entities.PersistedGrant where
  key := token.key
  type := token.type
  subjectId := token.subjectId
  clientId := token.clientId
  creationTime := token.creationTime
  expiration := token.expiration
  data := token.data

@[simp] theorem toEntity_key (token : Models.PersistedGrant) : token.toEntity.key = token.key := rfl

/-- An entity is determined by its model: nothing of a stored document is lost on reading. -/
theorem toEntity_toModel (token : Entities.PersistedGrant) : token.toModel.toEntity = token := rfl

/-- The three members without a counterpart in the entity are what a round trip loses. -/
theorem toModel_toEntity (token : Models.PersistedGrant) :
    token.toEntity.toModel =
      { token with sessionId := none, description := none, consumedTime := none } := rfl

theorem toModel_toEntity_eq_iff {token : Models.PersistedGrant} :
    token.toEntity.toModel = token ↔
      token.sessionId = none ∧ token.description = none ∧ token.consumedTime = none := by
  rw [toModel_toEntity]
  cases token
  simp [eq_comm]

end IdentityServerMongoDB
