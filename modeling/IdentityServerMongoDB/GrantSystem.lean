import IdentityServerMongoDB.GrantCalls
import IdentityServerMongoDB.Transition

namespace IdentityServerMongoDB

open Models (PersistedGrantFilter)

abbrev CallId := Nat

/-- A document of the collection together with the call whose upsert wrote it.
A grant that is stored again is another document here. -/
structure Doc where
  grant : Entities.PersistedGrant
  writer : CallId
  deriving DecidableEq

inductive TaskStatus
  | running
  | completed
  | faulted
  deriving DecidableEq

/-- Where a call stands. An operation of the driver that has been issued is in
flight until its effect or its failure. -/
inductive Pc
  | search (key : Option String) (entity : Entities.PersistedGrant)
  | insert (entity : Entities.PersistedGrant)
  | stored
  | find (key : Option String)
  | findAll (filter : PersistedGrantFilter)
  | deleteMany (filter : Entities.PersistedGrant → Bool)
  | deleted
  | query
  | scan (asked : DateTime)
  | scanned (found : Nat)
  | deleteExpired (built : DateTime)
  | expiredDeleted
  | finished
  | failed

/-- A call, the task its caller holds, and what happened in it so far: the calls
that had completed, or ended in any way, and the documents there were when it was
made, the documents it returned or removed, the one its upsert put its own in the
place of, and when and over what it asked for expired grants. -/
structure CallState where
  call : GrantCall
  pc : Pc
  task : TaskStatus
  after : CallId → Bool
  ended : CallId → Bool
  atCall : List Doc
  returned : List Doc := []
  removed : List Doc := []
  replaced : List Doc := []
  asked : DateTime := 0
  atQuery : List Doc := []

structure GrantState where
  docs : List Doc
  utcNow : DateTime
  calls : CallId → Option CallState

inductive GrantEvent
  | call (i : CallId) (call : GrantCall)
  | throwAtCall (i : CallId) (call : GrantCall)
  | effect (i : CallId)
  | resume (i : CallId)
  | fail (i : CallId)
  | tick (utcNow : DateTime)

/-- What a call does before it first waits for the driver. The two removals do
not wait at all: they start the delete and return a completed task. -/
def GrantCall.start : GrantCall → Pc × TaskStatus
  | .storeAsync token => (.search token.key token.toEntity, .running)
  | .getAsync key => (.find key, .running)
  | .getAllAsync filter =>
    match validate filter with
    | .error _ => (.finished, .faulted)
    | .ok filter => (.findAll filter, .running)
  | .removeAsync key => (.deleteMany (fun x => x.key = key), .completed)
  | .removeAllAsync filter =>
    match validate filter with
    | .error _ => (.finished, .faulted)
    | .ok filter => (.deleteMany (removeAllWhere filter), .completed)
  | .removeExpiredGrantsAsync => (.query, .running)

/-- The driver throws before it returns a task. Only the cleanup pass catches. -/
def GrantCall.thrown : GrantCall → Pc × TaskStatus
  | .removeExpiredGrantsAsync => (.failed, .completed)
  | _ => (.failed, .faulted)

/-- The next effect on the database of the operation a call has in flight. -/
def CallState.effect (i : CallId) (docs : List Doc) (c : CallState) :
    Option (CallState × List Doc) :=
  match c.pc with
  | .search key entity =>
    if docs.any (fun d => d.grant.key = key) then
      some ({ c with
        pc := .stored
        replaced := (docs.find? (fun d => d.grant.key = key)).toList },
        replaceFirst (fun d => d.grant.key = key) ⟨entity, i⟩ docs)
    else some ({ c with pc := .insert entity }, docs)
  | .insert entity =>
    match insertOne (grantIndexes.map (Index.comap Doc.grant)) ⟨entity, i⟩ docs with
    | none => some ({ c with pc := .failed, task := .faulted }, docs)
    | some docs => some ({ c with pc := .stored }, docs)
  | .find key =>
    some ({ c with
      pc := .finished
      task := .completed
      returned := (docs.find? (fun d => d.grant.key = key)).toList }, docs)
  | .findAll filter =>
    some ({ c with
      pc := .finished
      task := .completed
      returned := docs.filter (fun d => getAllWhere filter d.grant) }, docs)
  | .deleteMany filter =>
    some ({ c with pc := .deleted, removed := docs.filter (fun d => filter d.grant) },
      deleteMany (fun d => filter d.grant) docs)
  | .scan asked =>
    some ({ c with
      pc := .scanned (docs.filter (fun d => isExpired asked d.grant)).length
      atQuery := docs }, docs)
  | .deleteExpired built =>
    some ({ c with
      pc := .expiredDeleted
      removed := docs.filter (fun d => isExpired built d.grant) },
      deleteMany (fun d => isExpired built d.grant) docs)
  | _ => none

/-- The code of a call goes on: behind an `await`, or from one statement to the
next with the clock read where the source reads it. -/
def CallState.resume (utcNow : DateTime) (c : CallState) : Option CallState :=
  match c.pc with
  | .stored => some { c with pc := .finished, task := .completed }
  | .query => some { c with pc := .scan utcNow, asked := utcNow }
  | .scanned found =>
    if found > 0 then some { c with pc := .deleteExpired utcNow }
    else some { c with pc := .finished, task := .completed }
  | .expiredDeleted => some { c with pc := .finished, task := .completed }
  | _ => none

/-- The operation in flight fails without effect. `StoreAsync` rethrows, the
cleanup pass logs, and of a removal nobody is told. -/
def CallState.fail (c : CallState) : Option CallState :=
  match c.pc with
  | .search _ _ | .insert _ | .find _ | .findAll _ => some { c with pc := .failed, task := .faulted }
  | .deleteMany _ => some { c with pc := .failed }
  | .scan _ | .deleteExpired _ => some { c with pc := .failed, task := .completed }
  | _ => none

def GrantState.completed (s : GrantState) (i : CallId) : Bool :=
  match s.calls i with
  | none => false
  | some c => c.task = .completed

/-- The caller of the call waits no longer, whether its task completed or faulted. -/
def GrantState.ended (s : GrantState) (i : CallId) : Bool :=
  match s.calls i with
  | none => false
  | some c => c.task ≠ .running

def GrantState.newCall (s : GrantState) (call : GrantCall) (entry : Pc × TaskStatus) : CallState where
  call := call
  pc := entry.1
  task := entry.2
  after := s.completed
  ended := s.ended
  atCall := s.docs

def GrantState.set (s : GrantState) (i : CallId) (c : CallState) (docs : List Doc) : GrantState :=
  { s with docs := docs, calls := Function.update s.calls i (some c) }

def grantStep (s : GrantState) : GrantEvent → Option GrantState
  | .call i call =>
    match s.calls i with
    | some _ => none
    | none => some (s.set i (s.newCall call call.start) s.docs)
  | .throwAtCall i call =>
    match s.calls i with
    | some _ => none
    | none => some (s.set i (s.newCall call call.thrown) s.docs)
  | .effect i => do
    let c ← s.calls i
    let (c, docs) ← c.effect i s.docs
    some (s.set i c docs)
  | .resume i => do
    let c ← s.calls i
    let c ← c.resume s.utcNow
    some (s.set i c s.docs)
  | .fail i => do
    let c ← s.calls i
    let c ← c.fail
    some (s.set i c s.docs)
  | .tick utcNow => if s.utcNow ≤ utcNow then some { s with utcNow := utcNow } else none

/-- An empty collection and no calls yet. -/
def grantInit : GrantState where
  docs := []
  utcNow := 0
  calls := fun _ => none

abbrev GrantReach (guard : GrantState → GrantEvent → Prop) : GrantState → Prop :=
  Reach grantStep guard grantInit

end IdentityServerMongoDB
