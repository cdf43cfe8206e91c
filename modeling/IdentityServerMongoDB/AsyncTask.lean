import IdentityServerMongoDB.DotNet

namespace IdentityServerMongoDB

/-- A task, as it ends. -/
inductive AsyncTask (α : Type)
  | completed (result : α)
  | faulted (ex : Exception)

/-- What calling a method gives that returns a task: the task, or an exception
that is thrown before there is one. -/
inductive Invocation (α : Type)
  | thrown (ex : Exception)
  | returned (task : AsyncTask α)

namespace Invocation

/-- Whoever calls the method and awaits its task comes upon an exception. -/
def Fails {α : Type} : Invocation α → Prop
  | .thrown _ => True
  | .returned (.faulted _) => True
  | .returned (.completed _) => False

/-- `await` on the call. -/
def await {α : Type} : Invocation α → Except Exception α
  | .thrown ex => .error ex
  | .returned (.faulted ex) => .error ex
  | .returned (.completed result) => .ok result

/-- An `async` method: what its body throws goes into its task. -/
def async {α : Type} : Except Exception α → Invocation α
  | .ok result => .returned (.completed result)
  | .error ex => .returned (.faulted ex)

/-- A call whose task nobody keeps, followed by `Task.FromResult(0)`. -/
def dropped {α : Type} : Invocation α → Invocation Unit
  | .thrown ex => .thrown ex
  | .returned _ => .returned (.completed ())

/-- An exception was thrown and no task was returned. -/
def Throws {α : Type} : Invocation α → Prop
  | .thrown _ => True
  | .returned _ => False

/-- An awaited failure comes through, at whichever of the two times it came about. -/
theorem fails_async_await {α : Type} {i : Invocation α} : (async i.await).Fails ↔ i.Fails := by
  cases i with
  | thrown ex => exact Iff.rfl
  | returned task =>
    cases task with
    | completed result => exact Iff.rfl
    | faulted ex => exact Iff.rfl

theorem fails_dropped {α : Type} {i : Invocation α} : i.dropped.Fails ↔ i.Throws := by
  cases i with
  | thrown ex => exact Iff.rfl
  | returned task => exact Iff.rfl

end Invocation

end IdentityServerMongoDB
