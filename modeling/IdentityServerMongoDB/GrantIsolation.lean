import IdentityServerMongoDB.GrantCalls

namespace IdentityServerMongoDB

/-- The call can read or write a grant whose key is one of a group. -/
def GrantCall.concerns (keys : Option String → Bool) : GrantCall → Bool
  | .storeAsync token => keys token.key
  | .getAsync key | .removeAsync key => keys key
  | .getAllAsync _ | .removeAllAsync _ | .removeExpiredGrantsAsync => true

/-- What a result says of grants with keys of the group. -/
def GrantResult.about (keys : Option String → Bool) : GrantResult → GrantResult
  | .grants models => .grants (models.filter (fun g => keys g.key))
  | result => result

def within (keys : Option String → Bool) (docs : GrantDocs) : GrantDocs :=
  docs.filter (fun x => keys x.key)

section Isolation

variable {keys : Option String → Bool}

theorem within_remove (filter : Entities.PersistedGrant → Bool) (docs : GrantDocs) :
    within keys (remove filter docs) = remove filter (within keys docs) := by
  unfold within remove deleteMany
  rw [List.filter_filter, List.filter_filter]
  congr 1
  funext x
  exact Bool.and_comm _ _

theorem getAsync_within {key : Option String} (h : keys key = true) (docs : GrantDocs) :
    getAsync key (within keys docs) = getAsync key docs := by
  have hfind : (within keys docs).find? (fun x => x.key = key) =
      docs.find? (fun x => x.key = key) := by
    unfold within
    rw [List.find?_filter]
    congr 1
    funext x
    by_cases hx : x.key = key
    · simp [hx, h]
    · simp [hx]
  unfold getAsync
  rw [hfind]

theorem getAllAsync_within {filter : Models.PersistedGrantFilter} (docs : GrantDocs) :
    ((within keys docs).filter (getAllWhere filter)).map Entities.PersistedGrant.toModel =
      ((docs.filter (getAllWhere filter)).map Entities.PersistedGrant.toModel).filter
        (fun g => keys g.key) := by
  unfold within
  rw [List.filter_map, List.filter_filter, List.filter_filter]
  congr 2
  funext x
  exact Bool.and_comm _ _

/-- A call that concerns the group does to its grants what it does among all of them. -/
theorem exec_within {call : GrantCall} (h : call.concerns keys = true) (utcNow : DateTime)
    (docs : GrantDocs) :
    call.exec utcNow (within keys docs) =
      ((call.exec utcNow docs).1.about keys, within keys (call.exec utcNow docs).2) := by
  cases call with
  | storeAsync token =>
    have hdocs : within keys (storeAsync token docs) = storeAsync token (within keys docs) := by
      apply filter_replaceOne_of_within
      · exact h
      · intro x hx
        have hkey : x.key = token.key := by simpa using hx
        rw [hkey]
        exact h
    simp only [GrantCall.exec, hdocs, GrantResult.about]
  | getAsync key => simp only [GrantCall.exec, getAsync_within h, GrantResult.about]
  | getAllAsync filter =>
    cases hv : validate filter with
    | error e => simp only [GrantCall.exec, getAllAsync, hv, GrantResult.about]
    | ok f => simp only [GrantCall.exec, getAllAsync, hv, GrantResult.about, getAllAsync_within]
  | removeAsync key => simp only [GrantCall.exec, removeAsync, within_remove, GrantResult.about]
  | removeAllAsync filter =>
    cases hv : validate filter with
    | error e => simp only [GrantCall.exec, removeAllAsync, hv, GrantResult.about]
    | ok f => simp only [GrantCall.exec, removeAllAsync, hv, GrantResult.about, within_remove]
  | removeExpiredGrantsAsync =>
    simp only [GrantCall.exec, removeGrantsAsync_eq, removeExpired, within_remove,
      GrantResult.about]

/-- Any other call leaves the grants of the group alone. -/
theorem within_exec {call : GrantCall} (h : call.concerns keys = false) (utcNow : DateTime)
    (docs : GrantDocs) : within keys (call.exec utcNow docs).2 = within keys docs := by
  cases call with
  | storeAsync token =>
    apply filter_replaceOne_of_disjoint
    · exact h
    · intro x hx
      have hkey : x.key = token.key := by simpa using hx
      rw [hkey]
      exact h
  | getAsync key => rfl
  | removeAsync key =>
    change within keys (remove (fun x => x.key = key) docs) = _
    unfold within remove deleteMany
    rw [List.filter_filter]
    congr 1
    funext x
    by_cases hx : x.key = key
    · have hkey : keys x.key = false := by
        rw [hx]
        exact h
      simp [hkey]
    · simp [hx]
  | getAllAsync filter => cases h
  | removeAllAsync filter => cases h
  | removeExpiredGrantsAsync => cases h

/-- The grants of a group of keys live by themselves: without the calls on other keys, and
without the grants of other keys, every other call returns the same of the group
and the same of it is left. -/
theorem keys_isolated (keys : Option String → Bool) (calls : List (GrantCall × DateTime))
    (docs : GrantDocs) :
    execAll (calls.filter (fun c => c.1.concerns keys)) (within keys docs) =
      (((calls.zip (execAll calls docs).1).filter (fun a => a.1.1.concerns keys)).map
        (fun a => a.2.about keys), within keys (execAll calls docs).2) := by
  induction calls generalizing docs with
  | nil => rfl
  | cons entry calls ih =>
    obtain ⟨call, utcNow⟩ := entry
    have hrest := ih (call.exec utcNow docs).2
    rw [execAll_cons, List.zip_cons_cons, List.filter_cons, List.filter_cons]
    cases h : call.concerns keys with
    | true =>
      simp only [if_true]
      rw [execAll_cons, exec_within h, hrest]
      rfl
    | false =>
      rw [within_exec h] at hrest
      simpa using hrest

end Isolation

end IdentityServerMongoDB
