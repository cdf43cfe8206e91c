import IdentityServerMongoDB.DotNet

namespace IdentityServerMongoDB

/-- What going through an `IEnumerable` gives: its elements in turn, and behind
them the end or an exception. -/
inductive Enumeration (α : Type)
  | done
  | thrown (ex : Exception)
  | yield (current : α) (rest : Enumeration α)

namespace Enumeration

def prepend {α : Type} (xs : List α) (rest : Enumeration α) : Enumeration α :=
  xs.foldr yield rest

/-- `SelectMany(o => o)`: a null sequence throws when the enumeration comes to it. -/
def selectMany {α : Type} : List (Option (List α)) → Enumeration α
  | [] => .done
  | none :: _ => .thrown .nullReference
  | some xs :: rest => prepend xs (selectMany rest)

/-- `Where`. -/
def filter {α : Type} (predicate : α → Bool) : Enumeration α → Enumeration α
  | .done => .done
  | .thrown ex => .thrown ex
  | .yield x rest => if predicate x then .yield x (rest.filter predicate) else rest.filter predicate

/-- `Distinct`, once it has given out the elements of `seen`. -/
def distinctFrom {α : Type} [DecidableEq α] (seen : List α) : Enumeration α → Enumeration α
  | .done => .done
  | .thrown ex => .thrown ex
  | .yield x rest =>
    if x ∈ seen then rest.distinctFrom seen else .yield x (rest.distinctFrom (x :: seen))

def distinct {α : Type} [DecidableEq α] (source : Enumeration α) : Enumeration α :=
  source.distinctFrom []

/-- `Contains` goes no further than the first element that equals the value. -/
def contains {α : Type} (equals : α → α → Bool) (value : α) :
    Enumeration α → Except Exception Bool
  | .done => .ok false
  | .thrown ex => .error ex
  | .yield x rest => if equals x value then .ok true else rest.contains equals value

section Contains

variable {α : Type} {equals : α → α → Bool} {value : α}

theorem contains_prepend_of_mem {xs : List α} {x : α} (hx : x ∈ xs) (he : equals x value = true)
    (rest : Enumeration α) : (prepend xs rest).contains equals value = .ok true := by
  induction xs with
  | nil => simp at hx
  | cons y ys ih =>
    change (if equals y value then .ok true else (prepend ys rest).contains equals value) = _
    split
    next => rfl
    next hy =>
      rcases List.mem_cons.mp hx with rfl | hx
      · exact absurd he hy
      · exact ih hx

theorem contains_prepend_of_absent {xs : List α} (h : ∀ x ∈ xs, equals x value = false)
    (rest : Enumeration α) :
    (prepend xs rest).contains equals value = rest.contains equals value := by
  induction xs with
  | nil => rfl
  | cons y ys ih =>
    change (if equals y value then .ok true else (prepend ys rest).contains equals value) = _
    have hy := h y (by simp)
    rw [hy]
    exact ih (fun x hx => h x (List.mem_cons_of_mem y hx))

theorem contains_filter (predicate : α → Bool) (source : Enumeration α) :
    (source.filter predicate).contains equals value =
      source.contains (fun x v => predicate x && equals x v) value := by
  induction source with
  | done => rfl
  | thrown ex => rfl
  | yield x rest ih =>
    by_cases hp : predicate x = true
    · simp only [filter, contains, hp, if_true, Bool.true_and, ih]
    · have hf : predicate x = false := by simpa using hp
      simp only [filter, contains, hf, Bool.false_and, Bool.false_eq_true, if_false, ih]

theorem contains_distinctFrom [DecidableEq α] {seen : List α}
    (h : ∀ x ∈ seen, equals x value = false) (source : Enumeration α) :
    (source.distinctFrom seen).contains equals value = source.contains equals value := by
  induction source generalizing seen with
  | done => rfl
  | thrown ex => rfl
  | yield x rest ih =>
    by_cases hx : x ∈ seen
    · have he := h x hx
      simp only [distinctFrom, contains, hx, if_true, he]
      exact ih h
    · simp only [distinctFrom, contains, hx, if_false]
      by_cases he : equals x value = true
      · rw [if_pos he, if_pos he]
      · rw [if_neg he, if_neg he]
        apply ih
        intro y hy
        rcases List.mem_cons.mp hy with rfl | hy
        · simpa using he
        · exact h y hy

/-- What was given out before did not equal the value, or nothing would be asked
for any more. So `Distinct` makes no difference, whatever equality it goes by. -/
theorem contains_distinct [DecidableEq α] (source : Enumeration α) :
    source.distinct.contains equals value = source.contains equals value :=
  contains_distinctFrom (by simp) source

end Contains

end Enumeration

end IdentityServerMongoDB
