import IdentityServerMongoDB.KeyedCollection
import Mathlib.Data.Set.Finite.Basic

namespace IdentityServerMongoDB

/-- A map defined on finitely many keys. -/
structure FiniteMap (κ α : Type) where
  get : κ → Option α
  finite : {k | get k ≠ none}.Finite

namespace FiniteMap

variable {κ α : Type}

theorem ext {m n : FiniteMap κ α} (h : ∀ k, m.get k = n.get k) : m = n := by
  cases m
  cases n
  have he := funext h
  simp only at he
  subst he
  rfl

def empty : FiniteMap κ α where
  get := fun _ => none
  finite := by simp

def store [DecidableEq κ] (m : FiniteMap κ α) (k : κ) (x : α) : FiniteMap κ α where
  get := Function.update m.get k (some x)
  finite := by
    apply (m.finite.insert k).subset
    intro j hj
    by_cases he : j = k
    · exact Or.inl he
    · exact Or.inr (by simpa [Function.update_of_ne he] using hj)

def erase [DecidableEq κ] (m : FiniteMap κ α) (k : κ) : FiniteMap κ α where
  get := Function.update m.get k none
  finite := by
    apply m.finite.subset
    intro j hj
    by_cases he : j = k
    · simp [he] at hj
    · simpa [Function.update_of_ne he] using hj

/-- Keeps the entries a predicate accepts. -/
def restrict (m : FiniteMap κ α) (p : α → Bool) : FiniteMap κ α where
  get := fun k => (m.get k).filter p
  finite := by
    apply m.finite.subset
    intro j hj hn
    exact hj (by simp [hn])

def entries (m : FiniteMap κ α) : Set α :=
  {x | ∃ k, m.get k = some x}

theorem store_get_self [DecidableEq κ] (m : FiniteMap κ α) (k : κ) (x : α) :
    (m.store k x).get k = some x := Function.update_self ..

theorem store_get_other [DecidableEq κ] (m : FiniteMap κ α) {j k : κ} (h : j ≠ k) (x : α) :
    (m.store k x).get j = m.get j := Function.update_of_ne h ..

theorem erase_get_self [DecidableEq κ] (m : FiniteMap κ α) (k : κ) :
    (m.erase k).get k = none := Function.update_self ..

theorem erase_get_other [DecidableEq κ] (m : FiniteMap κ α) {j k : κ} (h : j ≠ k) :
    (m.erase k).get j = m.get j := Function.update_of_ne h ..

theorem restrict_get (m : FiniteMap κ α) (p : α → Bool) (k : κ) :
    (m.restrict p).get k = (m.get k).filter p := rfl

theorem restrict_get_some {m : FiniteMap κ α} {p : α → Bool} {k : κ} {x : α} :
    (m.restrict p).get k = some x ↔ m.get k = some x ∧ p x = true := by
  simp [restrict_get]

/-- A map whose entries carry their own key. -/
def Keyed (key : α → κ) (m : FiniteMap κ α) : Prop :=
  ∀ k x, m.get k = some x → key x = k

theorem Keyed.empty (key : α → κ) : Keyed key FiniteMap.empty := by
  intro k x h
  simp [FiniteMap.empty] at h

theorem Keyed.store [DecidableEq κ] {key : α → κ} {m : FiniteMap κ α} (h : m.Keyed key) (x : α) :
    (m.store (key x) x).Keyed key := by
  intro k y hy
  by_cases hk : k = key x
  · subst k
    rw [store_get_self] at hy
    cases Option.some.inj hy
    rfl
  · rw [store_get_other m hk] at hy
    exact h k y hy

theorem Keyed.restrict {key : α → κ} {m : FiniteMap κ α} (h : m.Keyed key) (p : α → Bool) :
    (m.restrict p).Keyed key := by
  intro k x hx
  exact h k x (restrict_get_some.mp hx).1

/-- In a keyed map, erasing a key is keeping the entries of every other key. -/
theorem Keyed.erase_eq_restrict [DecidableEq κ] {key : α → κ} {m : FiniteMap κ α}
    (h : m.Keyed key) (k : κ) : m.erase k = m.restrict (fun x => !decide (key x = k)) := by
  apply ext
  intro j
  rw [restrict_get]
  by_cases hjk : j = k
  · subst j
    rw [erase_get_self]
    cases hk : m.get k with
    | none => rfl
    | some x => simp [Option.filter, h k x hk]
  · rw [erase_get_other m hjk]
    cases hj : m.get j with
    | none => rfl
    | some x => simp [Option.filter, h j x hj, hjk]

end FiniteMap

/-- A collection with unique keys stands for a keyed map, entry by entry, where
`f` is what the collection keeps of an entry. -/
structure Represents {κ α β : Type} [DecidableEq κ] (key : β → κ) (f : α → β) (docs : List β)
    (m : FiniteMap κ α) : Prop where
  unique : KeysUnique key docs
  keyed : m.Keyed (fun x => key (f x))
  agree : ∀ k, lookup key docs k = (m.get k).map f

namespace Represents

variable {κ α β : Type} [DecidableEq κ] {key : β → κ} {f : α → β} {docs : List β}
  {m : FiniteMap κ α}

theorem empty (key : β → κ) (f : α → β) : Represents key f [] FiniteMap.empty :=
  ⟨List.nodup_nil, FiniteMap.Keyed.empty _, fun _ => rfl⟩

theorem replaceOne (h : Represents key f docs m) {k : κ} {x : α} (hk : key (f x) = k) :
    Represents key f (replaceOne (fun d => key d = k) (f x) docs) (m.store k x) := by
  subst hk
  refine ⟨keysUnique_replaceOne h.unique rfl, h.keyed.store x, ?_⟩
  intro k
  rw [lookup_replaceOne rfl]
  by_cases he : k = key (f x)
  · subst k
    rw [Function.update_self, FiniteMap.store_get_self]
    rfl
  · rw [Function.update_of_ne he, FiniteMap.store_get_other m he]
    exact h.agree k

theorem deleteMany (h : Represents key f docs m) {filter : β → Bool} {p : α → Bool}
    (hp : ∀ x ∈ m.entries, p x = !filter (f x)) :
    Represents key f (deleteMany filter docs) (m.restrict p) := by
  refine ⟨keysUnique_deleteMany h.unique filter, h.keyed.restrict p, ?_⟩
  intro k
  rw [lookup_deleteMany h.unique, h.agree k, FiniteMap.restrict_get]
  cases hk : m.get k with
  | none => rfl
  | some x =>
    have hx := hp x ⟨k, hk⟩
    cases hf : filter (f x) <;> simp [Option.filter, hx, hf]

theorem mem_iff (h : Represents key f docs m) {d : β} : d ∈ docs ↔ ∃ x ∈ m.entries, f x = d := by
  rw [mem_iff_lookup h.unique, h.agree]
  constructor
  · intro hd
    obtain ⟨x, hx, he⟩ := Option.map_eq_some_iff.mp hd
    exact ⟨x, ⟨_, hx⟩, he⟩
  · rintro ⟨x, ⟨k, hk⟩, rfl⟩
    have hkx : key (f x) = k := h.keyed k x hk
    rw [hkx, hk]
    rfl

end Represents

end IdentityServerMongoDB
