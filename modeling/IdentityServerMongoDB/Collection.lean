import Mathlib.Data.List.Nodup
import Mathlib.Data.List.Pairwise
import Mathlib.Logic.Function.Basic

namespace IdentityServerMongoDB

/-- An index of a collection. A document has several entries in it where the
indexed field is an array. -/
structure Index (α κ : Type) where
  entries : α → List κ
  background : Bool := false
  unique : Bool := false

def Index.comap {α β κ : Type} (f : β → α) (index : Index α κ) : Index β κ where
  entries := fun x => index.entries (f x)
  background := index.background
  unique := index.unique

def Index.rejects {α κ : Type} [DecidableEq κ] (index : Index α κ) (docs : List α) (d : α) : Bool :=
  index.unique && docs.any (fun x => (index.entries x).any (fun e => decide (e ∈ index.entries d)))

/-- Inserting fails exactly when some unique index already has an entry of the document. -/
def insertOne {α κ : Type} [DecidableEq κ] (indexes : List (Index α κ)) (d : α) (docs : List α) :
    Option (List α) :=
  if indexes.any (fun index => index.rejects docs d) then none else some (docs ++ [d])

def deleteMany {α : Type} (filter : α → Bool) (docs : List α) : List α :=
  docs.filter (fun d => !filter d)

def replaceFirst {α : Type} (filter : α → Bool) (d : α) : List α → List α
  | [] => []
  | x :: xs => if filter x then d :: xs else x :: replaceFirst filter d xs

/-- `ReplaceOne` as an upsert: the first match is replaced, and where there is
none the document is added. -/
def replaceOne {α : Type} (filter : α → Bool) (d : α) (docs : List α) : List α :=
  if docs.any filter then replaceFirst filter d docs else docs ++ [d]

theorem insertOne_of_no_unique {α κ : Type} [DecidableEq κ] {indexes : List (Index α κ)}
    (h : ∀ index ∈ indexes, index.unique = false) (d : α) (docs : List α) :
    insertOne indexes d docs = some (docs ++ [d]) := by
  have hr : indexes.any (fun index => index.rejects docs d) = false := by
    apply List.any_eq_false.mpr
    intro index hi
    simp [Index.rejects, h index hi]
  simp [insertOne, hr]

/-- A document whose match is not there yet is the one found when it was added. -/
theorem find?_append_of_absent {α : Type} {p : α → Bool} {docs : List α} {d : α}
    (h : ∀ x ∈ docs, p x = false) (hd : p d = true) : (docs ++ [d]).find? p = some d := by
  have hn : docs.find? p = none := by
    apply List.find?_eq_none.mpr
    intro x hx
    simp [h x hx]
  simp [List.find?_append, hn, hd]

theorem filter_append_of_absent {α : Type} {p : α → Bool} {docs : List α} {d : α}
    (h : ∀ x ∈ docs, p x = false) (hd : p d = true) : (docs ++ [d]).filter p = [d] := by
  have hn : docs.filter p = [] := by
    apply List.filter_eq_nil_iff.mpr
    intro x hx
    simp [h x hx]
  simp [List.filter_append, hn, hd]

theorem mem_deleteMany {α : Type} {filter : α → Bool} {docs : List α} {d : α} :
    d ∈ deleteMany filter docs ↔ d ∈ docs ∧ filter d = false := by
  simp [deleteMany]

theorem deleteMany_of_none {α : Type} {filter : α → Bool} {docs : List α}
    (h : docs.filter filter = []) : deleteMany filter docs = docs := by
  apply List.filter_eq_self.mpr
  intro d hd
  have hnot := List.filter_eq_nil_iff.mp h d hd
  simpa using hnot

theorem mem_of_mem_replaceFirst {α : Type} {filter : α → Bool} {d x : α} {docs : List α}
    (h : x ∈ replaceFirst filter d docs) : x = d ∨ x ∈ docs := by
  induction docs with
  | nil => simp [replaceFirst] at h
  | cons y ys ih =>
    unfold replaceFirst at h
    split at h
    next =>
      rcases List.mem_cons.mp h with he | he
      · exact Or.inl he
      · exact Or.inr (List.mem_cons_of_mem y he)
    next =>
      rcases List.mem_cons.mp h with he | he
      · exact Or.inr (by simp [he])
      · exact (ih he).imp_right (List.mem_cons_of_mem y)

/-- A replacement takes away the first match and nothing else. -/
theorem mem_replaceFirst_or {α : Type} {filter : α → Bool} {d x : α} {docs : List α}
    (hx : x ∈ docs) : x ∈ replaceFirst filter d docs ∨ docs.find? filter = some x := by
  induction docs with
  | nil => cases hx
  | cons y ys ih =>
    unfold replaceFirst
    split
    next hy =>
      rcases List.mem_cons.mp hx with rfl | htail
      · exact Or.inr (List.find?_cons_of_pos hy)
      · exact Or.inl (List.mem_cons_of_mem _ htail)
    next hy =>
      rcases List.mem_cons.mp hx with rfl | htail
      · exact Or.inl List.mem_cons_self
      · rw [List.find?_cons_of_neg hy]
        exact (ih htail).imp_left (List.mem_cons_of_mem y)

theorem mem_replaceFirst_self {α : Type} {filter : α → Bool} {d : α} {docs : List α}
    (h : docs.any filter = true) : d ∈ replaceFirst filter d docs := by
  induction docs with
  | nil => simp at h
  | cons y ys ih =>
    unfold replaceFirst
    split
    next => exact List.mem_cons_self
    next hy =>
      have htail : ys.any filter = true := by simpa [hy] using h
      exact List.mem_cons_of_mem y (ih htail)

theorem nodup_replaceFirst {α : Type} {filter : α → Bool} {d : α} {docs : List α}
    (hn : docs.Nodup) (hd : d ∉ docs) : (replaceFirst filter d docs).Nodup := by
  induction docs with
  | nil => exact List.nodup_nil
  | cons y ys ih =>
    obtain ⟨hy, hys⟩ := List.nodup_cons.mp hn
    have hdys : d ∉ ys := fun h => hd (List.mem_cons_of_mem y h)
    unfold replaceFirst
    split
    next => exact List.nodup_cons.mpr ⟨hdys, hys⟩
    next =>
      refine List.nodup_cons.mpr ⟨?_, ih hys hdys⟩
      intro hmem
      rcases mem_of_mem_replaceFirst hmem with rfl | hold
      · exact hd List.mem_cons_self
      · exact hy hold

/-- Where every document is there once, the match that was replaced is there no more. -/
theorem not_mem_replaceFirst {α : Type} {filter : α → Bool} {d x : α} {docs : List α}
    (hn : docs.Nodup) (hx : docs.find? filter = some x) (hne : x ≠ d) :
    x ∉ replaceFirst filter d docs := by
  induction docs with
  | nil => cases hx
  | cons y ys ih =>
    obtain ⟨hy, hys⟩ := List.nodup_cons.mp hn
    unfold replaceFirst
    split
    next hf =>
      rw [List.find?_cons_of_pos hf] at hx
      cases Option.some.inj hx
      exact fun hmem => (List.mem_cons.mp hmem).elim hne hy
    next hf =>
      rw [List.find?_cons_of_neg hf] at hx
      intro hmem
      rcases List.mem_cons.mp hmem with rfl | htail
      · exact hy (List.mem_of_find?_eq_some hx)
      · exact ih hys hx htail

/-- A first-match read under the filter that was written through finds the document written. -/
theorem find?_replaceOne_self {α : Type} {filter : α → Bool} {d : α} (hd : filter d = true)
    (docs : List α) : (replaceOne filter d docs).find? filter = some d := by
  unfold replaceOne
  split
  next h =>
    induction docs with
    | nil => simp at h
    | cons x xs ih =>
      by_cases hx : filter x = true
      · simp [replaceFirst, hx, hd]
      · have ht : xs.any filter = true := by simpa [hx] using h
        simp [replaceFirst, hx, ih ht]
  next h =>
    have hn : docs.find? filter = none := by
      apply List.find?_eq_none.mpr
      intro x hx hf
      exact h (List.any_eq_true.mpr ⟨x, hx, hf⟩)
    simp [List.find?_append, hn, hd]

theorem filter_replaceFirst_of_disjoint {α : Type} {filter other : α → Bool} {d : α}
    (hd : other d = false) (h : ∀ x, filter x = true → other x = false) (docs : List α) :
    (replaceFirst filter d docs).filter other = docs.filter other := by
  induction docs with
  | nil => rfl
  | cons x xs ih =>
    unfold replaceFirst
    split
    next hx => simp [hd, h x hx]
    next => simp only [List.filter_cons, ih]

/-- A read whose filter has nothing in common with the one written through is unaffected. -/
theorem filter_replaceOne_of_disjoint {α : Type} {filter other : α → Bool} {d : α}
    (hd : other d = false) (h : ∀ x, filter x = true → other x = false) (docs : List α) :
    (replaceOne filter d docs).filter other = docs.filter other := by
  unfold replaceOne
  split
  next => exact filter_replaceFirst_of_disjoint hd h docs
  next => simp [hd]

theorem filter_replaceFirst_of_within {α : Type} {filter other : α → Bool} {d : α}
    (hd : other d = true) (h : ∀ x, filter x = true → other x = true) (docs : List α) :
    (replaceFirst filter d docs).filter other = replaceFirst filter d (docs.filter other) := by
  induction docs with
  | nil => rfl
  | cons x xs ih =>
    by_cases hx : filter x = true
    · simp [replaceFirst, hx, hd, h x hx]
    · by_cases hother : other x = true
      · simp [replaceFirst, hx, hother, ih]
      · simp [replaceFirst, hx, hother, ih]

/-- An upsert of a document that a read sees, along with all it can replace, is seen as
an upsert of what the read saw. -/
theorem filter_replaceOne_of_within {α : Type} {filter other : α → Bool} {d : α}
    (hd : other d = true) (h : ∀ x, filter x = true → other x = true) (docs : List α) :
    (replaceOne filter d docs).filter other = replaceOne filter d (docs.filter other) := by
  have hany : (docs.filter other).any filter = docs.any filter := by
    rw [List.any_filter]
    congr 1
    funext x
    cases hx : filter x with
    | false => exact Bool.and_false _
    | true => simp [h x hx]
  unfold replaceOne
  rw [hany]
  split
  next => exact filter_replaceFirst_of_within hd h docs
  next => simp [hd]

theorem replaceOne_map {α β : Type} (f : α → β) (filter : β → Bool) (d : α) (docs : List α) :
    replaceOne filter (f d) (docs.map f) = (replaceOne (fun x => filter (f x)) d docs).map f := by
  have hr : replaceFirst filter (f d) (docs.map f) =
      (replaceFirst (fun x => filter (f x)) d docs).map f := by
    induction docs with
    | nil => rfl
    | cons x xs ih =>
      simp only [List.map_cons, replaceFirst]
      split
      next => rfl
      next => simp [ih]
  have ha : (docs.map f).any filter = docs.any (fun x => filter (f x)) := by
    simp [List.any_map, Function.comp_def]
  unfold replaceOne
  rw [ha]
  split
  next => exact hr
  next => simp

theorem deleteMany_map {α β : Type} (f : α → β) (filter : β → Bool) (docs : List α) :
    deleteMany filter (docs.map f) = (deleteMany (fun x => filter (f x)) docs).map f := by
  simp [deleteMany, List.filter_map, Function.comp_def]

end IdentityServerMongoDB
