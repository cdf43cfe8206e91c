import IdentityServerMongoDB.Collection
import Mathlib.Logic.Function.Basic

namespace IdentityServerMongoDB

def KeysUnique {α κ : Type} (key : α → κ) (docs : List α) : Prop :=
  (docs.map key).Nodup

/-- The partial map a collection stands for when it is read by key, first match first. -/
def lookup {α κ : Type} [DecidableEq κ] (key : α → κ) (docs : List α) (k : κ) : Option α :=
  docs.find? (fun d => key d = k)

theorem keysUnique_deleteMany {α κ : Type} {key : α → κ} {docs : List α}
    (hu : KeysUnique key docs) (filter : α → Bool) :
    KeysUnique key (deleteMany filter docs) :=
  hu.sublist (List.filter_sublist.map key)

theorem keysUnique_append {α κ : Type} {key : α → κ} {docs : List α}
    (hu : KeysUnique key docs) {d : α} (hd : ∀ x ∈ docs, key x ≠ key d) :
    KeysUnique key (docs ++ [d]) := by
  unfold KeysUnique
  rw [List.map_append]
  apply List.nodup_append.mpr
  refine ⟨hu, by simp, ?_⟩
  intro a ha b hb
  obtain ⟨x, hx, rfl⟩ := List.mem_map.mp ha
  have he : b = key d := by simpa using hb
  subst b
  exact hd x hx

theorem keysUnique_perm {α κ : Type} {key : α → κ} {docs docs' : List α}
    (hp : docs.Perm docs') (hu : KeysUnique key docs) : KeysUnique key docs' :=
  (hp.map key).nodup_iff.mp hu

theorem nodup_map_comp {α κ β : Type} {f : κ → β} (hf : f.Injective) (key : α → κ)
    (docs : List α) : (docs.map (fun x => f (key x))).Nodup ↔ KeysUnique key docs := by
  have hmap : docs.map (fun x => f (key x)) = (docs.map key).map f := by
    simp only [List.map_map, Function.comp_def]
  rw [hmap]
  exact List.nodup_map_iff hf

section Keyed

variable {α κ : Type} [DecidableEq κ] {key : α → κ} {docs : List α}

theorem lookup_some {k : κ} {d : α} (h : lookup key docs k = some d) : d ∈ docs ∧ key d = k :=
  ⟨List.mem_of_find?_eq_some h, by simpa using List.find?_some h⟩

theorem mem_iff_lookup (hu : KeysUnique key docs) {d : α} :
    d ∈ docs ↔ lookup key docs (key d) = some d := by
  constructor
  · intro hd
    cases hl : lookup key docs (key d) with
    | none =>
      have hn := List.find?_eq_none.mp hl d hd
      simp at hn
    | some x =>
      obtain ⟨hx, hk⟩ := lookup_some hl
      rw [List.inj_on_of_nodup_map hu hx hd hk]
  · exact fun h => (lookup_some h).1

/-- Under unique keys it does not matter in what order the documents stand. -/
theorem lookup_perm {docs' : List α} (hp : docs.Perm docs') (hu : KeysUnique key docs) (k : κ) :
    lookup key docs k = lookup key docs' k := by
  have hu' := keysUnique_perm hp hu
  cases h : lookup key docs k with
  | some d =>
    obtain ⟨hd, rfl⟩ := lookup_some h
    exact ((mem_iff_lookup hu').mp (hp.mem_iff.mp hd)).symm
  | none =>
    cases h' : lookup key docs' k with
    | none => rfl
    | some d =>
      obtain ⟨hd, rfl⟩ := lookup_some h'
      rw [(mem_iff_lookup hu).mp (hp.mem_iff.mpr hd)] at h
      cases h

/-- What a read makes of the documents is filtered by key down to the one added
under a new key. -/
theorem filter_key_of_absent {β : Type} {key' : β → κ} {f : α → β} (hf : ∀ x, key' (f x) = key x)
    {d : α} (absent : ∀ x ∈ docs, key x ≠ key d) {p : α → Bool} (hp : p d = true) :
    (((docs ++ [d]).filter p).map f).filter (fun m => key' m = key d) = [f d] := by
  rw [List.filter_map, List.filter_filter]
  have hone : (docs ++ [d]).filter (fun x => decide (key' (f x) = key d) && p x) = [d] := by
    apply filter_append_of_absent
    · intro x hx
      simp [hf, absent x hx]
    · simp [hf, hp]
  exact congrArg (List.map f) hone

/-- Replacing a document by one of the same key leaves the list of keys as it is. -/
theorem map_key_replaceFirst {k : κ} {d : α} (hd : key d = k) (docs : List α) :
    (replaceFirst (fun x => key x = k) d docs).map key = docs.map key := by
  induction docs with
  | nil => rfl
  | cons x xs ih =>
    unfold replaceFirst
    split
    next hx =>
      have he : key x = k := by simpa using hx
      simp [hd, he]
    next => simp [ih]

theorem keysUnique_replaceOne (hu : KeysUnique key docs) {k : κ} {d : α} (hd : key d = k) :
    KeysUnique key (replaceOne (fun x => key x = k) d docs) := by
  unfold replaceOne
  split
  next =>
    unfold KeysUnique
    rw [map_key_replaceFirst hd]
    exact hu
  next hn =>
    apply keysUnique_append hu
    intro x hx he
    exact hn (List.any_eq_true.mpr ⟨x, hx, by simp [he, hd]⟩)

/-- An upsert by key is a map update, with or without unique keys. -/
theorem lookup_replaceOne {k : κ} {d : α} (hd : key d = k) :
    lookup key (replaceOne (fun x => key x = k) d docs) =
      Function.update (lookup key docs) k (some d) := by
  funext j
  by_cases hj : j = k
  · subst j
    rw [Function.update_self]
    exact find?_replaceOne_self (by simp [hd]) docs
  · rw [Function.update_of_ne hj]
    unfold lookup
    rw [← List.head?_filter, ← List.head?_filter]
    congr 1
    apply filter_replaceOne_of_disjoint
    · simp [hd, Ne.symm hj]
    · intro x hx
      have he : key x = k := by simpa using hx
      simp [he, Ne.symm hj]

/-- Deleting by any filter removes exactly the map entries it accepts. This is
where unique keys are needed: behind a deleted first match there may be another. -/
theorem lookup_deleteMany (hu : KeysUnique key docs) (filter : α → Bool) (k : κ) :
    lookup key (deleteMany filter docs) k = (lookup key docs k).filter (fun d => !filter d) := by
  cases hl : lookup key docs k with
  | none =>
    apply List.find?_eq_none.mpr
    intro x hx
    exact List.find?_eq_none.mp hl x (mem_deleteMany.mp hx).1
  | some d =>
    obtain ⟨hd, rfl⟩ := lookup_some hl
    by_cases hf : filter d = true
    · simp only [Option.filter, hf, Bool.not_true, Bool.false_eq_true, if_false]
      apply List.find?_eq_none.mpr
      intro x hx he
      obtain ⟨hm, hk⟩ := mem_deleteMany.mp hx
      have hxd : x = d := List.inj_on_of_nodup_map hu hm hd (by simpa using he)
      subst x
      simp [hf] at hk
    · simp only [Option.filter, hf, Bool.not_false, if_true]
      exact (mem_iff_lookup (keysUnique_deleteMany hu filter)).mp
        (mem_deleteMany.mpr ⟨hd, by simpa using hf⟩)

/-- Under unique keys the documents are determined by what is found under each key. -/
theorem perm_of_lookup {docs' : List α} (hu : KeysUnique key docs) (hu' : KeysUnique key docs')
    (h : ∀ k, lookup key docs k = lookup key docs' k) : docs.Perm docs' := by
  apply (List.perm_ext_iff_of_nodup (List.Nodup.of_map key hu) (List.Nodup.of_map key hu')).mpr
  intro d
  rw [mem_iff_lookup hu, mem_iff_lookup hu', h]

end Keyed

end IdentityServerMongoDB
