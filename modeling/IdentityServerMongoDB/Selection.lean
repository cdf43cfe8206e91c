import Mathlib.Data.Multiset.UnionInter

namespace IdentityServerMongoDB

/-- The elements of a listing that have a key among those asked for. -/
def select {α κ : Type} [DecidableEq κ] (keys : α → List κ) (asked : List κ)
    (listing : Multiset α) : Multiset α :=
  listing.filter (fun x => ∃ k ∈ keys x, k ∈ asked)

section Select

variable {α κ : Type} [DecidableEq κ] {keys : α → List κ}

theorem select_congr {asked asked' : List κ} (h : ∀ k, k ∈ asked ↔ k ∈ asked')
    (listing : Multiset α) : select keys asked listing = select keys asked' listing := by
  apply Multiset.filter_congr
  intro x _
  simp only [h]

/-- An element that is asked for in both lists is still there only as often as
in the listing. -/
theorem select_append [DecidableEq α] (asked asked' : List κ) (listing : Multiset α) :
    select keys (asked ++ asked') listing =
      select keys asked listing ∪ select keys asked' listing := by
  ext x
  have hor : (∃ k ∈ keys x, k ∈ asked ++ asked') ↔
      (∃ k ∈ keys x, k ∈ asked) ∨ ∃ k ∈ keys x, k ∈ asked' := by
    simp only [List.mem_append, and_or_left, exists_or]
  unfold select
  rw [Multiset.count_union, Multiset.count_filter, Multiset.count_filter, Multiset.count_filter]
  simp only [hor]
  by_cases h : ∃ k ∈ keys x, k ∈ asked
  · by_cases h' : ∃ k ∈ keys x, k ∈ asked'
    · simp only [h, h', or_self, if_true, Nat.max_self]
    · simp only [h, h', or_false, if_true, if_false, Nat.max_zero]
  · by_cases h' : ∃ k ∈ keys x, k ∈ asked'
    · simp only [h, h', false_or, if_true, if_false, Nat.zero_max]
    · simp only [h, h', or_self, if_false, Nat.max_self]

/-- A query over the stored elements that goes by the keys of what they are mapped to. -/
theorem select_map {δ : Type} {f : δ → α} {p : δ → Bool} {asked : List κ}
    (hp : ∀ d, p d = true ↔ ∃ k ∈ keys (f d), k ∈ asked) (docs : List δ) :
    (((docs.filter p).map f : List α) : Multiset α) = select keys asked (docs.map f : List α) := by
  unfold select
  rw [Multiset.filter_coe, List.filter_map]
  congr 2
  apply List.filter_congr
  intro d _
  have hd := hp d
  by_cases h : ∃ k ∈ keys (f d), k ∈ asked
  · simp only [Function.comp_apply, h, decide_true]
    exact hd.mpr h
  · have hn : p d = false := Bool.eq_false_iff.mpr (fun he => h (hd.mp he))
    simp only [Function.comp_apply, h, decide_false, hn]

end Select

end IdentityServerMongoDB
