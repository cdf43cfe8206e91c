import IdentityServerMongoDB.PersistedGrantStore
import Mathlib.Data.List.Induction

namespace IdentityServerMongoDB

/-- The collection a sequence of stores leaves behind. -/
def storeAll (tokens : List Models.PersistedGrant) : GrantDocs :=
  tokens.foldl (fun docs token => storeAsync token docs) []

/-- The grants those stores have saved, as they were handed in. -/
def savedGrants (tokens : List Models.PersistedGrant) : List Models.PersistedGrant :=
  tokens.foldl (fun saved token => replaceOne (fun t => t.key = token.key) token saved) []

theorem storeAll_append (tokens : List Models.PersistedGrant) (token : Models.PersistedGrant) :
    storeAll (tokens ++ [token]) = storeAsync token (storeAll tokens) := by
  simp [storeAll, List.foldl_append]

theorem savedGrants_append (tokens : List Models.PersistedGrant) (token : Models.PersistedGrant) :
    savedGrants (tokens ++ [token]) =
      replaceOne (fun t => t.key = token.key) token (savedGrants tokens) := by
  simp [savedGrants, List.foldl_append]

theorem storeAsync_map (token : Models.PersistedGrant) (saved : List Models.PersistedGrant) :
    storeAsync token (saved.map Models.PersistedGrant.toEntity) =
      (replaceOne (fun t => t.key = token.key) token saved).map Models.PersistedGrant.toEntity :=
  replaceOne_map Models.PersistedGrant.toEntity _ token saved

theorem storeAll_eq (tokens : List Models.PersistedGrant) :
    storeAll tokens = (savedGrants tokens).map Models.PersistedGrant.toEntity := by
  induction tokens using List.reverseRecOn with
  | nil => rfl
  | append_singleton tokens token ih =>
    rw [storeAll_append, savedGrants_append, ih, storeAsync_map]

theorem keysUnique_savedGrants (tokens : List Models.PersistedGrant) :
    KeysUnique Models.PersistedGrant.key (savedGrants tokens) := by
  induction tokens using List.reverseRecOn with
  | nil => exact List.nodup_nil
  | append_singleton tokens token ih =>
    rw [savedGrants_append]
    exact keysUnique_replaceOne ih rfl

theorem lookup_savedGrants_append (tokens : List Models.PersistedGrant)
    (token : Models.PersistedGrant) :
    lookup Models.PersistedGrant.key (savedGrants (tokens ++ [token])) =
      Function.update (lookup Models.PersistedGrant.key (savedGrants tokens))
        token.key (some token) := by
  rw [savedGrants_append]
  exact lookup_replaceOne rfl

/-- The saved grants are those that no later store of their key has overwritten. -/
theorem mem_savedGrants_iff {tokens : List Models.PersistedGrant} {g : Models.PersistedGrant} :
    g ∈ savedGrants tokens ↔
      ∃ earlier later, tokens = earlier ++ g :: later ∧ ∀ t ∈ later, t.key ≠ g.key := by
  rw [mem_iff_lookup (keysUnique_savedGrants tokens)]
  induction tokens using List.reverseRecOn with
  | nil => simp [savedGrants, lookup]
  | append_singleton tokens token ih =>
    rw [lookup_savedGrants_append]
    by_cases hk : g.key = token.key
    · rw [hk, Function.update_self]
      constructor
      · intro h
        cases Option.some.inj h
        exact ⟨tokens, [], rfl, by simp⟩
      · rintro ⟨earlier, later, he, hl⟩
        cases later using List.reverseRecOn with
        | nil => rw [(List.append_inj' he rfl).2 |> List.singleton_inj.mp]
        | append_singleton later last =>
          have hlast : token = last := by
            have hs : tokens ++ [token] = (earlier ++ g :: later) ++ [last] := by simpa using he
            exact List.singleton_inj.mp (List.append_inj' hs rfl).2
          exact absurd (by rw [hlast]) (hl last (by simp))
    · rw [Function.update_of_ne hk, ih]
      constructor
      · rintro ⟨earlier, later, rfl, hl⟩
        refine ⟨earlier, later ++ [token], by simp, ?_⟩
        intro t ht
        rcases List.mem_append.mp ht with ht | ht
        · exact hl t ht
        · have he : t = token := by simpa using ht
          subst t
          exact Ne.symm hk
      · rintro ⟨earlier, later, he, hl⟩
        cases later using List.reverseRecOn with
        | nil =>
          have hs := List.singleton_inj.mp (List.append_inj' he rfl).2
          exact absurd (by rw [hs]) hk
        | append_singleton later last =>
          have hs : tokens ++ [token] = (earlier ++ g :: later) ++ [last] := by simpa using he
          exact ⟨earlier, later, (List.append_inj' hs rfl).1, fun t ht => hl t (by simp [ht])⟩

end IdentityServerMongoDB
