import IdentityServerMongoDB.DotNet

namespace IdentityServerMongoDB

/-- `Dictionary<string, string>`: no key is null and none is there twice. -/
@[ext] structure Dictionary where
  entries : List (String × Option String)
  nodup : (entries.map Prod.fst).Nodup

def Dictionary.empty : Dictionary := ⟨[], List.nodup_nil⟩

theorem Dictionary.nodup_concat {d : Dictionary} {key : String} (value : Option String)
    (h : key ∉ d.entries.map Prod.fst) : ((d.entries ++ [(key, value)]).map Prod.fst).Nodup := by
  rw [List.map_append]
  refine List.nodup_append.mpr ⟨d.nodup, List.nodup_singleton key, ?_⟩
  intro a ha b hb heq
  rw [heq, List.mem_singleton.mp hb] at ha
  exact h ha

def Dictionary.add (d : Dictionary) (key value : Option String) : Except Exception Dictionary :=
  match key with
  | none => .error (.argumentNull "key")
  | some key =>
    if h : key ∈ d.entries.map Prod.fst then .error .duplicateKey
    else .ok ⟨d.entries ++ [(key, value)], d.nodup_concat value h⟩

def Dictionary.addAll (d : Dictionary) :
    List (Option String × Option String) → Except Exception Dictionary
  | [] => .ok d
  | (key, value) :: items =>
    match d.add key value with
    | .error ex => .error ex
    | .ok d => d.addAll items

/-- `ToDictionary`. -/
def toDictionary (items : List (Option String × Option String)) : Except Exception Dictionary :=
  Dictionary.empty.addAll items

def Dictionary.items (d : Dictionary) : List (Option String × Option String) :=
  d.entries.map (fun item => (some item.1, item.2))

theorem Dictionary.add_of_not_mem {d : Dictionary} {key : String} {value : Option String}
    (h : key ∉ d.entries.map Prod.fst) :
    d.add (some key) value = .ok ⟨d.entries ++ [(key, value)], d.nodup_concat value h⟩ := by
  simp only [Dictionary.add]
  rw [dif_neg h]

theorem Dictionary.addAll_items {d e : Dictionary} {items : List (String × Option String)}
    (h : e.entries = d.entries ++ items) :
    d.addAll (items.map (fun item => (some item.1, item.2))) = .ok e := by
  induction items generalizing d with
  | nil =>
    have heq : d = e := Dictionary.ext (by simp [h])
    rw [heq]
    rfl
  | cons item items ih =>
    obtain ⟨key, value⟩ := item
    have hnodup := e.nodup
    rw [h, List.map_append] at hnodup
    have hnew : key ∉ d.entries.map Prod.fst := by
      intro hmem
      exact (List.nodup_append.mp hnodup).2.2 key hmem key (by simp) rfl
    simp only [List.map_cons, Dictionary.addAll, Dictionary.add_of_not_mem hnew]
    exact ih (by simp [h])

/-- A dictionary is built again from what it enumerates. -/
theorem toDictionary_items (d : Dictionary) : toDictionary d.items = .ok d :=
  Dictionary.addAll_items (d := Dictionary.empty) (by simp [Dictionary.empty])

theorem exists_entries_of_keys {items : List (Option String × Option String)}
    (h : ∀ item ∈ items, item.1 ≠ none) :
    ∃ entries : List (String × Option String),
      entries.map (fun item => (some item.1, item.2)) = items := by
  induction items with
  | nil => exact ⟨[], rfl⟩
  | cons item items ih =>
    obtain ⟨key, hkey⟩ := Option.ne_none_iff_exists.mp (h item (by simp))
    obtain ⟨entries, hentries⟩ := ih (fun x hx => h x (List.mem_cons_of_mem item hx))
    refine ⟨(key, item.2) :: entries, ?_⟩
    rw [List.map_cons, hentries, hkey]

/-- Under distinct keys, none of them null, a dictionary enumerates what it was built from. -/
theorem toDictionary_of_distinct {items : List (Option String × Option String)}
    (h : ∀ item ∈ items, item.1 ≠ none) (hnodup : (items.map Prod.fst).Nodup) :
    ∃ d, toDictionary items = .ok d ∧ d.items = items := by
  obtain ⟨entries, rfl⟩ := exists_entries_of_keys h
  have hkeys : (entries.map Prod.fst).Nodup := by
    apply List.Nodup.of_map some
    simpa only [List.map_map, Function.comp_def] using hnodup
  exact ⟨⟨entries, hkeys⟩, toDictionary_items ⟨entries, hkeys⟩, rfl⟩

end IdentityServerMongoDB
