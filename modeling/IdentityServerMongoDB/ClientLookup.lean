import IdentityServerMongoDB.ClientRoundTrip

namespace IdentityServerMongoDB

/-- No key is null and none is there twice. -/
def AcceptedKeys (items : List (Option String × Option String)) : Prop :=
  (∀ item ∈ items, item.1 ≠ none) ∧ (items.map Prod.fst).Nodup

/-- What `ToDictionary` throws: it is about the first item that cannot be added. -/
inductive RejectedKey (items : List (Option String × Option String)) : Exception → Prop
  | null {before value after} : items = before ++ (none, value) :: after → AcceptedKeys before →
      RejectedKey items (.argumentNull "key")
  | repeated {before key value after} :
      items = before ++ (some key, value) :: after → AcceptedKeys before →
      some key ∈ before.map Prod.fst → RejectedKey items .duplicateKey

theorem items_keys (d : Dictionary) : d.items.map Prod.fst = (d.entries.map Prod.fst).map some := by
  simp only [Dictionary.items, List.map_map, Function.comp_def]

theorem items_accepted (d : Dictionary) : AcceptedKeys d.items := by
  refine ⟨?_, ?_⟩
  · intro item hitem
    obtain ⟨entry, _, rfl⟩ := List.mem_map.mp hitem
    exact Option.some_ne_none _
  · rw [items_keys]
    exact d.nodup.map (fun _ _ h => Option.some.inj h)

theorem mem_items_keys {d : Dictionary} {key : String} :
    some key ∈ d.items.map Prod.fst ↔ key ∈ d.entries.map Prod.fst := by
  rw [items_keys]
  exact List.mem_map_of_injective (fun _ _ h => Option.some.inj h)

theorem addAll_outcome (d : Dictionary) (items : List (Option String × Option String)) :
    (∃ e, d.addAll items = .ok e ∧ e.items = d.items ++ items) ∨
      ∃ ex, d.addAll items = .error ex ∧ RejectedKey (d.items ++ items) ex := by
  induction items generalizing d with
  | nil => exact Or.inl ⟨d, rfl, (List.append_nil _).symm⟩
  | cons item items ih =>
    obtain ⟨key, value⟩ := item
    cases key with
    | none => exact Or.inr ⟨_, rfl, RejectedKey.null rfl (items_accepted d)⟩
    | some key =>
      by_cases hmem : key ∈ d.entries.map Prod.fst
      · have hadd : d.add (some key) value = .error .duplicateKey := by
          simp only [Dictionary.add]
          rw [dif_pos hmem]
        refine Or.inr ⟨.duplicateKey, ?_,
          RejectedKey.repeated rfl (items_accepted d) (mem_items_keys.mpr hmem)⟩
        simp only [Dictionary.addAll, hadd]
      · have hadd := @Dictionary.add_of_not_mem d key value hmem
        have hnext : d.items ++ (some key, value) :: items =
            Dictionary.items ⟨d.entries ++ [(key, value)], d.nodup_concat value hmem⟩ ++ items := by
          simp [Dictionary.items]
        simp only [Dictionary.addAll, hadd]
        rw [hnext]
        exact ih _

/-- Either the keys are all accepted, or the first that is not decides. -/
theorem toDictionary_outcome (items : List (Option String × Option String)) :
    (∃ d, toDictionary items = .ok d ∧ d.items = items) ∨
      ∃ ex, toDictionary items = .error ex ∧ RejectedKey items ex :=
  addAll_outcome Dictionary.empty items

/-- The keys and values `ToDictionary` is given of a document. -/
def Entities.Client.propertyItems (e : Entities.Client) : List (Option String × Option String) :=
  (e.properties.getD []).map (fun item => (item.key, item.value))

def Entities.Client.GrantTypesAccepted (lib : IdentityServerModels) (e : Entities.Client) : Prop :=
  lib.acceptsGrantTypes ((e.allowedGrantTypes.getD []).map (fun x => x.grantType)) = true

/-- What keeps a document from being read as a client: a key that is repeated or,
where AutoMapper gives no properties then, null, or its grant types. -/
inductive Entities.Client.Unmappable (lib : IdentityServerModels) (e : Entities.Client) : Prop
  | repeatedKey : RejectedKey e.propertyItems .duplicateKey → e.Unmappable lib
  | nullKey : RejectedKey e.propertyItems (.argumentNull "key") → lib.nullKeyProperties = none →
      e.Unmappable lib
  | grantTypes : ¬e.GrantTypesAccepted lib → e.Unmappable lib

/-- What a document can be read as: a client that is nothing but what the document has of
it. Where a null key is the first that cannot be added, the client has the properties
that AutoMapper gives it then, if it gives any. -/
inductive Entities.Client.ReadAs (lib : IdentityServerModels) (e : Entities.Client) :
    Except Exception (Models.Client lib) → Prop
  | mapped {c} : e.Mappable lib → c.stored = c → c.toEntity = e.withEmptyLists →
      e.ReadAs lib (.ok c)
  | nullKey {c properties} : RejectedKey e.propertyItems (.argumentNull "key") →
      lib.nullKeyProperties = some properties → e.GrantTypesAccepted lib → c.stored = c →
      c.toEntity = { e.withEmptyLists with
        properties := some (properties.items.map (fun x => { key := x.1, value := x.2 })) } →
      e.ReadAs lib (.ok c)
  | unmappable : e.Unmappable lib → e.ReadAs lib (.error .autoMapperMapping)

theorem mappable_of_accepted {lib : IdentityServerModels} {e : Entities.Client}
    (hkeys : AcceptedKeys e.propertyItems) (htypes : e.GrantTypesAccepted lib) :
    e.Mappable lib := by
  obtain ⟨hnull, hnodup⟩ := hkeys
  refine ⟨?_, ?_, htypes⟩
  · exact fun p hp => hnull _ (List.mem_map.mpr ⟨p, hp, rfl⟩)
  · simpa only [Entities.Client.propertyItems, List.map_map, Function.comp_def] using hnodup

section Reading

variable {lib : IdentityServerModels} {e : Entities.Client}

theorem mapAllowedGrantTypes_of_refused (h : ¬e.GrantTypesAccepted lib) :
    e.mapAllowedGrantTypes lib = .error .autoMapperMapping := by
  have hset : Models.AllowedGrantTypes.set lib
      (mapCollection (fun x => x.grantType) e.allowedGrantTypes) = .error .invalidOperation :=
    dif_neg h
  unfold Entities.Client.mapAllowedGrantTypes
  rw [hset]
  rfl

/-- Which properties a client gets, or why the mapping of the document fails over them. -/
theorem mapProperties_outcome (lib : IdentityServerModels) (e : Entities.Client) :
    (∃ properties, e.mapProperties lib = .ok properties ∧ (AcceptedKeys e.propertyItems ∨
      (RejectedKey e.propertyItems (.argumentNull "key") ∧
        lib.nullKeyProperties = some properties))) ∨
    (e.mapProperties lib = .error .autoMapperMapping ∧ e.Unmappable lib) := by
  rcases toDictionary_outcome e.propertyItems with ⟨d, hd, hitems⟩ | ⟨ex, hex, hrejected⟩
  · have hkeys := items_accepted d
    rw [hitems] at hkeys
    exact Or.inl ⟨d, mapProperties_of_ok hd, Or.inl hkeys⟩
  · have hthrows : toDictionary (mapCollection (fun item => (item.key, item.value)) e.properties) =
        .error ex := hex
    unfold Entities.Client.mapProperties
    rw [hthrows]
    cases hrejected with
    | repeated hsplit hbefore hmem =>
      exact Or.inr ⟨rfl, .repeatedKey (.repeated hsplit hbefore hmem)⟩
    | null hsplit hbefore =>
      have hnull : RejectedKey e.propertyItems (.argumentNull "key") := .null hsplit hbefore
      cases hgiven : lib.nullKeyProperties with
      | none => exact Or.inr ⟨rfl, .nullKey hnull hgiven⟩
      | some properties => exact Or.inl ⟨properties, rfl, Or.inr ⟨hnull, rfl⟩⟩

theorem toModel_of_properties_error {ex : Exception} (h : e.mapProperties lib = .error ex) :
    e.toModel lib = .error ex := by
  unfold Entities.Client.toModel
  rw [h]
  rfl

theorem toModel_of_refused {properties : Dictionary} (h : e.mapProperties lib = .ok properties)
    (htypes : ¬e.GrantTypesAccepted lib) : e.toModel lib = .error .autoMapperMapping := by
  unfold Entities.Client.toModel
  rw [h, mapAllowedGrantTypes_of_refused htypes]
  rfl

theorem toModel_readAs (lib : IdentityServerModels) (e : Entities.Client) :
    e.ReadAs lib (e.toModel lib) := by
  rcases mapProperties_outcome lib e with ⟨properties, hproperties, hkeys⟩ | ⟨herror, hun⟩
  · by_cases htypes : e.GrantTypesAccepted lib
    · rcases hkeys with haccepted | ⟨hnull, hgiven⟩
      · have hmappable := mappable_of_accepted haccepted htypes
        obtain ⟨c, hc, hentity⟩ := toEntity_of_toModel hmappable
        rw [hc]
        exact .mapped hmappable (stored_of_toModel hc) hentity
      · obtain ⟨c, hc, hentity⟩ := toEntity_of_properties hproperties htypes
        rw [hc]
        exact .nullKey hnull hgiven htypes (stored_of_toModel hc) hentity
    · rw [toModel_of_refused hproperties htypes]
      exact .unmappable (.grantTypes htypes)
  · rw [toModel_of_properties_error herror]
    exact .unmappable hun

end Reading

/-- What the store answers to a client id. Only the first document of the id
counts, whatever the others hold. -/
inductive ClientLookup (lib : IdentityServerModels) (clientId : Option String)
    (store : ConfigurationDocs) : Except Exception (Option (Models.Client lib)) → Prop
  | absent : (∀ e ∈ store.clients, e.clientId ≠ clientId) →
      ClientLookup lib clientId store (.ok none)
  | first {before e after result} : store.clients = before ++ e :: after →
      (∀ d ∈ before, d.clientId ≠ clientId) → e.clientId = clientId → e.ReadAs lib result →
      ClientLookup lib clientId store (result.map some)

theorem findClientByIdAsync_lookup (lib : IdentityServerModels) (clientId : Option String)
    (store : ConfigurationDocs) :
    ClientLookup lib clientId store (findClientByIdAsync lib clientId store) := by
  unfold findClientByIdAsync
  cases hfind : store.clients.find? (fun x => x.clientId = clientId) with
  | none =>
    apply ClientLookup.absent
    intro e he
    simpa using List.find?_eq_none.mp hfind e he
  | some e =>
    obtain ⟨hid, before, after, hsplit, hbefore⟩ := List.find?_eq_some_iff_append.mp hfind
    have hid : e.clientId = clientId := by simpa using hid
    have hbefore : ∀ d ∈ before, d.clientId ≠ clientId :=
      fun d hd => by simpa using hbefore d hd
    exact ClientLookup.first hsplit hbefore hid (toModel_readAs lib e)

end IdentityServerMongoDB
