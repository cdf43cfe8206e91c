import IdentityServerMongoDB.ConfigurationStore
import IdentityServerMongoDB.Enumeration

namespace IdentityServerMongoDB

/-- `StringComparer.OrdinalIgnoreCase`, by the upper case the invariant culture gives each
character. -/
def ordinalIgnoreCase (toUpperInvariant : Char → Char) : Option String → Option String → Bool
  | none, none => true
  | some x, some y => x.toList.map toUpperInvariant = y.toList.map toUpperInvariant
  | _, _ => false

/-- `x.AllowedCorsOrigins.Select(y => y.Origin)`, projected by the database. -/
def Entities.Client.origins (x : Entities.Client) : Option (List (Option String)) :=
  x.allowedCorsOrigins.map (fun origins => origins.map (fun y => y.origin))

def isOriginAllowedAsync (toUpperInvariant : Char → Char) (origin : Option String)
    (store : ConfigurationDocs) : Except Exception Bool :=
  let origins := store.clients.map Entities.Client.origins
  let distinctOrigins := ((Enumeration.selectMany origins).filter (fun x => x ≠ none)).distinct
  distinctOrigins.contains (ordinalIgnoreCase toUpperInvariant) origin

/-- One of the client's origins is not null and equals the given one. -/
def Entities.Client.Allows (toUpperInvariant : Char → Char) (origin : Option String)
    (client : Entities.Client) : Prop :=
  ∃ origins, client.allowedCorsOrigins = some origins ∧
    ∃ y ∈ origins, y.origin ≠ none ∧ ordinalIgnoreCase toUpperInvariant y.origin origin = true

/-- The service answers, and with the clients' word. -/
def DecidesExactly (toUpperInvariant : Char → Char) (origin : Option String)
    (store : ConfigurationDocs) : Prop :=
  ∃ isAllowed, isOriginAllowedAsync toUpperInvariant origin store = .ok isAllowed ∧
    (isAllowed = true ↔ ∃ client ∈ store.clients, client.Allows toUpperInvariant origin)

/-- A client without a list comes only after one that allows the origin. -/
def MissingListsUnreached (toUpperInvariant : Char → Char) (origin : Option String)
    (clients : List Entities.Client) : Prop :=
  ∀ before client after, clients = before ++ client :: after →
    client.allowedCorsOrigins = none → ∃ c ∈ before, c.Allows toUpperInvariant origin

section Decision

variable {toUpperInvariant : Char → Char} {origin : Option String}

theorem isOriginAllowedAsync_eq (store : ConfigurationDocs) :
    isOriginAllowedAsync toUpperInvariant origin store =
      (Enumeration.selectMany (store.clients.map Entities.Client.origins)).contains
        (fun x v => decide (x ≠ none) && ordinalIgnoreCase toUpperInvariant x v) origin := by
  unfold isOriginAllowedAsync
  rw [Enumeration.contains_distinct, Enumeration.contains_filter]

theorem isOriginAllowedAsync_of_missing {client : Entities.Client} {clients : List Entities.Client}
    (h : client.allowedCorsOrigins = none) :
    isOriginAllowedAsync toUpperInvariant origin { clients := client :: clients } =
      .error .nullReference := by
  have ho : client.origins = none := by simp [Entities.Client.origins, h]
  rw [isOriginAllowedAsync_eq]
  simp only [List.map_cons, ho]
  rfl

theorem isOriginAllowedAsync_of_allows {client : Entities.Client} {clients : List Entities.Client}
    (h : client.Allows toUpperInvariant origin) :
    isOriginAllowedAsync toUpperInvariant origin { clients := client :: clients } = .ok true := by
  obtain ⟨origins, hlist, y, hy, hnull, he⟩ := h
  have ho : client.origins = some (origins.map (fun y => y.origin)) := by
    simp [Entities.Client.origins, hlist]
  have hmem : y.origin ∈ origins.map (fun y => y.origin) := List.mem_map.mpr ⟨y, hy, rfl⟩
  rw [isOriginAllowedAsync_eq]
  simp only [List.map_cons, ho]
  exact Enumeration.contains_prepend_of_mem hmem (by simp [hnull, he]) _

theorem isOriginAllowedAsync_of_passed {client : Entities.Client} {clients : List Entities.Client}
    (hlist : client.allowedCorsOrigins ≠ none) (h : ¬client.Allows toUpperInvariant origin) :
    isOriginAllowedAsync toUpperInvariant origin { clients := client :: clients } =
      isOriginAllowedAsync toUpperInvariant origin { clients := clients } := by
  obtain ⟨origins, hsome⟩ := Option.ne_none_iff_exists'.mp hlist
  have ho : client.origins = some (origins.map (fun y => y.origin)) := by
    simp [Entities.Client.origins, hsome]
  rw [isOriginAllowedAsync_eq, isOriginAllowedAsync_eq]
  simp only [List.map_cons, ho]
  apply Enumeration.contains_prepend_of_absent
  intro x hx
  obtain ⟨y, hy, rfl⟩ := List.mem_map.mp hx
  by_contra hne
  have hboth : y.origin ≠ none ∧ ordinalIgnoreCase toUpperInvariant y.origin origin = true := by
    simpa using hne
  exact h ⟨origins, hsome, y, hy, hboth.1, hboth.2⟩

theorem missingListsUnreached_cons {client : Entities.Client} {clients : List Entities.Client}
    (hlist : client.allowedCorsOrigins ≠ none) (h : ¬client.Allows toUpperInvariant origin) :
    MissingListsUnreached toUpperInvariant origin (client :: clients) ↔
      MissingListsUnreached toUpperInvariant origin clients := by
  constructor
  · intro hcons before c after heq hnone
    obtain ⟨d, hd, hallows⟩ := hcons (client :: before) c after (by simp [heq]) hnone
    rcases List.mem_cons.mp hd with rfl | hd
    · exact absurd hallows h
    · exact ⟨d, hd, hallows⟩
  · intro htail before c after heq hnone
    cases before with
    | nil =>
      obtain ⟨rfl, _⟩ := List.cons.inj heq
      exact absurd hnone hlist
    | cons b before =>
      obtain ⟨_, heq⟩ := List.cons.inj heq
      obtain ⟨d, hd, hallows⟩ := htail before c after heq hnone
      exact ⟨d, List.mem_cons_of_mem b hd, hallows⟩

theorem decidesExactly_cons {client : Entities.Client} {clients : List Entities.Client}
    (hlist : client.allowedCorsOrigins ≠ none) (h : ¬client.Allows toUpperInvariant origin) :
    DecidesExactly toUpperInvariant origin { clients := client :: clients } ↔
      DecidesExactly toUpperInvariant origin { clients := clients } := by
  unfold DecidesExactly
  rw [isOriginAllowedAsync_of_passed hlist h]
  simp [h]

theorem missingListsUnreached_of_allows {client : Entities.Client}
    (h : client.Allows toUpperInvariant origin) (clients : List Entities.Client) :
    MissingListsUnreached toUpperInvariant origin (client :: clients) := by
  intro before c after heq hnone
  cases before with
  | nil =>
    obtain ⟨rfl, _⟩ := List.cons.inj heq
    obtain ⟨origins, hlist, _⟩ := h
    rw [hlist] at hnone
    cases hnone
  | cons b before =>
    obtain ⟨rfl, _⟩ := List.cons.inj heq
    exact ⟨client, by simp, h⟩

theorem decidesExactly_of_allows {client : Entities.Client}
    (h : client.Allows toUpperInvariant origin) (clients : List Entities.Client) :
    DecidesExactly toUpperInvariant origin { clients := client :: clients } := by
  refine ⟨true, isOriginAllowedAsync_of_allows h, ?_⟩
  simp only [true_iff]
  exact ⟨client, by simp, h⟩

theorem not_decidesExactly_of_missing {client : Entities.Client}
    (h : client.allowedCorsOrigins = none) (clients : List Entities.Client) :
    ¬DecidesExactly toUpperInvariant origin { clients := client :: clients } := by
  rintro ⟨_, hok, _⟩
  rw [isOriginAllowedAsync_of_missing h] at hok
  cases hok

theorem not_missingListsUnreached_of_missing {client : Entities.Client}
    (h : client.allowedCorsOrigins = none) (clients : List Entities.Client) :
    ¬MissingListsUnreached toUpperInvariant origin (client :: clients) := by
  intro hunreached
  obtain ⟨c, hc, _⟩ := hunreached [] client clients rfl h
  cases hc

end Decision

theorem decidesExactly_clients_iff (toUpperInvariant : Char → Char) (origin : Option String)
    (clients : List Entities.Client) :
    DecidesExactly toUpperInvariant origin { clients := clients } ↔
      MissingListsUnreached toUpperInvariant origin clients := by
  induction clients with
  | nil =>
    apply iff_of_true
    · exact ⟨false, rfl, by simp⟩
    · intro before client after heq
      simp at heq
  | cons client clients ih =>
    by_cases hlist : client.allowedCorsOrigins = none
    · exact iff_of_false (not_decidesExactly_of_missing hlist clients)
        (not_missingListsUnreached_of_missing hlist clients)
    · by_cases hallows : client.Allows toUpperInvariant origin
      · exact iff_of_true (decidesExactly_of_allows hallows clients)
          (missingListsUnreached_of_allows hallows clients)
      · rw [decidesExactly_cons hlist hallows, missingListsUnreached_cons hlist hallows]
        exact ih

/-- The decision is exact as long as no missing list is come to before an allowing client. -/
theorem decidesExactly_iff (toUpperInvariant : Char → Char) (origin : Option String)
    (store : ConfigurationDocs) :
    DecidesExactly toUpperInvariant origin store ↔
      MissingListsUnreached toUpperInvariant origin store.clients :=
  decidesExactly_clients_iff toUpperInvariant origin store.clients

/-- A client that was added without a list makes the service throw at an origin
the next client allows. -/
theorem missing_list_not_decidesExactly :
    ¬∀ (toUpperInvariant : Char → Char) (origin : Option String) (store : ConfigurationDocs),
      DecidesExactly toUpperInvariant origin store := by
  intro h
  obtain ⟨_, hok, _⟩ := h Char.toUpper (some "http://localhost:7017")
    { clients := [
        { clientId := some "machine" },
        { clientId := some "spa", allowedCorsOrigins := some [⟨some "http://localhost:7017"⟩] } ] }
  cases hok

end IdentityServerMongoDB
