import IdentityServerMongoDB.ConfigurationAdditions
import IdentityServerMongoDB.Transition

namespace IdentityServerMongoDB

/-- The blocks of `EnsureSeedData`, by the collection each is about. -/
inductive SeedBlock
  | clients
  | identityResources
  | apiResources
  | apiScopes
  deriving DecidableEq

/-- What the host brings along: `Clients.Get()` and the lists of `Resources`. -/
structure SeedData (lib : IdentityServerModels) where
  clients : List (Models.Client lib)
  identityResources : List Models.IdentityResource
  apiResources : List Models.ApiResource
  apiScopes : List Models.ApiScope

/-- The calls of the `foreach` of a block. -/
def SeedData.additions {lib : IdentityServerModels} (seed : SeedData lib) :
    SeedBlock → List Addition
  | .clients => seed.clients.map (fun client => .addClient client.toEntity)
  | .identityResources =>
    seed.identityResources.map (fun resource => .addIdentityResource resource.toEntity)
  | .apiResources => seed.apiResources.map (fun resource => .addApiResource resource.toEntity)
  | .apiScopes => seed.apiScopes.map (fun resource => .addApiScope resource.toEntity)

/-- `context.Clients.Any()`, and so on. -/
def SeedBlock.any (block : SeedBlock) (store : ConfigurationDocs) : Bool :=
  match block with
  | .clients => !store.clients.isEmpty
  | .identityResources => !store.identityResources.isEmpty
  | .apiResources => !store.apiResources.isEmpty
  | .apiScopes => !store.apiScopes.isEmpty

/-- A host in `EnsureSeedData`: the blocks it has not come to, the calls left of
the one it is in, and the blocks whose collection it found empty. -/
structure SeedHost where
  todo : List SeedBlock := [.clients, .identityResources, .apiResources, .apiScopes]
  adding : List Addition := []
  seeded : List SeedBlock := []
  threw : Bool := false

/-- The store and the hosts on it. No host awaits what it adds. -/
structure SeedState where
  store : ConfigurationDocs
  hosts : List SeedHost := []
  pending : List Addition := []
  failed : List Addition := []

inductive SeedEvent
  | start
  | any (i : Nat)
  | throws (i : Nat)
  | add (i : Nat)
  | insert (n : Nat)
  | fail (n : Nat)

def SeedState.setHost (s : SeedState) (i : Nat) (host : SeedHost) : SeedState :=
  { s with hosts := s.hosts.set i host }

/-- A host that is at the head of a block asks whether its collection has any
document. The query, unlike the additions, is waited for and can throw. -/
def seedStep {lib : IdentityServerModels} (seed : SeedData lib) (s : SeedState) :
    SeedEvent → Option SeedState
  | .start => some { s with hosts := s.hosts ++ [{}] }
  | .any i => do
    let host ← s.hosts[i]?
    match host.threw, host.adding, host.todo with
    | false, [], block :: todo =>
      if block.any s.store then some (s.setHost i { host with todo := todo })
      else some (s.setHost i { host with
        todo := todo
        adding := seed.additions block
        seeded := block :: host.seeded })
    | _, _, _ => none
  | .throws i => do
    let host ← s.hosts[i]?
    match host.threw, host.adding, host.todo with
    | false, [], _ :: _ => some (s.setHost i { host with threw := true })
    | _, _, _ => none
  | .add i => do
    let host ← s.hosts[i]?
    match host.adding with
    | addition :: adding =>
      some { s.setHost i { host with adding := adding } with pending := s.pending ++ [addition] }
    | [] => none
  | .insert n => do
    let addition ← s.pending[n]?
    let store ← addition.exec s.store
    some { s with store := store, pending := s.pending.eraseIdx n }
  | .fail n => do
    let addition ← s.pending[n]?
    some { s with pending := s.pending.eraseIdx n, failed := s.failed ++ [addition] }

def seedInit (store : ConfigurationDocs) : SeedState where
  store := store

abbrev SeedReach {lib : IdentityServerModels} (seed : SeedData lib)
    (guard : SeedState → SeedEvent → Prop) (store : ConfigurationDocs) : SeedState → Prop :=
  Reach (seedStep seed) guard (seedInit store)

def Addition.block : Addition → SeedBlock
  | .addClient _ => .clients
  | .addIdentityResource _ => .identityResources
  | .addApiResource _ => .apiResources
  | .addApiScope _ => .apiScopes

/-- The documents of a collection, each as the call that adds it. -/
def ConfigurationDocs.contents (store : ConfigurationDocs) : SeedBlock → List Addition
  | .clients => store.clients.map .addClient
  | .identityResources => store.identityResources.map .addIdentityResource
  | .apiResources => store.apiResources.map .addApiResource
  | .apiScopes => store.apiScopes.map .addApiScope

/-- What is still to be added to a collection, or on its way there. -/
def SeedState.outstanding (s : SeedState) (block : SeedBlock) : List Addition :=
  (s.pending ++ s.hosts.flatMap SeedHost.adding).filter (fun a => a.block = block)

/-- How many hosts found the collection of the block empty. -/
def SeedState.seeders (s : SeedState) (block : SeedBlock) : Nat :=
  (s.hosts.flatMap SeedHost.seeded).count block

theorem contents_eq_nil_iff {store : ConfigurationDocs} {block : SeedBlock} :
    store.contents block = [] ↔ block.any store = false := by
  cases block <;> simp [ConfigurationDocs.contents, SeedBlock.any]

theorem contents_exec {addition : Addition} {store store' : ConfigurationDocs}
    (h : addition.exec store = some store') (block : SeedBlock) :
    store'.contents block =
      store.contents block ++ [addition].filter (fun a => a.block = block) := by
  rw [exec_eq] at h
  cases Option.some.inj h
  cases addition <;> cases block <;>
    simp [ConfigurationDocs.contents, Addition.client?, Addition.identityResource?,
      Addition.apiResource?, Addition.apiScope?, Addition.block]

theorem block_of_mem_additions {lib : IdentityServerModels} {seed : SeedData lib}
    {block : SeedBlock} {a : Addition} (h : a ∈ seed.additions block) : a.block = block := by
  cases block <;>
    (obtain ⟨x, _, rfl⟩ := List.mem_map.mp h
     rfl)

theorem additions_filter {lib : IdentityServerModels} (seed : SeedData lib)
    (block other : SeedBlock) : (seed.additions block).filter (fun a => a.block = other) =
      if block = other then seed.additions block else [] := by
  by_cases h : block = other
  · rw [if_pos h]
    apply List.filter_eq_self.mpr
    intro a ha
    simpa [block_of_mem_additions ha] using h
  · rw [if_neg h]
    apply List.filter_eq_nil_iff.mpr
    intro a ha
    simpa [block_of_mem_additions ha] using h

/-- A list that differs in one place differs there only. -/
theorem split_of_getElem? {α : Type} {xs : List α} {i : Nat} {x : α} (h : xs[i]? = some x) :
    ∃ before after, xs = before ++ x :: after ∧ xs.eraseIdx i = before ++ after ∧
      ∀ y, xs.set i y = before ++ y :: after := by
  induction xs generalizing i with
  | nil => simp at h
  | cons z zs ih =>
    cases i with
    | zero =>
      cases Option.some.inj h
      exact ⟨[], zs, rfl, rfl, fun _ => rfl⟩
    | succ i =>
      obtain ⟨before, after, hsplit, herase, hset⟩ := ih (by simpa using h)
      refine ⟨z :: before, after, by rw [hsplit]; rfl, ?_, ?_⟩
      · rw [List.eraseIdx_cons_succ, herase]
        rfl
      · intro y
        rw [List.set_cons_succ, hset]
        rfl

/-- What was to be added to a collection and failed. -/
def SeedState.lost (s : SeedState) (block : SeedBlock) : List Addition :=
  s.failed.filter (fun a => a.block = block)

theorem outstanding_setHost {s : SeedState} {i : Nat} {host host' : SeedHost}
    (h : s.hosts[i]? = some host) (block : SeedBlock) :
    ((s.setHost i host').outstanding block ++ host.adding.filter (fun a => a.block = block)).Perm
      (s.outstanding block ++ host'.adding.filter (fun a => a.block = block)) := by
  classical
  obtain ⟨before, after, hsplit, _, hset⟩ := split_of_getElem? h
  unfold SeedState.outstanding SeedState.setHost
  rw [hset, hsplit]
  apply List.perm_iff_count.mpr
  intro a
  simp only [List.flatMap_append, List.flatMap_cons, List.filter_append, List.count_append]
  omega

theorem seeders_setHost {s : SeedState} {i : Nat} {host host' : SeedHost}
    (h : s.hosts[i]? = some host) (block : SeedBlock) :
    (s.setHost i host').seeders block + host.seeded.count block =
      s.seeders block + host'.seeded.count block := by
  obtain ⟨before, after, hsplit, _, hset⟩ := split_of_getElem? h
  unfold SeedState.seeders SeedState.setHost
  rw [hset, hsplit]
  simp only [List.flatMap_append, List.flatMap_cons, List.count_append]
  omega

/-- What a step of a host or of the server is to one block. -/
inductive BlockCase {lib : IdentityServerModels} (seed : SeedData lib) (block : SeedBlock)
    (s s' : SeedState) : SeedEvent → Prop
  | same {e} : s'.store.contents block = s.store.contents block →
      (s'.outstanding block).Perm (s.outstanding block) → s'.lost block = s.lost block →
      s'.seeders block = s.seeders block → BlockCase seed block s s' e
  | seeded {i host todo} : s.hosts[i]? = some host → host.todo = block :: todo →
      s.store.contents block = [] → s'.store.contents block = [] →
      (s'.outstanding block).Perm (seed.additions block ++ s.outstanding block) →
      s'.lost block = s.lost block → s'.seeders block = s.seeders block + 1 →
      BlockCase seed block s s' (.any i)
  | inserted {n a} : s'.store.contents block = s.store.contents block ++ [a] →
      (s.outstanding block).Perm (a :: s'.outstanding block) → s'.lost block = s.lost block →
      s'.seeders block = s.seeders block → BlockCase seed block s s' (.insert n)
  | failed {n a} : s'.store.contents block = s.store.contents block →
      (s.outstanding block).Perm (a :: s'.outstanding block) →
      s'.lost block = s.lost block ++ [a] → s'.seeders block = s.seeders block →
      BlockCase seed block s s' (.fail n)

/-- What is outstanding is, but for the order, what is in flight and the rest. -/
theorem outstanding_erase {s s' : SeedState} {n : Nat} {a : Addition}
    (h : s.pending[n]? = some a) (hpending : s'.pending = s.pending.eraseIdx n)
    (hhosts : s'.hosts = s.hosts) (block : SeedBlock) :
    (s.outstanding block).Perm
      ([a].filter (fun a => a.block = block) ++ s'.outstanding block) := by
  classical
  obtain ⟨before, after, hsplit, herase, _⟩ := split_of_getElem? h
  unfold SeedState.outstanding
  rw [hpending, hhosts, herase, hsplit]
  apply List.perm_iff_count.mpr
  intro x
  rw [List.append_cons]
  simp only [List.filter_append, List.count_append]
  omega

/-- What each event comes to. -/
inductive SeedStepCase {lib : IdentityServerModels} (seed : SeedData lib) (s : SeedState) :
    SeedEvent → SeedState → Prop
  | started : SeedStepCase seed s .start { s with hosts := s.hosts ++ [{}] }
  | skipped {i host block todo} : s.hosts[i]? = some host → host.todo = block :: todo →
      block.any s.store = true →
      SeedStepCase seed s (.any i) (s.setHost i { host with todo := todo })
  | seeded {i host block todo} : s.hosts[i]? = some host → host.adding = [] →
      host.todo = block :: todo → block.any s.store = false →
      SeedStepCase seed s (.any i) (s.setHost i { host with
        todo := todo
        adding := seed.additions block
        seeded := block :: host.seeded })
  | threw {i host} : s.hosts[i]? = some host →
      SeedStepCase seed s (.throws i) (s.setHost i { host with threw := true })
  | added {i host addition adding} : s.hosts[i]? = some host → host.adding = addition :: adding →
      SeedStepCase seed s (.add i)
        { s.setHost i { host with adding := adding } with pending := s.pending ++ [addition] }
  | inserted {n addition store} : s.pending[n]? = some addition →
      addition.exec s.store = some store →
      SeedStepCase seed s (.insert n) { s with store := store, pending := s.pending.eraseIdx n }
  | failed {n addition} : s.pending[n]? = some addition →
      SeedStepCase seed s (.fail n)
        { s with pending := s.pending.eraseIdx n, failed := s.failed ++ [addition] }

theorem seedStep_cases {lib : IdentityServerModels} {seed : SeedData lib} {s s' : SeedState}
    {e : SeedEvent} (h : seedStep seed s e = some s') : SeedStepCase seed s e s' := by
  cases e with
  | start =>
    cases Option.some.inj h
    exact SeedStepCase.started
  | any i =>
    obtain ⟨host, hhost, h⟩ := Option.bind_eq_some_iff.mp h
    split at h
    next block todo _ hadding htodo =>
      split at h
      next hany =>
        cases Option.some.inj h
        exact SeedStepCase.skipped hhost htodo hany
      next hempty =>
        cases Option.some.inj h
        exact SeedStepCase.seeded hhost hadding htodo (Bool.not_eq_true _ ▸ hempty)
    next => cases h
  | throws i =>
    obtain ⟨host, hhost, h⟩ := Option.bind_eq_some_iff.mp h
    split at h
    next =>
      cases Option.some.inj h
      exact SeedStepCase.threw hhost
    next => cases h
  | add i =>
    obtain ⟨host, hhost, h⟩ := Option.bind_eq_some_iff.mp h
    split at h
    next addition adding hadding =>
      cases Option.some.inj h
      exact SeedStepCase.added hhost hadding
    next => cases h
  | insert n =>
    obtain ⟨addition, hpending, h⟩ := Option.bind_eq_some_iff.mp h
    obtain ⟨store, hexec, h⟩ := Option.bind_eq_some_iff.mp h
    cases Option.some.inj h
    exact SeedStepCase.inserted hpending hexec
  | fail n =>
    obtain ⟨addition, hpending, h⟩ := Option.bind_eq_some_iff.mp h
    cases Option.some.inj h
    exact SeedStepCase.failed hpending

section Block

variable {lib : IdentityServerModels} {seed : SeedData lib} {s : SeedState} {block : SeedBlock}

/-- A host that adds and has seeded what it had before is the same to every block. -/
theorem block_of_setHost {i : Nat} {host host' : SeedHost} {e : SeedEvent}
    (hhost : s.hosts[i]? = some host) (hadding : host'.adding = host.adding)
    (hseeded : host'.seeded = host.seeded) : BlockCase seed block s (s.setHost i host') e := by
  have hsame := @outstanding_setHost s i host host' hhost block
  have hcount := @seeders_setHost s i host host' hhost block
  rw [hadding] at hsame
  rw [hseeded] at hcount
  exact BlockCase.same rfl ((List.perm_append_right_iff _).mp hsame) rfl
    (Nat.add_right_cancel hcount)

theorem block_of_seeded {i : Nat} {host : SeedHost} {asked : SeedBlock} {todo : List SeedBlock}
    (hhost : s.hosts[i]? = some host) (hadding : host.adding = []) (htodo : host.todo = asked :: todo)
    (hempty : asked.any s.store = false) :
    BlockCase seed block s (s.setHost i { host with
      todo := todo, adding := seed.additions asked, seeded := asked :: host.seeded }) (.any i) := by
  have hadded := @outstanding_setHost s i host { host with
    todo := todo, adding := seed.additions asked, seeded := asked :: host.seeded } hhost block
  have hcount := @seeders_setHost s i host { host with
    todo := todo, adding := seed.additions asked, seeded := asked :: host.seeded } hhost block
  rw [hadding, List.filter_nil, List.append_nil, additions_filter] at hadded
  rw [List.count_cons] at hcount
  by_cases hb : asked = block
  · subst asked
    have hnil := contents_eq_nil_iff.mpr hempty
    rw [if_pos rfl] at hadded
    simp only [BEq.rfl, if_true] at hcount
    exact BlockCase.seeded hhost htodo hnil hnil (hadded.trans List.perm_append_comm) rfl (by omega)
  · rw [if_neg hb, List.append_nil] at hadded
    have hne : (asked == block) = false := by simpa using hb
    simp only [hne, Bool.false_eq_true, if_false, Nat.add_zero] at hcount
    exact BlockCase.same rfl hadded rfl (by omega)

/-- What a host hands over is outstanding as before. -/
theorem block_of_added {i : Nat} {host : SeedHost} {addition : Addition} {adding : List Addition}
    (hhost : s.hosts[i]? = some host) (hadding : host.adding = addition :: adding) :
    BlockCase seed block s
      { s.setHost i { host with adding := adding } with pending := s.pending ++ [addition] }
      (.add i) := by
  classical
  have hsame := @outstanding_setHost s i host { host with adding := adding } hhost block
  have hcount := @seeders_setHost s i host { host with adding := adding } hhost block
  refine BlockCase.same rfl ?_ rfl (Nat.add_right_cancel hcount)
  rw [hadding] at hsame
  apply List.perm_iff_count.mpr
  intro a
  have ha := List.perm_iff_count.mp hsame a
  have hcons : (addition :: adding).filter (fun a => a.block = block) =
      [addition].filter (fun a => a.block = block) ++ adding.filter (fun a => a.block = block) := by
    rw [← List.filter_append]
    rfl
  rw [hcons] at ha
  simp only [SeedState.outstanding, SeedState.setHost, List.filter_append, List.count_append] at ha ⊢
  omega

theorem block_of_inserted {n : Nat} {addition : Addition} {store : ConfigurationDocs}
    (hpending : s.pending[n]? = some addition) (hexec : addition.exec s.store = some store) :
    BlockCase seed block s { s with store := store, pending := s.pending.eraseIdx n }
      (.insert n) := by
  have hcontents := contents_exec hexec block
  have herase := @outstanding_erase s { s with store := store, pending := s.pending.eraseIdx n }
    n addition hpending rfl rfl block
  by_cases hb : addition.block = block
  · rw [List.filter_cons_of_pos (by simpa using hb)] at hcontents herase
    exact BlockCase.inserted hcontents herase rfl rfl
  · rw [List.filter_cons_of_neg (by simpa using hb)] at hcontents herase
    rw [List.filter_nil, List.append_nil] at hcontents
    exact BlockCase.same hcontents herase.symm rfl rfl

theorem block_of_failed {n : Nat} {addition : Addition} (hpending : s.pending[n]? = some addition) :
    BlockCase seed block s
      { s with pending := s.pending.eraseIdx n, failed := s.failed ++ [addition] } (.fail n) := by
  have herase := @outstanding_erase s
    { s with pending := s.pending.eraseIdx n, failed := s.failed ++ [addition] }
    n addition hpending rfl rfl block
  by_cases hb : addition.block = block
  · rw [List.filter_cons_of_pos (by simpa using hb)] at herase
    refine BlockCase.failed rfl herase ?_ rfl
    simp [SeedState.lost, hb]
  · rw [List.filter_cons_of_neg (by simpa using hb)] at herase
    refine BlockCase.same rfl herase.symm ?_ rfl
    simp [SeedState.lost, hb]

end Block

theorem block_of_step {lib : IdentityServerModels} {seed : SeedData lib} {s s' : SeedState}
    {e : SeedEvent} (h : seedStep seed s e = some s') (block : SeedBlock) :
    BlockCase seed block s s' e := by
  cases seedStep_cases h with
  | started =>
    refine BlockCase.same rfl ?_ rfl ?_
    · simp [SeedState.outstanding]
    · simp [SeedState.seeders]
  | skipped hhost => exact block_of_setHost hhost rfl rfl
  | seeded hhost hadding htodo hempty => exact block_of_seeded hhost hadding htodo hempty
  | threw hhost => exact block_of_setHost hhost rfl rfl
  | added hhost hadding => exact block_of_added hhost hadding
  | inserted hpending hexec => exact block_of_inserted hpending hexec
  | failed hpending => exact block_of_failed hpending

end IdentityServerMongoDB
