import IdentityServerMongoDB.RegistrationCalls

namespace IdentityServerMongoDB

abbrev BuilderId := Nat

/-- One table of class maps, and builders with services of their own. -/
structure Process (fw : Frameworks) where
  classMaps : ClassMaps
  services : BuilderId → List (ServiceDescriptor fw)

structure BuilderCall (fw : Frameworks) where
  builder : BuilderId
  call : RegistrationCall fw

def BuilderCall.exec {fw : Frameworks} (c : BuilderCall fw) (p : Process fw) :
    Except Exception Unit × Process fw :=
  let (result, s) := c.call.exec ⟨p.classMaps, p.services c.builder⟩
  (result, ⟨s.classMaps, Function.update p.services c.builder s.services⟩)

/-- One call after another. That one has thrown does not keep other hosts from theirs. -/
def runCalls {fw : Frameworks} : List (BuilderCall fw) → Process fw →
    List (Except Exception Unit) × Process fw
  | [], p => ([], p)
  | c :: calls, p =>
    let (result, next) := c.exec p
    let (results, final) := runCalls calls next
    (result :: results, final)

def EveryCallSucceeds {fw : Frameworks} (calls : List (BuilderCall fw)) (p : Process fw) : Prop :=
  ∀ result ∈ (runCalls calls p).1, result = .ok ()

/-- A call that throws has changed nothing. -/
def AllOrNothing {fw : Frameworks} (calls : List (BuilderCall fw)) (p : Process fw) : Prop :=
  ∀ before c after, calls = before ++ c :: after →
    ∀ ex, (c.exec (runCalls before p).2).1 = .error ex →
      (c.exec (runCalls before p).2).2 = (runCalls before p).2

/-- Every call succeeds and leaves its types with the one class map a type can have,
and a call that throws has changed nothing. -/
structure RegistersCleanly {fw : Frameworks} (calls : List (BuilderCall fw)) (p : Process fw) :
    Prop where
  succeeds : EveryCallSucceeds calls p
  mapped : ∀ c ∈ calls, ∀ type ∈ c.call.types, (runCalls calls p).2.classMaps type ≠ none
  allOrNothing : AllOrNothing calls p

/-- No type has a class map yet that is concerned, none is concerned twice, and no action throws. -/
structure TypesFree {fw : Frameworks} (calls : List (BuilderCall fw)) (classMaps : ClassMaps) :
    Prop where
  free : ∀ c ∈ calls, ∀ type ∈ c.call.types, classMaps type = none
  once : (calls.flatMap (fun c => c.call.types)).Nodup
  invokes : ∀ c ∈ calls, c.call.Invokes

section Run

variable {fw : Frameworks}

theorem everyCallSucceeds_cons {c : BuilderCall fw} {calls : List (BuilderCall fw)}
    {p : Process fw} : EveryCallSucceeds (c :: calls) p ↔
      (c.exec p).1 = .ok () ∧ EveryCallSucceeds calls (c.exec p).2 := by
  simp [EveryCallSucceeds, runCalls]

theorem typesFree_cons {c : BuilderCall fw} {calls : List (BuilderCall fw)}
    {classMaps next : ClassMaps}
    (hnext : ∀ type, next type = none ↔ classMaps type = none ∧ type ∉ c.call.types) :
    TypesFree (c :: calls) classMaps ↔
      ((∀ type ∈ c.call.types, classMaps type = none) ∧ c.call.Invokes) ∧
        TypesFree calls next := by
  constructor
  · intro h
    have hnodup := List.nodup_append.mp h.once
    refine ⟨⟨h.free c (by simp), h.invokes c (by simp)⟩, ?_, hnodup.2.1, ?_⟩
    · intro d hd type htype
      apply (hnext type).mpr
      refine ⟨h.free d (List.mem_cons_of_mem c hd) type htype, ?_⟩
      intro hmem
      exact hnodup.2.2 type hmem type (List.mem_flatMap.mpr ⟨d, hd, htype⟩) rfl
    · exact fun d hd => h.invokes d (List.mem_cons_of_mem c hd)
  · rintro ⟨⟨hfree, hinvokes⟩, h⟩
    refine ⟨?_, ?_, ?_⟩
    · intro d hd type htype
      rcases List.mem_cons.mp hd with rfl | hd
      · exact hfree type htype
      · exact ((hnext type).mp (h.free d hd type htype)).1
    · refine List.nodup_append.mpr ⟨types_nodup c.call, h.once, ?_⟩
      intro type hmem other hother heq
      subst heq
      obtain ⟨d, hd, htype⟩ := List.mem_flatMap.mp hother
      exact ((hnext type).mp (h.free d hd type htype)).2 hmem
    · intro d hd
      rcases List.mem_cons.mp hd with rfl | hd
      · exact hinvokes
      · exact h.invokes d hd

theorem everyCallSucceeds_iff (calls : List (BuilderCall fw)) (p : Process fw) :
    EveryCallSucceeds calls p ↔ TypesFree calls p.classMaps := by
  induction calls generalizing p with
  | nil => exact iff_of_true (by simp [EveryCallSucceeds, runCalls]) ⟨by simp, by simp, by simp⟩
  | cons c calls ih =>
    have hok : (c.exec p).1 = .ok () ↔
        (∀ type ∈ c.call.types, p.classMaps type = none) ∧ c.call.Invokes := exec_ok_iff
    rw [everyCallSucceeds_cons, ih, hok]
    by_cases hruns : (∀ type ∈ c.call.types, p.classMaps type = none) ∧ c.call.Invokes
    · have hnext : ∀ type, (c.exec p).2.classMaps type = none ↔
          p.classMaps type = none ∧ type ∉ c.call.types := (exec_of_free hruns.1 hruns.2).2
      exact (typesFree_cons hnext).symm
    · apply iff_of_false (fun h => hruns h.1)
      intro h
      exact hruns ⟨h.free c (by simp), h.invokes c (by simp)⟩

/-- Where every call succeeds, what has no class map in the end had none before and is of no call. -/
theorem classMaps_of_run {calls : List (BuilderCall fw)} {p : Process fw}
    (h : EveryCallSucceeds calls p) (type : EntityType) :
    (runCalls calls p).2.classMaps type = none ↔
      p.classMaps type = none ∧ ∀ c ∈ calls, type ∉ c.call.types := by
  induction calls generalizing p with
  | nil => simp [runCalls]
  | cons c calls ih =>
    obtain ⟨hok, hrest⟩ := everyCallSucceeds_cons.mp h
    obtain ⟨hfree, hinvokes⟩ := exec_ok_iff.mp hok
    have hnext : (c.exec p).2.classMaps type = none ↔
        p.classMaps type = none ∧ type ∉ c.call.types := (exec_of_free hfree hinvokes).2 type
    have hrun : (runCalls (c :: calls) p).2 = (runCalls calls (c.exec p).2).2 := rfl
    rw [hrun, ih hrest, hnext, List.forall_mem_cons, and_assoc]

theorem mem_results_iff {calls : List (BuilderCall fw)} {p : Process fw}
    {result : Except Exception Unit} : result ∈ (runCalls calls p).1 ↔
      ∃ before c after, calls = before ++ c :: after ∧
        (c.exec (runCalls before p).2).1 = result := by
  induction calls generalizing p with
  | nil => simp [runCalls]
  | cons d calls ih =>
    have hrun : (runCalls (d :: calls) p).1 = (d.exec p).1 :: (runCalls calls (d.exec p).2).1 := rfl
    rw [hrun, List.mem_cons, ih]
    constructor
    · rintro (rfl | ⟨before, c, after, rfl, hresult⟩)
      · exact ⟨[], d, calls, rfl, rfl⟩
      · exact ⟨d :: before, c, after, rfl, hresult⟩
    · rintro ⟨before, c, after, heq, hresult⟩
      cases before with
      | nil =>
        cases heq
        exact Or.inl hresult.symm
      | cons b before =>
        cases heq
        exact Or.inr ⟨before, c, after, rfl, hresult⟩

theorem exec_ne_self (c : BuilderCall fw) (p : Process fw) : (c.exec p).2 ≠ p := by
  intro heq
  have hservices := congrArg (fun q => q.services c.builder) heq
  have hadds := exec_adds_services c.call ⟨p.classMaps, p.services c.builder⟩
  simp only [BuilderCall.exec, Function.update_self] at hservices
  rw [hservices] at hadds
  exact Nat.lt_irrefl _ hadds

/-- A call that throws has always changed something, so all or nothing comes to no call throwing. -/
theorem allOrNothing_iff {calls : List (BuilderCall fw)} {p : Process fw} :
    AllOrNothing calls p ↔ EveryCallSucceeds calls p := by
  constructor
  · intro h result hmem
    obtain ⟨before, c, after, hsplit, hresult⟩ := mem_results_iff.mp hmem
    cases result with
    | ok u => rfl
    | error ex => exact absurd (h before c after hsplit ex hresult) (exec_ne_self c _)
  · intro h before c after hsplit ex herror
    have hok := h _ (mem_results_iff.mpr ⟨before, c, after, hsplit, rfl⟩)
    rw [herror] at hok
    cases hok

end Run

/-- Registration is clean exactly where each type concerned is registered for the first time. -/
theorem registersCleanly_iff {fw : Frameworks} (calls : List (BuilderCall fw)) (p : Process fw) :
    RegistersCleanly calls p ↔ TypesFree calls p.classMaps := by
  rw [← everyCallSucceeds_iff]
  constructor
  · exact fun h => h.succeeds
  · intro h
    refine ⟨h, ?_, allOrNothing_iff.mpr h⟩
    intro c hc type htype hnone
    exact ((classMaps_of_run h type).mp hnone).2 c hc htype

/-- A second host in the process adds its configuration store, and its call throws. -/
theorem second_host_not_registersCleanly :
    ¬∀ (fw : Frameworks) (calls : List (BuilderCall fw)) (p : Process fw),
      RegistersCleanly calls p := by
  intro h
  have hclean := h ⟨Unit, Unit, fun _ settings => .ok settings, fun _ => .ok none⟩
    [⟨0, .addConfigurationStore (.configuration ())⟩,
      ⟨1, .addConfigurationStore (.configuration ())⟩]
    ⟨fun _ => none, fun _ => []⟩
  have hfree := (everyCallSucceeds_iff _ _).mp hclean.succeeds
  exact absurd hfree.once (by decide)

end IdentityServerMongoDB
