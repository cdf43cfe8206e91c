import IdentityServerMongoDB.GrantEffects
import IdentityServerMongoDB.GrantMap
import Mathlib.Data.List.Forall2

namespace IdentityServerMongoDB

/-- A call at its place in a serial order: the calls that had ended when it was
made, and the clock it goes by. -/
structure SerialCall where
  id : CallId
  call : GrantCall
  ended : CallId → Bool
  utcNow : DateTime

/-- The calls of an order on an empty collection, each finished before the next. -/
def serialRun (order : List SerialCall) : List GrantResult × GrantDocs :=
  execAll (order.map (fun a => (a.call, a.utcNow))) []

/-- A call of the order was made and took effect, its clock is one it can have
read, and what it returns there is what its caller gets. -/
def SerialCall.Agrees (s : GrantState) (a : SerialCall) (result : GrantResult) : Prop :=
  ∃ c, s.calls a.id = some c ∧ c.call = a.call ∧ c.ended = a.ended ∧ c.pc.TookEffect ∧
    c.asked ≤ a.utcNow ∧ a.utcNow ≤ s.utcNow ∧ c.Gets result

/-- The calls that took effect can have been executed one at a time in this
order. A call stands before those made after it had ended, but for one that
started a delete, whose caller does not wait for it. -/
structure SerialOrder (s : GrantState) (order : List SerialCall) : Prop where
  once : (order.map SerialCall.id).Nodup
  complete : ∀ i c, s.calls i = some c → c.pc.TookEffect → i ∈ order.map SerialCall.id
  docs : s.docs.map Doc.grant = (serialRun order).2
  results : List.Forall₂ (SerialCall.Agrees s) order (serialRun order).1
  realTime : order.Pairwise (fun a b => a.ended b.id = true → b.call.StartsDelete)

theorem execAll_append (calls more : List (GrantCall × DateTime)) (docs : GrantDocs) :
    execAll (calls ++ more) docs =
      ((execAll calls docs).1 ++ (execAll more (execAll calls docs).2).1,
        (execAll more (execAll calls docs).2).2) := by
  induction calls generalizing docs with
  | nil => rfl
  | cons entry calls ih =>
    obtain ⟨call, utcNow⟩ := entry
    rw [List.cons_append, execAll_cons, execAll_cons, ih]
    rfl

theorem serialRun_append (order : List SerialCall) (a : SerialCall) :
    serialRun (order ++ [a]) =
      ((serialRun order).1 ++ [(a.call.exec a.utcNow (serialRun order).2).1],
        (a.call.exec a.utcNow (serialRun order).2).2) := by
  unfold serialRun
  rw [List.map_append, execAll_append]
  rfl

theorem exists_of_forall₂ {α β : Type} {R : α → β → Prop} {xs : List α} {ys : List β}
    (h : List.Forall₂ R xs ys) {x : α} (hx : x ∈ xs) : ∃ y, R x y := by
  induction h with
  | nil => cases hx
  | @cons a b xs ys hab _ ih =>
    rcases List.mem_cons.mp hx with rfl | hx
    · exact ⟨b, hab⟩
    · exact ih hx

theorem agrees_step {s s' : GrantState} {e : GrantEvent} (h : GrantStepCase s e s') {a : SerialCall}
    {result : GrantResult} (ha : a.Agrees s result) : a.Agrees s' result := by
  obtain ⟨c, hc, hcall, hended, hp, hasked, hnow, hgets⟩ := ha
  obtain ⟨c', hc', hs⟩ := settles_of_step h hc hp
  rw [← hs.asked] at hasked
  exact ⟨c', hc', hs.call.trans hcall, hs.ended.trans hended, hs.tookEffect, hasked,
    Nat.le_trans hnow (utcNow_step h), hs.gets result hgets⟩

theorem SerialOrder.kept {s s' : GrantState} {e : GrantEvent} {order : List SerialCall}
    (ho : SerialOrder s order) (h : GrantStepCase s e s') (hdocs : s'.docs = s.docs)
    (silent : ∀ i c', s'.calls i = some c' → c'.pc.TookEffect →
      ∃ c, s.calls i = some c ∧ c.pc.TookEffect) : SerialOrder s' order := by
  refine ⟨ho.once, ?_, ?_, ?_, ho.realTime⟩
  · intro i c' hc' hp'
    obtain ⟨c, hc, hp⟩ := silent i c' hc' hp'
    exact ho.complete i c hc hp
  · rw [hdocs]
    exact ho.docs
  · exact ho.results.imp (fun _ _ ha => agrees_step h ha)

/-- A call that takes effect comes last. -/
theorem SerialOrder.extended {guard : GrantState → GrantEvent → Prop} {s s' : GrantState}
    {e : GrantEvent} {order : List SerialCall} (reach : GrantReach guard s)
    (ho : SerialOrder s order) (h : GrantStepCase s e s') {i : CallId} {c' : CallState}
    {utcNow : DateTime} (hc' : s'.calls i = some c')
    (pending : ∀ c, s.calls i = some c → ¬c.pc.TookEffect ∧ c.pc ≠ .failed)
    (others : ∀ j, j ≠ i → s'.calls j = s.calls j) (hasked : c'.asked ≤ utcNow)
    (hnow : utcNow ≤ s'.utcNow) (hexec : Executes s.docs s'.docs c' utcNow) :
    SerialOrder s' (order ++ [⟨i, c'.call, c'.ended, utcNow⟩]) := by
  have hleaves := hexec.leaves
  have hgets := hexec.gets
  rw [ho.docs] at hleaves hgets
  have hlater : ∀ a ∈ order, a.id ≠ i ∧ (a.ended i = true → c'.call.StartsDelete) := by
    intro a ha
    obtain ⟨result, c, hc, _, hended, hp, _⟩ := exists_of_forall₂ ho.results ha
    refine ⟨?_, ?_⟩
    · intro hid
      rw [hid] at hc
      exact (pending c hc).1 hp
    · intro hai
      rw [← hended] at hai
      obtain ⟨d, hd, hsettled⟩ := settled_of_ended reach hc hai
      obtain ⟨hnot, hlive⟩ := pending d hd
      rw [(evolves_of_step h hd hc').call]
      exact hsettled.resolve_right (fun hor => hor.elim hnot hlive)
  refine ⟨?_, ?_, ?_, ?_, ?_⟩
  · rw [List.map_append]
    refine List.nodup_append.mpr ⟨ho.once, List.nodup_singleton _, ?_⟩
    intro x hx y hy
    obtain ⟨a, ha, rfl⟩ := List.mem_map.mp hx
    cases List.mem_singleton.mp hy
    exact (hlater a ha).1
  · intro j d hd hp
    rw [List.map_append, List.mem_append]
    by_cases hj : j = i
    · exact Or.inr (List.mem_singleton.mpr hj)
    · rw [others j hj] at hd
      exact Or.inl (ho.complete j d hd hp)
  · rw [serialRun_append]
    exact hleaves
  · rw [serialRun_append]
    refine List.rel_append (ho.results.imp (fun _ _ ha => agrees_step h ha)) ?_
    refine List.Forall₂.cons ?_ List.Forall₂.nil
    exact ⟨c', hc', rfl, rfl, hexec.tookEffect, hasked, hnow, hgets⟩
  · refine List.pairwise_append.mpr ⟨ho.realTime, List.pairwise_singleton _ _, ?_⟩
    intro a ha b hb
    cases List.mem_singleton.mp hb
    exact (hlater a ha).2

/-- A call is refused at once, or is not over before it waits. -/
theorem start_cases (call : GrantCall) :
    ¬call.start.1.TookEffect ∨ ∃ e, call.start = (.finished, .faulted) ∧
      ∀ utcNow docs, call.exec utcNow docs = (.thrown e, docs) := by
  cases call with
  | getAllAsync filter =>
    cases hv : validate filter with
    | ok f => exact Or.inl (by simp [GrantCall.start, hv, Pc.TookEffect])
    | error e =>
      exact Or.inr ⟨e, by simp [GrantCall.start, hv],
        fun _ _ => by simp [GrantCall.exec, getAllAsync, hv]⟩
  | removeAllAsync filter =>
    cases hv : validate filter with
    | ok f => exact Or.inl (by simp [GrantCall.start, hv, Pc.TookEffect])
    | error e =>
      exact Or.inr ⟨e, by simp [GrantCall.start, hv],
        fun _ _ => by simp [GrantCall.exec, removeAllAsync, hv]⟩
  | _ => exact Or.inl id

theorem tookEffect_before_resume {utcNow : DateTime} {c c' : CallState}
    (h : ResumeCase utcNow c c') (hp : c'.pc.TookEffect) : c.pc.TookEffect := by
  cases h with
  | stored hpc => rw [hpc]; trivial
  | none hpc => rw [hpc]; trivial
  | cleaned hpc => rw [hpc]; trivial
  | asked => exact hp.elim
  | some => exact hp.elim

theorem serialOrder_step {s s' : GrantState} {e : GrantEvent} {order : List SerialCall}
    (reach : GrantReach NoRivalUpsert s) (ho : SerialOrder s order) (h : GrantStepCase s e s') :
    ∃ added, SerialOrder s' (order ++ added) := by
  have kept : SerialOrder s' order → ∃ added, SerialOrder s' (order ++ added) := by
    intro hs
    exact ⟨[], by rwa [List.append_nil]⟩
  have update : ∀ {i : CallId} {c' : CallState} {docs : List Doc},
      (c'.pc.TookEffect → ∃ c, s.calls i = some c ∧ c.pc.TookEffect) →
      ∀ j d, (s.set i c' docs).calls j = some d → d.pc.TookEffect →
        ∃ c, s.calls j = some c ∧ c.pc.TookEffect := by
    intro i c' docs hi j d hd hp
    rcases set_calls_some hd with ⟨rfl, rfl⟩ | ⟨_, hold⟩
    · exact hi hp
    · exact ⟨d, hold, hp⟩
  cases h with
  | @called i call hn =>
    rcases start_cases call with hwaits | ⟨e, hstart, hrefused⟩
    · exact kept (ho.kept (.called call hn) rfl (update (fun hp => absurd hp hwaits)))
    · refine ⟨_, ho.extended reach (.called call hn) (set_calls_self ..) ?_
        (fun j hj => set_calls_other s hj _ _) (Nat.zero_le _) (Nat.le_refl s.utcNow) ?_⟩
      · intro c hc
        rw [hn] at hc
        cases hc
      · have hexec := hrefused s.utcNow (s.docs.map Doc.grant)
        have hcall : (s.newCall call (.finished, .faulted)).call = call := rfl
        rw [hstart]
        refine executes_of_call hcall trivial ?_ ?_
        · rw [hexec]
          rfl
        · rw [hexec]
          rfl
  | @threw i call hn =>
    refine kept (ho.kept (.threw call hn) rfl (update ?_))
    intro hp
    rw [thrownCall_pc] at hp
    exact hp.elim
  | @effected i c c' docs hc he =>
    rcases effect_executes reach hc he with ⟨hdocs, hnot⟩ | ⟨utcNow, hasked, hnow, hexec⟩
    · exact kept (ho.kept (.effected hc he) hdocs (update (fun hp => absurd hp hnot)))
    · refine ⟨_, ho.extended reach (.effected hc he) (set_calls_self ..) ?_
        (fun j hj => set_calls_other s hj _ _) hasked hnow hexec⟩
      intro d hd
      rw [hc] at hd
      cases Option.some.inj hd
      exact pending_of_effect he
  | @resumed i c c' hc hr =>
    exact kept (ho.kept (.resumed hc hr) rfl
      (update (fun hp => ⟨c, hc, tookEffect_before_resume hr hp⟩)))
  | @failed i c c' hc hf =>
    refine kept (ho.kept (.failed hc hf) rfl (update ?_))
    intro hp
    cases hf <;> exact hp.elim
  | ticked hle => exact kept (ho.kept (.ticked hle) rfl (fun i c hc hp => ⟨c, hc, hp⟩))

/-- In every run in which no two upserts of one key are both about to insert,
the calls can have been executed one at a time: there is an order of those that
took effect with the collection and the results of the run, and where no filter
asks for a session they are those of the map the store is for. -/
theorem grantStore_serializable {s : GrantState} (reach : GrantReach NoRivalUpsert s) :
    ∃ order, SerialOrder s order ∧
      ((∀ a ∈ order, a.call.SessionBlank) →
        List.Forall₂ SameResult (serialRun order).1
          (specAll (order.map (fun a => (a.call, a.utcNow))) FiniteMap.empty).1 ∧
        RepresentsGrants (s.docs.map Doc.grant)
          (specAll (order.map (fun a => (a.call, a.utcNow))) FiniteMap.empty).2) := by
  have hserial : ∃ order, SerialOrder s order := by
    induction reach with
    | start =>
      exact ⟨[], List.nodup_nil, by simp [grantInit], rfl, List.Forall₂.nil, List.Pairwise.nil⟩
    | next prior _ step ih =>
      obtain ⟨order, ho⟩ := ih
      obtain ⟨added, ho'⟩ := serialOrder_step prior ho (grantStep_cases step)
      exact ⟨order ++ added, ho'⟩
  obtain ⟨order, ho⟩ := hserial
  refine ⟨order, ho, ?_⟩
  intro hblank
  rw [ho.docs]
  refine specAll_of_execAll ?_ (Represents.empty _ _)
  intro entry hentry
  obtain ⟨a, ha, rfl⟩ := List.mem_map.mp hentry
  exact hblank a ha

theorem grantStore_serializable_two_stores :
    ∃ s, runAll grantStep grantInit storeTwiceRun = some s ∧ ∃ order, SerialOrder s order := by
  refine ⟨_, rfl, ?_⟩
  obtain ⟨order, ho, _⟩ :=
    grantStore_serializable (Reach.start.of_guardedRun storeTwiceRun_guarded rfl)
  exact ⟨order, ho⟩

end IdentityServerMongoDB
