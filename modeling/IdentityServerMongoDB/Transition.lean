import Mathlib.Init

namespace IdentityServerMongoDB

/-- The states reached from an initial one by steps that a guard lets pass. -/
inductive Reach {σ ε : Type} (step : σ → ε → Option σ) (guard : σ → ε → Prop) (init : σ) : σ → Prop
  | start : Reach step guard init init
  | next {s s' : σ} {e : ε} : Reach step guard init s → guard s e → step s e = some s' →
      Reach step guard init s'

/-- No step is ruled out. -/
def anyStep {σ ε : Type} (_ : σ) (_ : ε) : Prop := True

def runAll {σ ε : Type} (step : σ → ε → Option σ) : σ → List ε → Option σ
  | s, [] => some s
  | s, e :: es =>
    match step s e with
    | none => none
    | some s' => runAll step s' es

theorem Reach.invariant {σ ε : Type} {step : σ → ε → Option σ} {guard : σ → ε → Prop} {init s : σ}
    {I : σ → Prop} (start : I init)
    (preserved : ∀ s e s', I s → guard s e → step s e = some s' → I s')
    (reach : Reach step guard init s) : I s := by
  induction reach with
  | start => exact start
  | next _ hg hs ih => exact preserved _ _ _ ih hg hs

/-- The guard passes every step of the run. -/
def GuardedRun {σ ε : Type} (step : σ → ε → Option σ) (guard : σ → ε → Prop) : σ → List ε → Prop
  | _, [] => True
  | s, e :: es => guard s e ∧ ∀ s', step s e = some s' → GuardedRun step guard s' es

theorem Reach.of_guardedRun {σ ε : Type} {step : σ → ε → Option σ} {guard : σ → ε → Prop}
    {init s s' : σ} {es : List ε} (reach : Reach step guard init s)
    (hg : GuardedRun step guard s es) (h : runAll step s es = some s') :
    Reach step guard init s' := by
  induction es generalizing s with
  | nil =>
    cases Option.some.inj h
    exact reach
  | cons e es ih =>
    simp only [runAll] at h
    split at h
    next => simp at h
    next next hn => exact ih (reach.next hg.1 hn) (hg.2 next hn) h

theorem guardedRun_anyStep {σ ε : Type} (step : σ → ε → Option σ) (s : σ) (es : List ε) :
    GuardedRun step anyStep s es := by
  induction es generalizing s with
  | nil => trivial
  | cons e es ih => exact ⟨trivial, fun s' _ => ih s'⟩

theorem Reach.of_runAll {σ ε : Type} {step : σ → ε → Option σ} {init s s' : σ} {es : List ε}
    (reach : Reach step anyStep init s) (h : runAll step s es = some s') :
    Reach step anyStep init s' :=
  reach.of_guardedRun (guardedRun_anyStep step s es) h

theorem exists_reach_of_runAll {σ ε : Type} {step : σ → ε → Option σ} {init : σ} (es : List ε)
    (p : σ → Bool) (h : (runAll step init es).any p = true) :
    ∃ s, Reach step anyStep init s ∧ p s = true := by
  obtain ⟨s, hs, hp⟩ := (Option.any_eq_true _ _).mp h
  exact ⟨s, Reach.start.of_runAll hs, hp⟩

end IdentityServerMongoDB
