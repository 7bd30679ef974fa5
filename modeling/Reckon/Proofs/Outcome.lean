import Reckon.Outcome

namespace Reckon

/-!
# Reasoning about outcomes

`Outcome.Meets` says of an operation that it is not aborted and that its result satisfies a
condition.  `Outcome.FailsOnly` says for which reasons it may fail.  Both are kept by operations
that follow each other.
-/

namespace Outcome

variable {Failure Other Result Next : Type}

/-- The operation is not aborted, and the result that it gives satisfies a condition. -/
def Meets (condition : Result → Prop) : Outcome Failure Result → Prop
  | .done result => condition result
  | .failed _ => True
  | .aborted => False

@[simp] theorem meets_done
    {condition : Result → Prop}
    {result : Result} :
    (done result : Outcome Failure Result).Meets condition ↔ condition result :=
  Iff.rfl

@[simp] theorem meets_failed
    {condition : Result → Prop}
    {failure : Failure} :
    (failed failure : Outcome Failure Result).Meets condition :=
  True.intro

/-- Conditions on the result do not depend on how a failure is told. -/
@[simp] theorem meets_mapFailure_iff
    {condition : Result → Prop}
    {change : Failure → Other}
    {outcome : Outcome Failure Result} :
    (outcome.mapFailure change).Meets condition ↔ outcome.Meets condition := by
  cases outcome <;> rfl

@[simp] theorem done_bind
    (result : Result)
    (next : Result → Outcome Failure Next) :
    (done result >>= next) = next result :=
  rfl

@[simp] theorem failed_bind
    (failure : Failure)
    (next : Result → Outcome Failure Next) :
    (failed failure >>= next) = failed failure :=
  rfl

@[simp] theorem aborted_bind
    (next : Result → Outcome Failure Next) :
    ((aborted : Outcome Failure Result) >>= next) = aborted :=
  rfl

/-- Operations that follow each other give a result when each of them does. -/
theorem bind_eq_done_iff
    {outcome : Outcome Failure Result}
    {next : Result → Outcome Failure Next}
    {last : Next} :
    (outcome >>= next) = done last ↔
      ∃ result, outcome = done result ∧ next result = done last := by
  cases outcome <;> simp

/-- Rewording failures changes no results. -/
theorem mapFailure_eq_done_iff
    {change : Failure → Other}
    {outcome : Outcome Failure Result}
    {result : Result} :
    outcome.mapFailure change = done result ↔ outcome = done result := by
  cases outcome <;> simp [mapFailure]

instance : LawfulMonad (Outcome Failure) :=
  LawfulMonad.mk'
    (Outcome Failure)
    (by rintro _ (_ | _ | _) <;> rfl)
    (fun _ _ => rfl)
    (by rintro _ _ _ (_ | _ | _) _ _ <;> rfl)

namespace Meets

/-- What follows an operation may rely on the condition that its result satisfies. -/
theorem bind
    {condition : Result → Prop}
    {wanted : Next → Prop}
    {outcome : Outcome Failure Result}
    {next : Result → Outcome Failure Next}
    (first : outcome.Meets condition)
    (following : ∀ result, condition result → (next result).Meets wanted) :
    (outcome >>= next).Meets wanted := by
  cases outcome with
  | done result =>
      exact following result first
  | failed failure =>
      exact True.intro
  | aborted =>
      exact first.elim

/-- What meets a condition meets any weaker one. -/
theorem weaken
    {condition wanted : Result → Prop}
    {outcome : Outcome Failure Result}
    (met : outcome.Meets condition)
    (implied : ∀ result, condition result → wanted result) :
    outcome.Meets wanted := by
  cases outcome with
  | done result =>
      exact implied result met
  | failed failure =>
      exact True.intro
  | aborted =>
      exact met

/-- What every result satisfies can be added to the condition. -/
theorem and_of_done
    {condition wanted : Result → Prop}
    {outcome : Outcome Failure Result}
    (met : outcome.Meets condition)
    (implied : ∀ result, outcome = .done result → wanted result) :
    outcome.Meets fun result => condition result ∧ wanted result := by
  cases outcome with
  | done result =>
      exact ⟨met, implied result rfl⟩
  | failed failure =>
      exact True.intro
  | aborted =>
      exact met

theorem ne_aborted
    {condition : Result → Prop}
    {outcome : Outcome Failure Result}
    (met : outcome.Meets condition) :
    outcome ≠ .aborted := by
  rintro rfl
  exact met

end Meets

/-- If the operation fails, the reason satisfies a condition. -/
def FailsOnly (allowed : Failure → Prop) : Outcome Failure Result → Prop
  | .failed failure => allowed failure
  | _ => True

/-- What is allowed of a failure is allowed of the failure as it was told before. -/
theorem failsOnly_mapFailure_iff
    {allowed : Other → Prop}
    {change : Failure → Other}
    {outcome : Outcome Failure Result} :
    (outcome.mapFailure change).FailsOnly allowed ↔
      outcome.FailsOnly fun failure => allowed (change failure) := by
  cases outcome <;> rfl

namespace FailsOnly

/-- Operations that follow each other fail for the reasons for which each of them does. -/
theorem bind
    {allowed : Failure → Prop}
    {outcome : Outcome Failure Result}
    {next : Result → Outcome Failure Next}
    (first : outcome.FailsOnly allowed)
    (following : ∀ result, (next result).FailsOnly allowed) :
    (outcome >>= next).FailsOnly allowed := by
  cases outcome with
  | done result =>
      exact following result
  | failed failure =>
      exact first
  | aborted =>
      exact True.intro

/-- What follows an operation may rely on the condition that its result satisfies. -/
theorem bind_of_meets
    {allowed : Failure → Prop}
    {condition : Result → Prop}
    {outcome : Outcome Failure Result}
    {next : Result → Outcome Failure Next}
    (first : outcome.FailsOnly allowed)
    (met : outcome.Meets condition)
    (following : ∀ result, condition result → (next result).FailsOnly allowed) :
    (outcome >>= next).FailsOnly allowed := by
  cases outcome with
  | done result =>
      exact following result met
  | failed failure =>
      exact first
  | aborted =>
      exact True.intro

theorem weaken
    {allowed wanted : Failure → Prop}
    {outcome : Outcome Failure Result}
    (failsOnly : outcome.FailsOnly allowed)
    (implied : ∀ failure, allowed failure → wanted failure) :
    outcome.FailsOnly wanted := by
  cases outcome with
  | done result =>
      exact True.intro
  | failed failure =>
      exact implied failure failsOnly
  | aborted =>
      exact True.intro

/-- Steps that follow each other fail for the reasons for which any of them does. -/
theorem foldlM
    {Item : Type}
    {allowed : Failure → Prop}
    {step : Result → Item → Outcome Failure Result}
    {items : List Item}
    (each : ∀ item ∈ items, ∀ result, (step result item).FailsOnly allowed)
    (initial : Result) :
    (items.foldlM step initial).FailsOnly allowed := by
  induction items generalizing initial with
  | nil =>
      exact True.intro
  | cons item rest inductionHypothesis =>
      rw [List.foldlM_cons]
      refine (each item (List.mem_cons_self ..) initial).bind fun result => ?_
      exact inductionHypothesis (fun other member => each other (List.mem_cons_of_mem _ member))
        result

end FailsOnly

/-- Steps that are equal one by one are equal as a whole. -/
theorem foldlM_congr
    {Item : Type}
    {first second : Result → Item → Outcome Failure Result}
    {items : List Item}
    (same : ∀ item ∈ items, ∀ result, first result item = second result item)
    (initial : Result) :
    items.foldlM first initial = items.foldlM second initial := by
  induction items generalizing initial with
  | nil =>
      rfl
  | cons item rest inductionHypothesis =>
      rw [List.foldlM_cons, List.foldlM_cons, same item (List.mem_cons_self ..) initial]
      refine bind_congr fun result => ?_
      exact inductionHypothesis (fun other member => same other (List.mem_cons_of_mem _ member))
        result

end Outcome

end Reckon
