namespace Reckon

/-!
# Outcomes

An operation ends with a result, fails for a reason that it reports, or is aborted: it was asked
for something outside the domain of its operations, and reports nothing.
-/

/-- How an operation ends. -/
inductive Outcome (Failure Result : Type) where
  | done (result : Result)
  | failed (failure : Failure)
  | aborted
  deriving Repr, DecidableEq

namespace Outcome

variable {Failure Other Result Next : Type}

/-- Go on with the result, if there is one. -/
def bind
    (outcome : Outcome Failure Result)
    (next : Result → Outcome Failure Next) :
    Outcome Failure Next :=
  match outcome with
  | .done result => next result
  | .failed failure => .failed failure
  | .aborted => .aborted

/-- Change the result, if there is one. -/
def map
    (change : Result → Next)
    (outcome : Outcome Failure Result) :
    Outcome Failure Next :=
  match outcome with
  | .done result => .done (change result)
  | .failed failure => .failed failure
  | .aborted => .aborted

/-- Change the reason of a failure. -/
def mapFailure
    (change : Failure → Other)
    (outcome : Outcome Failure Result) :
    Outcome Other Result :=
  match outcome with
  | .done result => .done result
  | .failed failure => .failed (change failure)
  | .aborted => .aborted

/-- An operation that cannot be aborted. -/
def ofExcept : Except Failure Result → Outcome Failure Result
  | .ok result => .done result
  | .error failure => .failed failure

instance : Monad (Outcome Failure) where
  pure := .done
  bind := bind

end Outcome

end Reckon
