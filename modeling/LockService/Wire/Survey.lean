import LockService.Wire.Ident

/-!
# Surveys of drawn identifiers

A survey draws identifiers from one source and reports whether they are distinct, whether their counters keep the
top bit clear and step by one, and whether their clock readings follow the clock.
-/

namespace LockService

/-- What holds of a list of drawn identifiers. -/
structure IdSurvey where
  count : Nat
  distinct : Bool
  topBitClear : Bool
  countsUp : Bool
  clockIsRight : Bool
  clockNeverFalls : Bool

/-- Whether a relation holds between every two neighbours. -/
def neighboursSatisfy {α : Type} (related : α → α → Bool) (xs : List α) : Bool :=
  (xs.zip (xs.drop 1)).all fun (a, b) => related a b

/-- The survey of identifiers drawn between two clock readings. -/
def surveyIds (ids : List Ident) (earliest latest : Nat) : IdSurvey where
  count := ids.length
  distinct := neighboursSatisfy (fun a b => compare a b == .lt) (ids.mergeSort fun a b => compare a b != .gt)
  topBitClear := ids.all fun id => id.stamp < 0x80000000
  countsUp := neighboursSatisfy (fun a b => (b.stamp - a.stamp) &&& 0x7fffffff == 1) ids
  clockIsRight := ids.all fun id => earliest ≤ id.clock && id.clock ≤ latest
  clockNeverFalls := neighboursSatisfy (fun a b => a.clock ≤ b.clock) ids

end LockService
