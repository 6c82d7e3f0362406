/-!
# `Schemata.Fault` — operations that are not defined

Validation and compilation apply comparisons, lengths and look-ups to values of any kind. Where the
operation is not defined on the operands there is no answer but a fault.
-/

namespace Schemata

/-- Why an operation on values has no result. -/
inductive Fault
  /-- The operation is not defined on operands of these kinds. -/
  | unsupported
  /-- A value was asked for a part that values of its sort do not have. -/
  | missingPart
  /-- A number has too many digits to be written or read, or a scalar has no value. -/
  | noValue
deriving DecidableEq, Repr

end Schemata
