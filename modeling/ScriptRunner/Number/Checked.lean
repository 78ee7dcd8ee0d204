/-!
# Checked sums

A sum of words that goes past their range has no value: the computation it is in stops there (`Halt.overflow`), and no
error is reported. So what stops a computation is told apart from what it reports.
-/

namespace ScriptRunner

/-- The sum of two words, if 64 bits hold it. -/
def checkedSum (a b : UInt64) : Option UInt64 :=
  if a.toNat + b.toNat < UInt64.size then some (a + b) else none

/-- Why a computation has no result. -/
inductive Halt (ε : Type) where
  | reported (error : ε)
  /-- A sum goes past its range. -/
  | overflow
  deriving DecidableEq, Repr

namespace Halt

variable {ε ε' α : Type}

/-- The same with what is reported put differently. -/
def map (f : ε → ε') : Halt ε → Halt ε'
  | .reported error => .reported (f error)
  | .overflow => .overflow

/-- A value that sums lead to. -/
def ofSum : Option α → Except (Halt ε) α
  | some a => .ok a
  | none => .error .overflow

end Halt

end ScriptRunner
