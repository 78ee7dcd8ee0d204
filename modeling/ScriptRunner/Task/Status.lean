import ScriptRunner.Document.Decoder

/-!
# The status of a task

A task starts, may be active, waiting or suspended, and ends in one of four terminal states, which it never leaves.
Nothing returns to the start. Messages carry a status as its number.
-/

namespace ScriptRunner

inductive TaskStatus where
  | start
  | active
  | waiting
  | suspended
  | finished
  | terminated
  | failed
  | crashed
  deriving DecidableEq, Repr, Inhabited

namespace TaskStatus

def all : List TaskStatus := [start, active, waiting, suspended, finished, terminated, failed, crashed]

def code : TaskStatus → Nat
  | start => 0
  | active => 1
  | waiting => 2
  | suspended => 3
  | finished => 4
  | terminated => 5
  | failed => 6
  | crashed => 7

/-- The status of a number; the only failure is a number that has none. -/
def ofCode (n : Int) : Except Cause TaskStatus :=
  match all.find? fun s => (s.code : Int) = n with
  | some s => .ok s
  | none => .error (.taskStatus n)

def name : TaskStatus → String
  | start => "start"
  | active => "active"
  | waiting => "waiting"
  | suspended => "suspended"
  | finished => "finished"
  | terminated => "terminated"
  | failed => "failed"
  | crashed => "crashed"

def isTerminal : TaskStatus → Bool
  | finished | terminated | failed | crashed => true
  | _ => false

/-- A report may move a task from one status to the other. -/
def canMoveTo (a b : TaskStatus) : Bool :=
  !a.isTerminal && (b != start || a == start)

def json (s : TaskStatus) : Json := .int s.code

variable {σ : Type} [Format σ]

def decoder : Decoder σ TaskStatus := Decoder.derived (Decoder.integer .int32) ofCode

theorem ofCode_code (s : TaskStatus) : ofCode s.code = .ok s := by
  cases s <;> rfl

end TaskStatus

end ScriptRunner
