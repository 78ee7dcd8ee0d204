import ScriptRunner.Task.Header

/-!
# The pool of ports

The pool has a slot for each port right after its base, up to its size and to the highest port there is. The lowest free
port is handed out first; where ports are probed, one that somebody else holds is passed over. Returning a port that is
free or not of the pool has no effect.
-/

namespace ScriptRunner

/-- Slot `i` stands for the port `base + 1 + i` and is `true` while the port is held. -/
structure PortPool where
  base : Port
  slots : List Bool
  fits : slots.length ≤ 65535 - base.toNat
  deriving DecidableEq

/-- The ports that can be bound at the moment. -/
abbrev Probe := Port → Bool

/-- Ports are not probed: each one passes. -/
def Probe.off : Probe := fun _ => true

namespace PortPool

/-- A pool of free ports. -/
def ofSize (base : Port) (size : Nat) : PortPool where
  base := base
  slots := List.replicate (min size (65535 - base.toNat)) false
  fits := by rw [List.length_replicate]; exact Nat.min_le_right ..

instance : Inhabited PortPool := ⟨ofSize 0 0⟩

def capacity (p : PortPool) : Nat := p.slots.length

/-- The number of ports that are held. -/
def inUse (p : PortPool) : Nat := p.slots.count true

def portAt (p : PortPool) (slot : Nat) : Port := p.base + 1 + UInt16.ofNat slot

/-- The slot of a port of the pool. -/
def slotOf? (p : PortPool) (port : Port) : Option Nat :=
  if port ≤ p.base then none
  else
    let slot := (port - p.base - 1).toNat
    if slot < p.slots.length then some slot else none

def isTaken (p : PortPool) (port : Port) : Bool :=
  match p.slotOf? port with
  | some slot => p.slots[slot]?.getD false
  | none => false

/-- The pool with one slot taken or free. -/
def set (p : PortPool) (slot : Nat) (taken : Bool) : PortPool where
  base := p.base
  slots := p.slots.set slot taken
  fits := by rw [List.length_set]; exact p.fits

/-- The lowest slot that is free and whose port passes. -/
def freeSlot? (p : PortPool) (probe : Probe) : Option Nat :=
  (p.slots.zipIdx.find? fun (taken, slot) => !taken && probe (p.portAt slot)).map Prod.snd

/-- Takes the lowest free port that passes. -/
def acquire? (p : PortPool) (probe : Probe := .off) : Option (Port × PortPool) :=
  (p.freeSlot? probe).map fun slot => (p.portAt slot, p.set slot true)

def release (p : PortPool) (port : Port) : PortPool :=
  match p.slotOf? port with
  | some slot => p.set slot false
  | none => p

end PortPool

end ScriptRunner
