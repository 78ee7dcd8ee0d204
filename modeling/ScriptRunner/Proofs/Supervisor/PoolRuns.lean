import ScriptRunner.Proofs.Supervisor.Pool

/-!
# Ports that a pool hands out

An operation takes a port, whichever ports can be bound at the moment, or returns one. Whatever the operations, a pool
hands out no port but its own (`toNat_of_mem_handedOut`). A new pool hands out all of them, one after the other, if
ports are taken as often as it has slots and none is probed (`mem_handedOut_ofSize`).
-/

namespace ScriptRunner.PortPool

inductive Operation where
  | acquire (probe : Probe)
  | release (port : Port)

/-- The operation does not look at what can be bound. -/
def Operation.IsUnprobed : Operation → Prop
  | acquire probe => probe = Probe.off
  | release _ => True

/-- The port that an operation hands out, if it does, and the pool after it. -/
def Operation.apply (p : PortPool) : Operation → Option Port × PortPool
  | acquire probe =>
    match p.acquire? probe with
    | some (port, q) => (some port, q)
    | none => (none, p)
  | release port => (none, p.release port)

/-- The ports that are handed out by operations one after the other. -/
def handedOut (p : PortPool) : List Operation → List Port
  | [] => []
  | o :: os => (o.apply p).1.toList ++ (o.apply p).2.handedOut os

variable {p : PortPool} {port : Port} {o : Operation} {ops : List Operation}

/-! ## No port but those of the pool -/

theorem apply_acquire_none {probe : Probe} (h : p.acquire? probe = none) :
    Operation.apply p (.acquire probe) = (none, p) := by
  simp only [Operation.apply, h]

theorem apply_acquire_some {probe : Probe} {q : PortPool} (h : p.acquire? probe = some (port, q)) :
    Operation.apply p (.acquire probe) = (some port, q) := by
  simp only [Operation.apply, h]

theorem extent_apply (p : PortPool) (o : Operation) :
    (o.apply p).2.base = p.base ∧ (o.apply p).2.capacity = p.capacity := by
  cases o with
  | release port => exact ⟨base_release port, capacity_release port⟩
  | acquire probe =>
    cases ha : p.acquire? probe with
    | none => rw [apply_acquire_none ha]; exact ⟨rfl, rfl⟩
    | some r => rw [apply_acquire_some ha]; exact extent_of_acquire? ha

theorem toNat_of_acquire? {probe : Probe} {q : PortPool} (h : p.acquire? probe = some (port, q)) :
    p.base.toNat < port.toNat ∧ port.toNat ≤ p.base.toNat + p.capacity := by
  obtain ⟨-, -, htaken⟩ := acquire?_spec h
  obtain ⟨hbase, hcapacity⟩ := extent_of_acquire? h
  have hport : q.isTaken port = true := by simp [htaken]
  have hrange := toNat_of_isTaken hport
  rwa [hbase, hcapacity] at hrange

theorem toNat_of_mem_apply (h : port ∈ (o.apply p).1.toList) :
    p.base.toNat < port.toNat ∧ port.toNat ≤ p.base.toNat + p.capacity := by
  cases o with
  | release r => cases h
  | acquire probe =>
    cases ha : p.acquire? probe with
    | none =>
      rw [apply_acquire_none ha] at h
      cases h
    | some r =>
      rw [apply_acquire_some ha] at h
      obtain rfl := Option.some.inj (Option.mem_toList.1 h)
      exact toNat_of_acquire? ha

/-- **A pool hands out no port but its own.** -/
theorem toNat_of_mem_handedOut (h : port ∈ p.handedOut ops) :
    p.base.toNat < port.toNat ∧ port.toNat ≤ p.base.toNat + p.capacity := by
  induction ops generalizing p with
  | nil => cases h
  | cons o os ih =>
    rcases List.mem_append.1 h with h | h
    · exact toNat_of_mem_apply h
    · obtain ⟨hbase, hcapacity⟩ := extent_apply p o
      have hrange := ih h
      rwa [hbase, hcapacity] at hrange

/-! ## All ports of the pool -/

theorem capacity_ofSize (base : Port) (size : Nat) :
    (ofSize base size).capacity = min size (65535 - base.toNat) := by
  simp [capacity, ofSize]

/-- A search for what is free passes over the slots that are taken. -/
theorem find?_of_front {k m : Nat} {f : Bool × Nat → Bool} (htaken : ∀ i, f (true, i) = false)
    (hfree : ∀ i, f (false, i) = true) :
    (List.replicate k true ++ List.replicate (m + 1) false).zipIdx.find? f = some (false, k) := by
  have hnone : (List.replicate k true).zipIdx.find? f = none := by
    refine List.find?_eq_none.2 fun e he => ?_
    obtain ⟨taken, slot⟩ := e
    obtain ⟨-, -, ht⟩ := List.mem_zipIdx he
    simp [ht, htaken]
  rw [List.zipIdx_append, List.find?_append, hnone, Option.none_or, List.replicate_succ, List.zipIdx_cons]
  simp [hfree]

/-- A pool whose slots are taken up to one hands out the port of this one. -/
theorem acquire?_of_front {k m : Nat} (h : p.slots = List.replicate k true ++ List.replicate (m + 1) false) :
    p.acquire? = some (p.portAt k, p.set k true) := by
  rw [acquire?, freeSlot?, h, find?_of_front (fun _ => rfl) fun _ => rfl]
  rfl

theorem slots_set_of_front {k m : Nat} (h : p.slots = List.replicate k true ++ List.replicate (m + 1) false) :
    (p.set k true).slots = List.replicate (k + 1) true ++ List.replicate m false := by
  rw [List.replicate_succ', List.append_assoc]
  simp [set, h, List.replicate_succ]

/-- The free slots at the end are handed out one after the other. -/
theorem mem_handedOut_of_front {k m i : Nat} (h : p.slots = List.replicate k true ++ List.replicate m false)
    (hi : i < m) : p.portAt (k + i) ∈ p.handedOut (List.replicate m (.acquire .off)) := by
  induction m generalizing p k i with
  | zero => exact absurd hi (Nat.not_lt_zero i)
  | succ m ih =>
    rw [List.replicate_succ, handedOut, apply_acquire_some (acquire?_of_front h)]
    cases i with
    | zero => exact List.mem_append_left _ (Option.mem_toList.2 rfl)
    | succ i =>
      refine List.mem_append_right _ ?_
      have hlater := ih (slots_set_of_front h) (Nat.lt_of_succ_lt_succ hi)
      rwa [show k + (i + 1) = k + 1 + i by omega]

/-- **A new pool hands out all its ports** if none is probed. -/
theorem mem_handedOut_ofSize {base : Port} {size : Nat} (hbase : base.toNat < port.toNat)
    (hlast : port.toNat ≤ base.toNat + (ofSize base size).capacity) :
    port ∈ (ofSize base size).handedOut (List.replicate (ofSize base size).capacity (.acquire .off)) := by
  have hslots : (ofSize base size).slots =
      List.replicate 0 true ++ List.replicate (ofSize base size).capacity false := by
    rw [capacity_ofSize]
    rfl
  have hlt : port.toNat - base.toNat - 1 < (ofSize base size).capacity := by omega
  have hmem := mem_handedOut_of_front hslots hlt
  have hport : (ofSize base size).portAt (0 + (port.toNat - base.toNat - 1)) = port := by
    refine UInt16.toNat_inj.1 ?_
    rw [Nat.zero_add, toNat_portAt hlt]
    show base.toNat + 1 + (port.toNat - base.toNat - 1) = port.toNat
    omega
  rwa [hport] at hmem

/-- Probed or not, a new pool can hand out the ports after its base up to its capacity. -/
theorem exists_handedOut_iff {base : Port} {size : Nat} (allowed : Operation → Prop)
    (hallowed : allowed (.acquire .off)) :
    (∃ ops, (∀ o ∈ ops, allowed o) ∧ port ∈ (ofSize base size).handedOut ops) ↔
      base.toNat < port.toNat ∧ port.toNat ≤ base.toNat + (ofSize base size).capacity := by
  constructor
  · rintro ⟨ops, -, hport⟩
    exact toNat_of_mem_handedOut hport
  · rintro ⟨hbase, hlast⟩
    refine ⟨_, fun o ho => ?_, mem_handedOut_ofSize hbase hlast⟩
    rw [List.eq_of_mem_replicate ho]
    exact hallowed

end ScriptRunner.PortPool
