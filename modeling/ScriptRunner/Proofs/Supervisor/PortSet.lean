import Mathlib.Data.Finset.Max
import Mathlib.Order.Interval.Finset.Nat
import ScriptRunner.Proofs.Supervisor.PoolRuns

/-!
# The pool of ports is a set of held ports

A `PortSet` is an interval of numbers with those of them that are held: taking gives the least free number, returning
gives one back. A pool that does not probe represents such a set (`Represents`), and each operation answers for the pool
what it answers for the set (`Represents.apply`). Hence all histories do (`Represents.run`). Nothing wraps on the way:
the arithmetic of slots and ports comes out the same if every step of it is checked (`portAtChecked?_eq`,
`slotOfChecked?_eq`).
-/

namespace ScriptRunner

/-! ## The set -/

/-- Numbers of which some are held. -/
structure PortSet where
  all : Finset Nat
  held : Finset Nat
  held_subset : held ⊆ all

/-- An operation that looks at nothing but the pool. -/
inductive PortCall where
  | acquire
  | release (port : Port)

/-- What operations answer one after the other, and the state after them. -/
def PortCall.run {σ α : Type} (apply : σ → PortCall → Option α × σ) : σ → List PortCall → List (Option α) × σ
  | s, [] => ([], s)
  | s, c :: cs =>
    let rest := PortCall.run apply (apply s c).2 cs
    ((apply s c).1 :: rest.1, rest.2)

namespace PortSet

variable {s : PortSet} {n : Nat}

/-- The numbers right after the base, as many as asked for but none past the highest port; none is held. -/
def ofInterval (base size : Nat) : PortSet where
  all := Finset.Icc (base + 1) (base + min size (65535 - base))
  held := ∅
  held_subset := Finset.empty_subset _

def free (s : PortSet) : Finset Nat := s.all \ s.held

/-- The set with one more of its numbers held. -/
def hold (s : PortSet) (n : Nat) (h : n ∈ s.free) : PortSet where
  all := s.all
  held := insert n s.held
  held_subset := Finset.insert_subset (Finset.mem_sdiff.1 h).1 s.held_subset

def release (s : PortSet) (n : Nat) : PortSet where
  all := s.all
  held := s.held.erase n
  held_subset := (Finset.erase_subset n s.held).trans s.held_subset

/-- Taking gives the least free number, or nothing if there is none; returning takes any number. -/
def apply (s : PortSet) : PortCall → Option Nat × PortSet
  | .acquire => if h : s.free.Nonempty then (some (s.free.min' h), s.hold _ (s.free.min'_mem h)) else (none, s)
  | .release port => (none, s.release port.toNat)

theorem apply_acquire_of_isLeast (h : IsLeast {m | m ∈ s.all ∧ m ∉ s.held} n) :
    (s.apply .acquire).1 = some n ∧ (s.apply .acquire).2.all = s.all ∧
      (s.apply .acquire).2.held = insert n s.held := by
  have hfree : n ∈ s.free := Finset.mem_sdiff.2 h.1
  have hmin : s.free.min' ⟨n, hfree⟩ = n := by
    refine Nat.le_antisymm (Finset.min'_le _ _ hfree) ?_
    exact h.2 (Finset.mem_sdiff.1 (Finset.min'_mem _ _))
  have hne : s.free.Nonempty := ⟨n, hfree⟩
  simp [apply, hne, hold, hmin]

theorem apply_acquire_of_full (h : s.held = s.all) : s.apply .acquire = (none, s) := by
  have hempty : ¬ s.free.Nonempty := by simp [free, h]
  simp [apply, hempty]

theorem all_apply (s : PortSet) (c : PortCall) : (s.apply c).2.all = s.all := by
  cases c with
  | release port => rfl
  | acquire =>
    simp only [apply]
    split <;> rfl

theorem all_run (s : PortSet) (calls : List PortCall) : (PortCall.run apply s calls).2.all = s.all := by
  induction calls generalizing s with
  | nil => rfl
  | cons c cs ih => exact (ih (s.apply c).2).trans (s.all_apply c)

end PortSet

namespace PortPool

variable {p : PortPool} {port : Port} {slot : Nat} {s : PortSet}

/-- What an operation hands out, if anything, and the pool after it. -/
def applyCall (p : PortPool) : PortCall → Option Port × PortPool
  | .acquire => Operation.apply p (.acquire .off)
  | .release port => Operation.apply p (.release port)

/-- Taking a port takes the slot that is found. -/
theorem applyCall_acquire (p : PortPool) : p.applyCall .acquire =
    match p.freeSlot? .off with
    | some slot => (some (p.portAt slot), p.set slot true)
    | none => (none, p) := by
  cases hs : p.freeSlot? .off with
  | none => exact apply_acquire_none (by simp [acquire?, hs])
  | some slot => exact apply_acquire_some (by simp [acquire?, hs])

/-! ## The slot that is handed out -/

theorem freeSlot?_eq_none_iff : p.freeSlot? .off = none ↔ ∀ (i : Nat) (h : i < p.slots.length), p.slots[i] = true := by
  simp only [freeSlot?, Option.map_eq_none_iff, List.find?_eq_none, List.forall_mem_iff_getElem]
  simp [Probe.off]

/-- The slots below the one that is handed out are taken. -/
theorem taken_of_lt_freeSlot? (h : p.freeSlot? .off = some slot) {i : Nat} (hi : i < slot)
    (hlt : i < p.slots.length) : p.slots[i] = true := by
  obtain ⟨⟨taken, j⟩, hf, rfl⟩ := Option.map_eq_some_iff.1 h
  obtain ⟨-, k, hk, he, hbelow⟩ := List.find?_eq_some_iff_getElem.1 hf
  rw [List.getElem_zipIdx, Prod.mk.injEq] at he
  have hik := hbelow i (by omega)
  simpa [Probe.off] using hik

/-- A number in the interval of the pool is the port of a slot. -/
theorem exists_slot {n : Nat} (h : n ∈ Finset.Icc (p.base.toNat + 1) (p.base.toNat + p.capacity)) :
    ∃ slot, slot < p.slots.length ∧ (p.portAt slot).toNat = n := by
  rw [Finset.mem_Icc] at h
  unfold capacity at h
  refine ⟨n - p.base.toNat - 1, by omega, ?_⟩
  rw [toNat_portAt (by omega)]
  omega

/-! ## The number of held ports -/

theorem inUse_set (h : slot < p.slots.length) (b : Bool) :
    (p.set slot b).inUse + (if p.slots[slot] then 1 else 0) = p.inUse + if b then 1 else 0 := by
  have hheld : p.slots[slot] = true → 1 ≤ p.slots.count true :=
    fun ht => List.count_pos_iff.2 (ht ▸ List.getElem_mem h)
  simp only [inUse, set, List.count_set h]
  cases ht : p.slots[slot] <;> cases b <;> simp_all

/-- Returning a port that is free or foreign changes nothing. -/
theorem release_of_not_isTaken (h : p.isTaken port = false) : p.release port = p := by
  cases hs : p.slotOf? port with
  | none => exact release_of_foreign hs
  | some slot =>
    have hlt := (slotOf?_eq_some_iff.1 hs).1
    have hfree : p.slots[slot] = false := by rw [← isTaken_portAt hlt, portAt_of_slotOf? hs, h]
    rw [release_of_slotOf? hs]
    refine eq_of_slots rfl ?_
    show p.slots.set slot false = p.slots
    rw [← hfree, List.set_getElem_self]

theorem inUse_release_of_isTaken (h : p.isTaken port = true) : (p.release port).inUse + 1 = p.inUse := by
  obtain ⟨slot, hs, ht⟩ := isTaken_eq_true_iff.1 h
  have hlt := (slotOf?_eq_some_iff.1 hs).1
  have hcount := inUse_set hlt false
  rw [List.getElem?_eq_getElem hlt, Option.some.injEq] at ht
  rw [ht] at hcount
  rw [release_of_slotOf? hs]
  simpa using hcount

/-! ## The pool represents a set -/

/-- The set has the interval of the pool, and the ports that the pool has given away are the numbers it holds. -/
structure Represents (p : PortPool) (s : PortSet) : Prop where
  all_eq : s.all = Finset.Icc (p.base.toNat + 1) (p.base.toNat + p.capacity)
  isTaken_iff : ∀ port, p.isTaken port = true ↔ port.toNat ∈ s.held
  inUse_eq : p.inUse = s.held.card

theorem represents_ofSize (base : Port) (size : Nat) :
    (ofSize base size).Represents (.ofInterval base.toNat size) where
  all_eq := by rw [capacity_ofSize]; rfl
  isTaken_iff port := by simp [not_isTaken_ofSize, PortSet.ofInterval]
  inUse_eq := by simp [inUse, ofSize, PortSet.ofInterval, List.count_replicate]

namespace Represents

theorem taken_iff (h : p.Represents s) (hslot : slot < p.slots.length) :
    p.slots[slot] = true ↔ (p.portAt slot).toNat ∈ s.held := by
  rw [← isTaken_portAt hslot, h.isTaken_iff]

/-- A pool without a free slot represents a set without a free number. -/
theorem held_eq_all_iff (h : p.Represents s) : s.held = s.all ↔ p.freeSlot? .off = none := by
  rw [freeSlot?_eq_none_iff]
  constructor
  · intro hfull i hi
    rw [h.taken_iff hi, hfull, h.all_eq, Finset.mem_Icc, toNat_portAt hi, capacity]
    omega
  · intro htaken
    refine Finset.Subset.antisymm s.held_subset fun n hn => ?_
    rw [h.all_eq] at hn
    obtain ⟨slot, hslot, rfl⟩ := exists_slot hn
    exact (h.taken_iff hslot).1 (htaken slot hslot)

/-- The port of the lowest free slot is the least number that is free. -/
theorem isLeast (h : p.Represents s) (hs : p.freeSlot? .off = some slot) :
    IsLeast {m | m ∈ s.all ∧ m ∉ s.held} (p.portAt slot).toNat := by
  obtain ⟨hlt, hfree, -⟩ := freeSlot?_spec hs
  refine ⟨⟨?_, ?_⟩, ?_⟩
  · rw [h.all_eq, Finset.mem_Icc, toNat_portAt hlt, capacity]
    omega
  · rw [← h.taken_iff hlt, hfree]
    exact Bool.false_ne_true
  · rintro m ⟨hall, hheld⟩
    rw [h.all_eq] at hall
    obtain ⟨i, hi, rfl⟩ := exists_slot hall
    rw [toNat_portAt hlt, toNat_portAt hi]
    by_contra hlower
    exact hheld ((h.taken_iff hi).1 (taken_of_lt_freeSlot? hs (by omega) hi))

theorem acquire (h : p.Represents s) :
    (p.applyCall .acquire).1.map UInt16.toNat = (s.apply .acquire).1 ∧
      (p.applyCall .acquire).2.Represents (s.apply .acquire).2 := by
  rw [applyCall_acquire]
  cases hs : p.freeSlot? .off with
  | none =>
    rw [PortSet.apply_acquire_of_full (h.held_eq_all_iff.2 hs)]
    exact ⟨rfl, h⟩
  | some slot =>
    obtain ⟨hlt, hfree, -⟩ := freeSlot?_spec hs
    obtain ⟨hanswer, hall, hheld⟩ := PortSet.apply_acquire_of_isLeast (h.isLeast hs)
    have hnew : (p.portAt slot).toNat ∉ s.held := (h.isLeast hs).1.2
    refine ⟨hanswer.symm, ⟨?_, fun port => ?_, ?_⟩⟩
    · rw [hall, h.all_eq]
      simp [set, capacity]
    · rw [hheld, isTaken_set hlt, Finset.mem_insert, ← h.isTaken_iff, UInt16.toNat_inj]
      by_cases hport : port = p.portAt slot <;> simp [hport]
    · have hcount := inUse_set hlt true
      rw [hfree] at hcount
      rw [hheld, Finset.card_insert_of_notMem hnew, ← h.inUse_eq]
      simpa using hcount

theorem release (h : p.Represents s) (port : Port) : (p.release port).Represents (s.release port.toNat) where
  all_eq := by rw [base_release, capacity_release]; exact h.all_eq
  isTaken_iff r := by
    rw [isTaken_release, Bool.and_eq_true, bne_iff_ne, h.isTaken_iff, PortSet.release, Finset.mem_erase,
      Ne, Ne, UInt16.toNat_inj]
  inUse_eq := by
    show (p.release port).inUse = (s.held.erase port.toNat).card
    cases ht : p.isTaken port with
    | false =>
      have hnot : port.toNat ∉ s.held := fun hm => by simp [(h.isTaken_iff port).2 hm] at ht
      rw [release_of_not_isTaken ht, Finset.erase_eq_of_notMem hnot, h.inUse_eq]
    | true =>
      have hcard := Finset.card_erase_add_one ((h.isTaken_iff port).1 ht)
      have hcount := inUse_release_of_isTaken ht
      have hbefore := h.inUse_eq
      omega

/-- **One operation** answers for the pool what it answers for the set. -/
theorem apply (h : p.Represents s) (c : PortCall) :
    (p.applyCall c).1.map UInt16.toNat = (s.apply c).1 ∧ (p.applyCall c).2.Represents (s.apply c).2 := by
  cases c with
  | acquire => exact h.acquire
  | release port => exact ⟨rfl, h.release port⟩

/-- **All operations** of a history do. -/
theorem run (h : p.Represents s) (calls : List PortCall) :
    (PortCall.run applyCall p calls).1.map (Option.map UInt16.toNat) = (PortCall.run PortSet.apply s calls).1 ∧
      (PortCall.run applyCall p calls).2.Represents (PortCall.run PortSet.apply s calls).2 := by
  induction calls generalizing p s with
  | nil => exact ⟨rfl, h⟩
  | cons c cs ih =>
    obtain ⟨hanswer, hafter⟩ := h.apply c
    obtain ⟨hanswers, hlast⟩ := ih hafter
    refine ⟨?_, hlast⟩
    simp only [PortCall.run, List.map_cons]
    rw [hanswer, hanswers]

end Represents

/-! ## Checked arithmetic -/

/-- A number as a port, unless it is past the highest one. -/
def checkedPort (n : Nat) : Option Port := if n < 65536 then some (UInt16.ofNat n) else none

def checkedAdd (a b : Port) : Option Port := checkedPort (a.toNat + b.toNat)

def checkedSub (a b : Port) : Option Port := if b ≤ a then some (a - b) else none

/-- The port of a slot, unless some step on the way to it wraps. -/
def portAtChecked? (p : PortPool) (slot : Nat) : Option Port := do
  let first ← checkedAdd p.base 1
  checkedAdd first (← checkedPort slot)

/-- The slot of a port, with each subtraction checked. -/
def slotOfChecked? (p : PortPool) (port : Port) : Option Nat := do
  let above ← checkedSub port p.base
  let slot ← checkedSub above 1
  if slot.toNat < p.slots.length then some slot.toNat else none

theorem checkedAdd_eq {a b : Port} (h : a.toNat + b.toNat < 65536) : checkedAdd a b = some (a + b) := by
  rw [checkedAdd, checkedPort, if_pos h, UInt16.ofNat_add, UInt16.ofNat_toNat, UInt16.ofNat_toNat]

/-- Neither the slot as a port nor any sum on the way to its port wraps. -/
theorem portAtChecked?_eq (h : slot < p.slots.length) : p.portAtChecked? slot = some (p.portAt slot) := by
  have hfits := p.fits
  have hbase := p.base.toNat_lt
  have hone : (p.base + 1).toNat = p.base.toNat + 1 := by
    rw [UInt16.toNat_add, UInt16.toNat_one, Nat.mod_eq_of_lt (by omega)]
  have hslot : (UInt16.ofNat slot).toNat = slot := by
    rw [UInt16.toNat_ofNat', Nat.mod_eq_of_lt (by omega)]
  have hfirst : checkedAdd p.base 1 = some (p.base + 1) := checkedAdd_eq (by rw [UInt16.toNat_one]; omega)
  have hport : checkedPort slot = some (UInt16.ofNat slot) := if_pos (by omega)
  have hsum : checkedAdd (p.base + 1) (UInt16.ofNat slot) = some (p.portAt slot) :=
    checkedAdd_eq (by rw [hone, hslot]; omega)
  simp only [portAtChecked?, hfirst, hport, Option.bind_eq_bind, Option.bind_some, hsum]

theorem checkedSub_eq_some_iff {a b c : Port} : checkedSub a b = some c ↔ a.toNat = b.toNat + c.toNat := by
  have ha := a.toNat_lt
  have hb := b.toNat_lt
  have hc := c.toNat_lt
  rw [checkedSub, Option.ite_none_right_eq_some, Option.some.injEq, ← UInt16.toNat_inj, UInt16.toNat_sub,
    UInt16.le_iff_toNat_le]
  omega

theorem slotOfChecked?_eq (p : PortPool) (port : Port) : p.slotOfChecked? port = p.slotOf? port := by
  refine Option.ext fun slot => ?_
  have hport := port.toNat_lt
  rw [slotOf?_eq_some_iff]
  simp only [slotOfChecked?, Option.bind_eq_bind, Option.bind_eq_some_iff, checkedSub_eq_some_iff, UInt16.toNat_one,
    Option.ite_none_right_eq_some, Option.some.injEq]
  constructor
  · rintro ⟨above, habove, slot, hslot, hlt, rfl⟩
    omega
  · rintro ⟨hlt, he⟩
    have hfirst : (UInt16.ofNat (slot + 1)).toNat = slot + 1 := by
      rw [UInt16.toNat_ofNat', Nat.mod_eq_of_lt (by omega)]
    have hslot : (UInt16.ofNat slot).toNat = slot := by
      rw [UInt16.toNat_ofNat', Nat.mod_eq_of_lt (by omega)]
    exact ⟨UInt16.ofNat (slot + 1), by omega, UInt16.ofNat slot, by omega, by omega, hslot⟩

/-! ## The pool and the set -/

/-- **A pool that does not probe is a set of held ports**, whatever has been taken and returned. Its operations answered
what those of the set did. The ports it says are taken are the held ones, and their number is the number in use. It hands
out the least free number of the interval next, which is held from then on; it hands out none exactly if all are held,
and then it stays as it is. Returning a port that is not held changes nothing. No sum and no difference on the way
between slots and ports wraps. -/
theorem refines_set_of_ports (base : Port) (size : Nat) (calls : List PortCall) :
    let pool := (PortCall.run applyCall (ofSize base size) calls).2
    let set := (PortCall.run PortSet.apply (.ofInterval base.toNat size) calls).2
    (PortCall.run applyCall (ofSize base size) calls).1.map (Option.map UInt16.toNat) =
        (PortCall.run PortSet.apply (.ofInterval base.toNat size) calls).1 ∧
      (∀ port, pool.isTaken port = true ↔ port.toNat ∈ set.held) ∧
      pool.inUse = set.held.card ∧
      set.all = Finset.Icc (base.toNat + 1) (base.toNat + min size (65535 - base.toNat)) ∧
      (∀ port, (pool.applyCall .acquire).1 = some port →
        IsLeast {n | n ∈ set.all ∧ n ∉ set.held} port.toNat ∧
        ∀ r, (pool.applyCall .acquire).2.isTaken r = true ↔ r = port ∨ r.toNat ∈ set.held) ∧
      ((pool.applyCall .acquire).1 = none ↔ set.held = set.all) ∧
      (set.held = set.all → (pool.applyCall .acquire).2 = pool) ∧
      (∀ port r, (pool.release port).isTaken r = true ↔ r ≠ port ∧ r.toNat ∈ set.held) ∧
      (∀ port, port.toNat ∉ set.held → pool.release port = pool) ∧
      (∀ slot < pool.capacity, pool.portAtChecked? slot = some (pool.portAt slot)) ∧
      ∀ port, pool.slotOfChecked? port = pool.slotOf? port := by
  intro pool set
  obtain ⟨hanswers, hlast : pool.Represents set⟩ := (represents_ofSize base size).run calls
  have hacquire := applyCall_acquire pool
  refine ⟨hanswers, hlast.isTaken_iff, hlast.inUse_eq, PortSet.all_run _ calls, fun port hport => ?_, ?_, ?_,
    fun port r => ?_, fun port hport => ?_, fun slot hslot => portAtChecked?_eq hslot, slotOfChecked?_eq _⟩
  · cases hs : pool.freeSlot? .off with
    | none => rw [hacquire, hs] at hport; cases hport
    | some slot =>
      obtain ⟨hlt, -, -⟩ := freeSlot?_spec hs
      rw [hacquire, hs] at hport ⊢
      obtain rfl := Option.some.inj hport
      refine ⟨hlast.isLeast hs, fun r => ?_⟩
      rw [← hlast.isTaken_iff]
      show (pool.set slot true).isTaken r = true ↔ _
      rw [isTaken_set hlt]
      by_cases hr : r = pool.portAt slot <;> simp [hr]
  · rw [hlast.held_eq_all_iff, hacquire]
    cases pool.freeSlot? .off <;> simp
  · intro hfull
    rw [hacquire, hlast.held_eq_all_iff.1 hfull]
  · rw [isTaken_release, Bool.and_eq_true, bne_iff_ne, hlast.isTaken_iff]
  · refine release_of_not_isTaken (Bool.eq_false_iff.2 fun ht => ?_)
    exact hport ((hlast.isTaken_iff port).1 ht)

end PortPool

end ScriptRunner
