import Mathlib.Data.List.Basic
import ScriptRunner.Supervisor.Ports

/-!
# The pool as a set of held ports

A slot and its port determine each other (`slotOf?_eq_some_iff`). Seen through `isTaken`, taking a port adds one that
was free (`acquire?_spec`), and returning a port removes that port and no other (`isTaken_release`). Returning a port
that was just taken gives the pool as it was before (`release_acquire?`).
-/

namespace ScriptRunner.PortPool

variable {p : PortPool} {port : Port} {slot : Nat}

theorem eq_of_slots {q : PortPool} (hb : p.base = q.base) (hs : p.slots = q.slots) : p = q := by
  cases p
  cases q
  simp_all

/-! ## Slots and ports -/

/-- The port of a slot; nothing wraps, since the pool ends at the highest port. -/
theorem toNat_portAt (h : slot < p.slots.length) : (p.portAt slot).toNat = p.base.toNat + 1 + slot := by
  have := p.fits
  have := p.base.toNat_lt
  simp only [portAt, UInt16.toNat_add, UInt16.toNat_ofNat', UInt16.toNat_one]
  omega

theorem slotOf?_eq_some_iff :
    p.slotOf? port = some slot ↔ slot < p.slots.length ∧ port.toNat = p.base.toNat + 1 + slot := by
  have hp := port.toNat_lt
  have hb := p.base.toNat_lt
  unfold slotOf?
  by_cases h : port ≤ p.base
  · have h' := UInt16.le_iff_toNat_le.1 h
    simp only [h, ↓reduceIte, reduceCtorEq, false_iff]
    omega
  · have h' : p.base.toNat < port.toNat := by rw [UInt16.le_iff_toNat_le] at h; omega
    have hsub : (port - p.base - 1).toNat = port.toNat - p.base.toNat - 1 := by
      simp only [UInt16.toNat_sub, UInt16.toNat_one]
      omega
    simp only [h, ↓reduceIte, hsub, Option.ite_none_right_eq_some, Option.some.injEq]
    omega

theorem slotOf?_portAt (h : slot < p.slots.length) : p.slotOf? (p.portAt slot) = some slot :=
  slotOf?_eq_some_iff.2 ⟨h, toNat_portAt h⟩

theorem portAt_of_slotOf? (h : p.slotOf? port = some slot) : p.portAt slot = port := by
  obtain ⟨hlt, hport⟩ := slotOf?_eq_some_iff.1 h
  exact UInt16.toNat_inj.1 (by rw [toNat_portAt hlt, hport])

/-! ## Held ports -/

theorem isTaken_eq_true_iff :
    p.isTaken port = true ↔ ∃ slot, p.slotOf? port = some slot ∧ p.slots[slot]? = some true := by
  unfold isTaken
  cases h : p.slotOf? port with
  | none => simp
  | some slot =>
    cases hs : p.slots[slot]? with
    | none => simp [hs]
    | some b => cases b <;> simp [hs]

theorem isTaken_portAt (h : slot < p.slots.length) : p.isTaken (p.portAt slot) = p.slots[slot] := by
  simp [isTaken, slotOf?_portAt h, h]

@[simp] theorem slotOf?_set (i : Nat) (b : Bool) (port : Port) : (p.set i b).slotOf? port = p.slotOf? port := by
  simp [slotOf?, set]

/-- Setting a slot changes what is said about its port only. -/
theorem isTaken_set (h : slot < p.slots.length) (b : Bool) (port : Port) :
    (p.set slot b).isTaken port = if port = p.portAt slot then b else p.isTaken port := by
  by_cases he : port = p.portAt slot
  · subst he
    unfold isTaken
    rw [slotOf?_set, slotOf?_portAt h]
    simp [set, h]
  · rw [if_neg he]
    unfold isTaken
    rw [slotOf?_set]
    cases hs : p.slotOf? port with
    | none => rfl
    | some i =>
      have hne : slot ≠ i := fun hi => he (by rw [hi, portAt_of_slotOf? hs])
      simp [set, List.getElem?_set_ne hne]

/-- A port that is held is a port of the pool. -/
theorem toNat_of_isTaken (h : p.isTaken port = true) :
    p.base.toNat < port.toNat ∧ port.toNat ≤ p.base.toNat + p.capacity := by
  obtain ⟨slot, hs, -⟩ := isTaken_eq_true_iff.1 h
  obtain ⟨hlt, hport⟩ := slotOf?_eq_some_iff.1 hs
  unfold capacity
  omega

theorem not_isTaken_ofSize (base : Port) (size : Nat) (port : Port) : (ofSize base size).isTaken port = false := by
  unfold isTaken
  cases (ofSize base size).slotOf? port with
  | none => rfl
  | some slot =>
    simp only [ofSize, List.getElem?_replicate]
    split <;> rfl

/-! ## Taking and returning -/

theorem freeSlot?_spec {probe : Probe} (h : p.freeSlot? probe = some slot) :
    ∃ hlt : slot < p.slots.length, p.slots[slot] = false ∧ probe (p.portAt slot) = true := by
  obtain ⟨⟨taken, i⟩, hf, rfl⟩ := Option.map_eq_some_iff.1 h
  have hm := List.mem_of_find?_eq_some hf
  have hp := List.find?_some hf
  obtain ⟨-, hlt, ht⟩ := List.mem_zipIdx hm
  simp only [Bool.and_eq_true, Bool.not_eq_true'] at hp
  refine ⟨by omega, ?_, hp.2⟩
  rw [← hp.1, ht]
  simp

/-- Taking a port: it was free and passes the probe, and now it is held besides the ports that were. -/
theorem acquire?_spec {probe : Probe} {q : PortPool} (h : p.acquire? probe = some (port, q)) :
    p.isTaken port = false ∧ probe port = true ∧ (∀ r, q.isTaken r = (r == port || p.isTaken r)) := by
  obtain ⟨slot, hs, he⟩ := Option.map_eq_some_iff.1 h
  obtain ⟨rfl, rfl⟩ := Prod.mk.inj he
  obtain ⟨hlt, hfree, hprobe⟩ := freeSlot?_spec hs
  refine ⟨by rw [isTaken_portAt hlt, hfree], hprobe, fun r => ?_⟩
  rw [isTaken_set hlt]
  by_cases hr : r = p.portAt slot <;> simp [hr]

theorem extent_of_acquire? {probe : Probe} {q : PortPool} (h : p.acquire? probe = some (port, q)) :
    q.base = p.base ∧ q.capacity = p.capacity := by
  obtain ⟨slot, -, he⟩ := Option.map_eq_some_iff.1 h
  obtain ⟨-, rfl⟩ := Prod.mk.inj he
  simp [set, capacity]

theorem release_of_slotOf? {i : Nat} (h : p.slotOf? port = some i) : p.release port = p.set i false := by
  simp [release, h]

theorem release_of_foreign (h : p.slotOf? port = none) : p.release port = p := by
  simp [release, h]

/-- Returning a port frees that port; ports that are free or foreign are free before and after. -/
theorem isTaken_release (port r : Port) : (p.release port).isTaken r = (r != port && p.isTaken r) := by
  unfold release
  cases h : p.slotOf? port with
  | none =>
    have hfree : p.isTaken port = false := by simp [isTaken, h]
    by_cases hr : r = port <;> simp [hr, hfree]
  | some slot =>
    have hlt := (slotOf?_eq_some_iff.1 h).1
    rw [isTaken_set hlt, portAt_of_slotOf? h]
    by_cases hr : r = port <;> simp [hr]

@[simp] theorem base_release (port : Port) : (p.release port).base = p.base := by
  unfold release
  split <;> rfl

@[simp] theorem capacity_release (port : Port) : (p.release port).capacity = p.capacity := by
  unfold release
  split <;> simp [capacity, set]

/-- Returning a port undoes taking it. -/
theorem release_acquire? {probe : Probe} {q : PortPool} (h : p.acquire? probe = some (port, q)) :
    q.release port = p := by
  obtain ⟨slot, hs, he⟩ := Option.map_eq_some_iff.1 h
  obtain ⟨rfl, rfl⟩ := Prod.mk.inj he
  obtain ⟨hlt, hfree, -⟩ := freeSlot?_spec hs
  unfold release
  rw [slotOf?_set, slotOf?_portAt hlt]
  refine eq_of_slots rfl ?_
  show (p.slots.set slot true).set slot false = p.slots
  rw [List.set_set, ← hfree, List.set_getElem_self]

/-! ## The set of held ports -/

/-- The ports that are held are those of the list, and each stands in it once. -/
structure Holds (p : PortPool) (ports : List Port) : Prop where
  isTaken_iff : ∀ port, p.isTaken port = true ↔ port ∈ ports
  nodup : ports.Nodup

theorem holds_ofSize (base : Port) (size : Nat) : (ofSize base size).Holds [] :=
  ⟨fun port => by simp [not_isTaken_ofSize], List.nodup_nil⟩

variable {ports ports' : List Port}

theorem Holds.perm (h : p.Holds ports) (hp : ports.Perm ports') : p.Holds ports' :=
  ⟨fun port => (h.isTaken_iff port).trans hp.mem_iff, hp.nodup_iff.1 h.nodup⟩

theorem Holds.acquire {probe : Probe} {q : PortPool} (h : p.Holds ports) (ha : p.acquire? probe = some (port, q)) :
    q.Holds (port :: ports) := by
  obtain ⟨hfree, -, hq⟩ := acquire?_spec ha
  have hport : port ∉ ports := fun hm => by simp [(h.isTaken_iff port).2 hm] at hfree
  exact ⟨fun r => by simp [hq, h.isTaken_iff], List.nodup_cons.2 ⟨hport, h.nodup⟩⟩

theorem Holds.release (h : p.Holds (port :: ports)) : (p.release port).Holds ports := by
  obtain ⟨hport, hn⟩ := List.nodup_cons.1 h.nodup
  refine ⟨fun r => ?_, hn⟩
  simp only [isTaken_release, Bool.and_eq_true, bne_iff_ne, h.isTaken_iff, List.mem_cons]
  exact ⟨fun ⟨hne, hr⟩ => hr.resolve_left hne, fun hr => ⟨fun he => hport (he ▸ hr), .inr hr⟩⟩

end ScriptRunner.PortPool
