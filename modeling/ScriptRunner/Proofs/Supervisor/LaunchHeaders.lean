import ScriptRunner.Proofs.Document.Outcomes
import ScriptRunner.Proofs.Supervisor.Ownership

/-!
# The ports in the headers of runs

A run is launched with the header that was prepared for its reservation (`System.launching_of_step`). The ports of a
reservation differ and belong to the pool while the run is prepared, since the run owns them then
(`Ledger.Sound.fitsPool`). So whatever happens to the task afterwards, the two ports in the header of a launch differ
and belong to the pool, and its third port is that of the supervisor (`System.launching_fitsPool`).
-/

namespace ScriptRunner

theorem Workshop.serverPort_of_prepare {w : Workshop} {c : SupervisorSettings} {request : RunRequest} {r : Reservation}
    {h : Header} {b : Bytecode} (hp : w.prepare c request r = .ok (h, b)) : h.serverPort = c.serverPort := by
  obtain ⟨d, -, hp⟩ := bind_eq_ok_iff.1 hp
  obtain ⟨text, -, hp⟩ := bind_eq_ok_iff.1 hp
  obtain ⟨program, -, hp⟩ := bind_eq_ok_iff.1 hp
  obtain ⟨rfl, -⟩ := Prod.mk.inj (Except.ok.inj hp)
  rfl

/-- The two ports of a run differ and are ports of the pool. -/
structure Reservation.FitsPool (c : SupervisorSettings) (r : Reservation) : Prop where
  apart : r.httpPort ≠ r.localPort
  inPool : ∀ port ∈ r.ports, c.basePort.toNat < port.toNat ∧
    port.toNat ≤ c.basePort.toNat + min c.portPoolSize.toNat (65535 - c.basePort.toNat)

/-- Owners hold two ports of the pool. -/
theorem Ledger.Sound.fitsPool {c : SupervisorSettings} {L : Ledger} (h : L.Sound c) {o : Reservation}
    (ho : o ∈ L.owners) : o.FitsPool c where
  apart := by
    have hown := (List.nodup_flatMap.1 h.holds.nodup).1 o ho
    simpa [Reservation.ports] using hown
  inPool := by
    intro port hport
    have hheld : port ∈ L.heldPorts := List.mem_flatMap.2 ⟨o, ho, hport⟩
    have hrange := PortPool.toNat_of_isTaken ((h.holds.isTaken_iff port).2 hheld)
    rwa [h.extent.1, h.extent.2] at hrange

/-- The header of a launch names the ports that were reserved for the run, and the port of the supervisor. -/
structure Supervisor.Launchable.NamesPorts (c : SupervisorSettings) (l : Launchable) : Prop where
  http : l.header.httpPort = l.reservation.httpPort
  locally : l.header.localPort = l.reservation.localPort
  server : l.header.serverPort = c.serverPort

namespace System

variable {τ : Type} {S : System τ}

/-- A run that is being launched was so before, or has just been prepared. -/
theorem launching_of_step {a : Action} {l : Supervisor.Launchable}
    (h : Activity.launching l ∈ (S.step a).activities) :
    Activity.launching l ∈ S.activities ∨ ∃ request, Activity.preparing request l.reservation ∈ S.activities ∧
      S.supervisor.workshop.prepare S.supervisor.settings request l.reservation = .ok (l.header, l.program) := by
  rcases activities_of_step h with hl | hbegun
  · exact .inl hl
  · cases hbegun with
    | launching hi hp => exact .inr ⟨_, List.mem_of_getElem? hi, hp⟩

/-- **The ports in the header of a launch**, after every interleaving. -/
theorem launching_fitsPool (c : SupervisorSettings) (w : Workshop) (store : TraceStore τ) (traces : τ)
    (packages : Option PackageManager) (actions : List Action) {l : Supervisor.Launchable}
    (hl : Activity.launching l ∈ ((System.initial c w store traces packages).run actions).activities) :
    l.reservation.FitsPool c ∧ l.NamesPorts c := by
  have h : let S := (System.initial c w store traces packages).run actions
      S.supervisor.settings = c ∧ S.ledger.Sound c ∧
        ∀ l, Activity.launching l ∈ S.activities → l.reservation.FitsPool c ∧ l.NamesPorts c := by
    refine run_induction (P := fun S => S.supervisor.settings = c ∧ S.ledger.Sound c ∧
        ∀ l, Activity.launching l ∈ S.activities → l.reservation.FitsPool c ∧ l.NamesPorts c)
      (fun S a _ ⟨hc, hsound, hall⟩ => ⟨by rw [settings_step, hc], ?_, fun l hl => ?_⟩)
      ⟨rfl, Ledger.sound_initial c, nofun⟩
    · rw [← hc] at hsound ⊢
      exact sound_step hsound a
    · rcases launching_of_step hl with hl | ⟨request, hr, hp⟩
      · exact hall l hl
      · have howner : l.reservation ∈ S.ledger.owners :=
          List.mem_append_right _ (List.mem_filterMap.2 ⟨_, hr, rfl⟩)
        obtain ⟨-, hhttp, hlocal⟩ := Workshop.prepare_ok hp
        rw [hc] at hp
        exact ⟨hsound.fitsPool howner, hhttp, hlocal, Workshop.serverPort_of_prepare hp⟩
  exact h.2.2 l hl

end System

end ScriptRunner
