import ScriptRunner.Proofs.Config.Validation
import ScriptRunner.Proofs.Supervisor.Answers
import ScriptRunner.Proofs.Supervisor.LaunchHeaders
import ScriptRunner.Proofs.Supervisor.PoolRuns

/-!
# The ports of accepted settings

The check of the settings, the pool and the headers of runs each work with a range of ports of their own. For settings
that are accepted, all three are the `portPoolSize` ports right after `basePort`
(`ExecutionSettings.ownsPort?_iff_of_fits`, `ExecutionSettings.capacity_of_fits`). The supervisor listens outside of this
range, so no run is given its port (`Settings.accepted_settings_and_pool_agree`).
-/

namespace ScriptRunner

/-! ## The range of a pool that fits -/

namespace ExecutionSettings

variable {s : ExecutionSettings} {port : Port}

theorem toNat_firstPort_of_fits (h : s.PoolFits) : s.firstPort.toNat = s.basePort.toNat + 1 := by
  have hsize := h.size
  have hlast : s.basePort.toNat + s.portPoolSize.toNat ≤ 65535 := h.last
  rw [toNat_firstPort]
  omega

theorem exists_lastPort?_of_fits (h : s.PoolFits) :
    ∃ last, s.lastPort? = some last ∧ last.toNat = s.basePort.toNat + s.portPoolSize.toNat := by
  have hlast := h.last
  have hport : (UInt16.ofNat s.lastOfPool).toNat = s.lastOfPool := UInt16.toNat_ofNat_of_lt (Nat.lt_succ_of_le hlast)
  exact ⟨.ofNat s.lastOfPool, lastPort?_eq_some_iff.2 ⟨by omega, by omega⟩, hport⟩

theorem ownsPort?_iff_of_fits (h : s.PoolFits) : s.ownsPort? port = some true ↔
    s.basePort.toNat < port.toNat ∧ port.toNat ≤ s.basePort.toNat + s.portPoolSize.toNat := by
  obtain ⟨last, hlast, hend⟩ := exists_lastPort?_of_fits h
  rw [ownsPort?_of_lastPort? hlast, Option.some.injEq, decide_eq_true_eq, toNat_firstPort_of_fits h, hend,
    Nat.succ_le_iff]

/-- A pool that fits is not cut off at the highest port. -/
theorem capacity_of_fits (h : s.PoolFits) :
    (PortPool.ofSize s.basePort s.portPoolSize.toNat).capacity = s.portPoolSize.toNat := by
  have hlast : s.basePort.toNat + s.portPoolSize.toNat ≤ 65535 := h.last
  rw [PortPool.capacity_ofSize]
  omega

/-- The settings and the pool mean the same ports. -/
theorem exists_handedOut_iff_ownsPort? (h : s.PoolFits) (allowed : PortPool.Operation → Prop)
    (hallowed : allowed (.acquire .off)) :
    (∃ ops, (∀ o ∈ ops, allowed o) ∧ port ∈ (PortPool.ofSize s.basePort s.portPoolSize.toNat).handedOut ops) ↔
      s.ownsPort? port = some true := by
  rw [PortPool.exists_handedOut_iff allowed hallowed, capacity_of_fits h, ownsPort?_iff_of_fits h]

end ExecutionSettings

/-! ## Accepted settings -/

/-- The three ports in a header differ, and none of them is 0. -/
def Header.PortsDiffer (h : Header) : Prop := [0, h.httpPort, h.localPort, h.serverPort].Nodup

namespace Settings

variable {s : Settings} {kind : String → PathKind} {port : Port}

theorem poolFits_of_accepted (h : s.validate kind = .ok ()) : s.execution.PoolFits :=
  (ExecutionSettings.validate_eq_ok_iff.1 (validate_eq_ok_iff.1 h).1.1).1

theorem serverPort_ne_zero_of_accepted (h : s.validate kind = .ok ()) : s.server.port ≠ 0 := by
  intro hzero
  have hport := (ServerSettings.validate_eq_ok_iff.1 (validate_eq_ok_iff.1 h).1.2.1).2
  simp [hzero] at hport

/-- The ports of the pool are none of those that have another meaning. -/
theorem port_ne_of_owned (h : s.validate kind = .ok ()) (hport : s.execution.ownsPort? port = some true) :
    port ≠ 0 ∧ port ≠ s.execution.basePort ∧ port ≠ s.server.port := by
  obtain ⟨hbase, -⟩ := (ExecutionSettings.ownsPort?_iff_of_fits (poolFits_of_accepted h)).1 hport
  refine ⟨?_, ?_, ?_⟩
  · rintro rfl
    simp at hbase
  · rintro rfl
    omega
  · rintro rfl
    rw [(validate_eq_ok_iff.1 h).2] at hport
    cases hport

/-- The ports of a run differ, and the supervisor listens on a third. -/
theorem portsDiffer_of_fitsPool (h : s.validate kind = .ok ()) {l : Supervisor.Launchable}
    (hfits : l.reservation.FitsPool (.ofSettings s)) (hnames : l.NamesPorts (.ofSettings s)) :
    l.header.PortsDiffer := by
  have howned : ∀ port ∈ l.reservation.ports, s.execution.ownsPort? port = some true := by
    intro port hport
    obtain ⟨hlow, hhigh⟩ : s.execution.basePort.toNat < port.toNat ∧
      port.toNat ≤ s.execution.basePort.toNat + min s.execution.portPoolSize.toNat _ := hfits.inPool port hport
    refine (ExecutionSettings.ownsPort?_iff_of_fits (poolFits_of_accepted h)).2 ⟨hlow, ?_⟩
    omega
  obtain ⟨hhttp, -, hhttpServer⟩ :=
    port_ne_of_owned h (howned l.reservation.httpPort (by simp [Reservation.ports]))
  obtain ⟨hlocal, -, hlocalServer⟩ :=
    port_ne_of_owned h (howned l.reservation.localPort (by simp [Reservation.ports]))
  have hserver := serverPort_ne_zero_of_accepted h
  have hsettings : (SupervisorSettings.ofSettings s).serverPort = s.server.port := rfl
  unfold Header.PortsDiffer
  rw [hnames.http, hnames.locally, hnames.server, hsettings]
  simp [hfits.apart, hhttp.symm, hlocal.symm, hserver.symm, hhttpServer, hlocalServer]

/-- **Accepted settings and the pool agree.** The pool of accepted settings has the size asked for, and there is a last
port. The ports that the pool can hand out, probed or not, are the ones that the settings call those of the pool, from the
first port to the last one, and 0, the base and the port of the supervisor are not among them. So in every header with
which a run is launched, after any interleaving of calls, the three ports differ and none of them is 0. -/
theorem accepted_settings_and_pool_agree (h : s.validate kind = .ok ()) {τ : Type} (w : Workshop)
    (store : TraceStore τ) (traces : τ) (packages : Option PackageManager) :
    let pool := PortPool.ofSize s.execution.basePort s.execution.portPoolSize.toNat
    pool.capacity = s.execution.portPoolSize.toNat ∧
      (∃ last, s.execution.lastPort? = some last ∧
        ∀ port, ((∃ ops, port ∈ pool.handedOut ops) ↔ s.execution.ownsPort? port = some true) ∧
          ((∃ ops, (∀ o ∈ ops, o.IsUnprobed) ∧ port ∈ pool.handedOut ops) ↔ s.execution.ownsPort? port = some true) ∧
          s.execution.ownsPort? port =
            some (decide (s.execution.firstPort.toNat ≤ port.toNat ∧ port.toNat ≤ last.toNat))) ∧
      (∀ ops, ∀ port ∈ pool.handedOut ops,
        port ≠ 0 ∧ port ≠ s.execution.basePort ∧ port ≠ s.server.port) ∧
      ∀ actions l,
        Activity.launching l ∈ ((System.initial (.ofSettings s) w store traces packages).run actions).activities →
          l.header.PortsDiffer := by
  intro pool
  have hfits := poolFits_of_accepted h
  obtain ⟨last, hlast, -⟩ := ExecutionSettings.exists_lastPort?_of_fits hfits
  have hany : ∀ port, (∃ ops, port ∈ pool.handedOut ops) ↔ s.execution.ownsPort? port = some true := by
    intro port
    simpa using ExecutionSettings.exists_handedOut_iff_ownsPort? hfits (fun _ => True) trivial
  refine ⟨ExecutionSettings.capacity_of_fits hfits,
    ⟨last, hlast, fun port => ⟨hany port, ?_, ExecutionSettings.ownsPort?_of_lastPort? hlast⟩⟩,
    fun ops port hport => ?_, fun actions l hl => ?_⟩
  · exact ExecutionSettings.exists_handedOut_iff_ownsPort? hfits _ rfl
  · exact port_ne_of_owned h ((hany port).1 ⟨ops, hport⟩)
  · obtain ⟨hpool, hnames⟩ := System.launching_fitsPool (.ofSettings s) w store traces packages actions hl
    exact portsDiffer_of_fitsPool h hpool hnames

/-- The default settings have a pool of 64 ports, and the first run gets the first two of them. -/
theorem default_settings_and_pool_agree :
    let s := Settings.default
    let pool := PortPool.ofSize s.execution.basePort s.execution.portPoolSize.toNat
    let S := (System.initial (.ofSettings s) Sample.workshop .memory [] none).run
      [.run (Sample.request "job") [7] (.off, .off), .proceed 0 100]
    pool.capacity = 64 ∧ (∃ ops, 3298 ∈ pool.handedOut ops) ∧ (¬ ∃ ops, 3234 ∈ pool.handedOut ops) ∧
      ∃ l, Activity.launching l ∈ S.activities ∧ l.header.PortsDiffer ∧
        [l.header.httpPort, l.header.localPort, l.header.serverPort] = [3235, 3236, 3234] := by
  intro s pool S
  have haccepted : s.validate (fun _ => .absent) = .ok () := by decide
  obtain ⟨hcapacity, ⟨last, -, hports⟩, -, hheaders⟩ :=
    accepted_settings_and_pool_agree haccepted Sample.workshop .memory [] none
  let l : Supervisor.Launchable := ⟨⟨7, 3235, 3236⟩,
    Sample.workshop.header (.ofSettings s) (Sample.request "job") ⟨7, 3235, 3236⟩ Sample.job, ⟨"text", []⟩⟩
  have hl : S.activities = [.launching l] := rfl
  have hmem : Activity.launching l ∈ S.activities := hl ▸ List.mem_singleton_self _
  exact ⟨hcapacity, (hports 3298).1.2 (by decide), fun h => absurd ((hports 3234).1.1 h) (by decide),
    l, hmem, hheaders _ _ hmem, rfl⟩

end Settings

end ScriptRunner
