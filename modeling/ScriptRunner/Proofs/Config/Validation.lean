import Mathlib.Algebra.Group.Nat.Defs
import ScriptRunner.Config.Validation
import ScriptRunner.Proofs.Document.Outcomes

/-!
# What passes the checks of the settings

Each check is described by what it accepts (`ExecutionSettings.validate_eq_ok_iff`, `Settings.validate_eq_ok_iff`). The
end of the pool of ports is a checked sum, so it is the true end where it exists (`checkedSum_eq_some_iff`). What is
accepted is right for all settings, but settings whose pool ends at `2^64` or past it get no verdict
(`ExecutionSettings.validate_eq_overflow_iff`, `ExecutionSettings.validation_is_exact_iff`).
-/

namespace ScriptRunner

/-! ## Single checks -/

section
variable {ε α : Type} {field value : String}

/-- A check is passed before what comes after it. -/
theorem check_bind_eq_ok_iff {x : Except ε Unit} {f : Unit → Except ε α} {a : α} :
    x >>= f = .ok a ↔ x = .ok () ∧ f () = .ok a :=
  bind_eq_ok_iff.trans ⟨fun ⟨_, h⟩ => h, fun h => ⟨(), h⟩⟩

/-- A check that is passed leaves the failure to what comes after it. -/
theorem check_bind_eq_error_iff {x : Except ε Unit} {f : Unit → Except ε α} {e : ε} :
    x >>= f = .error e ↔ x = .error e ∨ x = .ok () ∧ f () = .error e :=
  bind_eq_error_iff.trans (or_congr_right ⟨fun ⟨_, h⟩ => h, fun h => ⟨(), h⟩⟩)

theorem ite_error_eq_ok_iff {p : Prop} [Decidable p] {e : ε} {x : Except ε α} {a : α} :
    (if p then .error e else x) = .ok a ↔ ¬ p ∧ x = .ok a := by
  split <;> simp [*]

theorem forM_eq_ok_iff {f : α → Except ε Unit} {xs : List α} : xs.forM f = .ok () ↔ ∀ x ∈ xs, f x = .ok () := by
  induction xs with
  | nil => simp [pure, Except.pure]
  | cons x xs ih =>
    rw [List.forall_mem_cons, ← ih]
    exact check_bind_eq_ok_iff

theorem checkPort_eq_ok_iff {port : Port} : checkPort field port = .ok () ↔ 1 ≤ port.toNat := by
  rw [checkPort, ite_error_eq_ok_iff, and_iff_left rfl, ← UInt16.toNat_inj, UInt16.toNat_zero, Nat.one_le_iff_ne_zero]

theorem checkPositive_eq_ok_iff {n : Nat} : checkPositive field n = .ok () ↔ 1 ≤ n := by
  rw [checkPositive, ite_error_eq_ok_iff, and_iff_left rfl]
  omega

theorem checkText_eq_ok_iff : checkText field value = .ok () ↔ Text.isBlankText value = false := by
  rw [checkText, ite_error_eq_ok_iff, and_iff_left rfl, Bool.not_eq_true]

end

/-! ## Checked sums -/

/-- A checked sum is the true one. -/
theorem checkedSum_eq_some_iff {a b c : UInt64} : checkedSum a b = some c ↔ c.toNat = a.toNat + b.toNat := by
  unfold checkedSum
  split
  · rename_i h
    rw [Option.some.injEq, ← UInt64.toNat_inj, UInt64.toNat_add, Nat.mod_eq_of_lt h, eq_comm]
  · rename_i h
    refine iff_of_false nofun fun hc => h ?_
    rw [← hc]
    exact c.toNat_lt

theorem checkedSum_eq_none_iff {a b : UInt64} : checkedSum a b = none ↔ 2 ^ 64 ≤ a.toNat + b.toNat := by
  unfold checkedSum
  split
  · rename_i h
    exact iff_of_false nofun (Nat.not_le.2 h)
  · rename_i h
    exact iff_of_true rfl (Nat.not_lt.1 h)

theorem Halt.ofSum_eq_ok_iff {ε α : Type} {o : Option α} {a : α} :
    (Halt.ofSum o : Except (Halt ε) α) = .ok a ↔ o = some a := by
  cases o <;> simp [Halt.ofSum]

namespace ExecutionSettings

variable {s : ExecutionSettings}

/-! ## The ends of the pool -/

/-- The true end of the pool, which no arithmetic bounds. -/
def lastOfPool (s : ExecutionSettings) : Nat := s.basePort.toNat + s.portPoolSize.toNat

theorem poolEnd?_eq_some_iff {n : UInt64} : s.poolEnd? = some n ↔ n.toNat = s.lastOfPool := by
  rw [poolEnd?, checkedSum_eq_some_iff, UInt16.toNat_toUInt64, lastOfPool]

theorem poolEnd?_eq_none_iff : s.poolEnd? = none ↔ 2 ^ 64 ≤ s.lastOfPool := by
  rw [poolEnd?, checkedSum_eq_none_iff, UInt16.toNat_toUInt64, lastOfPool]

theorem exists_poolEnd?_of_lt (h : s.lastOfPool < 2 ^ 64) : ∃ n, s.poolEnd? = some n := by
  rw [← Option.isSome_iff_exists, Option.isSome_iff_ne_none, Ne, poolEnd?_eq_none_iff]
  exact Nat.not_le.2 h

theorem toNat_firstPort (s : ExecutionSettings) : s.firstPort.toNat = min (s.basePort.toNat + 1) 65535 := by
  have hb := s.basePort.toNat_lt
  unfold firstPort
  split
  · rename_i h
    rw [h]
    rfl
  · rename_i h
    have hne : s.basePort.toNat ≠ 65535 := fun he => h (UInt16.toNat_inj.1 he)
    rw [UInt16.toNat_add, UInt16.toNat_one]
    omega

/-- A word that is cut off at the highest port. -/
theorem toNat_min_toUInt16 (n : UInt64) : (min n 65535).toUInt16.toNat = min n.toNat 65535 := by
  have hmin : (min n 65535).toNat = min n.toNat 65535 := by
    show (if n ≤ 65535 then n else 65535).toNat = _
    split <;> rename_i h <;> rw [UInt64.le_iff_toNat_le] at h <;> simp at h ⊢ <;> omega
  rw [UInt64.toNat_toUInt16, hmin]
  omega

/-- The last port is the true one, where it is worked out at all. -/
theorem lastPort?_eq_some_iff {port : Port} :
    s.lastPort? = some port ↔ s.lastOfPool < 2 ^ 64 ∧ port.toNat = min s.lastOfPool 65535 := by
  rw [lastPort?, Option.map_eq_some_iff]
  constructor
  · rintro ⟨n, hn, rfl⟩
    rw [poolEnd?_eq_some_iff] at hn
    rw [toNat_min_toUInt16, hn]
    exact ⟨hn ▸ n.toNat_lt, rfl⟩
  · rintro ⟨hlt, hport⟩
    obtain ⟨n, hn⟩ := exists_poolEnd?_of_lt hlt
    refine ⟨n, hn, ?_⟩
    rw [← UInt16.toNat_inj, toNat_min_toUInt16, poolEnd?_eq_some_iff.1 hn, hport]

theorem lastPort?_eq_none_iff : s.lastPort? = none ↔ 2 ^ 64 ≤ s.lastOfPool := by
  rw [lastPort?, Option.map_eq_none_iff, poolEnd?_eq_none_iff]

/-- A pool with a last port has the ports between its ends. -/
theorem ownsPort?_of_lastPort? {last port : Port} (h : s.lastPort? = some last) :
    s.ownsPort? port = some (decide (s.firstPort.toNat ≤ port.toNat ∧ port.toNat ≤ last.toNat)) := by
  unfold ownsPort?
  split <;> rename_i hfirst <;> rw [UInt16.le_iff_toNat_le] at hfirst <;> simp [h, hfirst, UInt16.le_iff_toNat_le]

/-! ## What the check accepts -/

/-- The pool holds the ports of one task at least, and all its ports exist. -/
structure PoolFits (s : ExecutionSettings) : Prop where
  base : 1 ≤ s.basePort.toNat
  size : 2 ≤ s.portPoolSize.toNat
  last : s.lastOfPool ≤ 65535

/-- Tasks can be run as far as the settings besides the pool go. -/
structure AllowsTasks (s : ExecutionSettings) : Prop where
  limit : s.restricted = true → 1 ≤ s.maxTasks.toNat
  language : Text.isBlankText s.defaultLang = false
  timeout : s.packageTimeoutMillis.toNat ≠ 0

theorem checkPoolStart_eq_ok_iff :
    s.checkPoolStart = .ok () ↔ 1 ≤ s.basePort.toNat ∧ 1 ≤ s.portPoolSize.toNat := by
  rw [checkPoolStart, check_bind_eq_ok_iff, checkPort_eq_ok_iff, checkPositive_eq_ok_iff]

theorem checkFrom_eq_ok_iff {last : UInt64} :
    s.checkFrom last = .ok () ↔ last.toNat ≤ 65535 ∧ 2 ≤ s.portPoolSize.toNat ∧ s.AllowsTasks := by
  have hlast : ¬ 65535 < last ↔ last.toNat ≤ 65535 := by
    rw [UInt64.lt_iff_toNat_lt, Nat.not_lt]
    rfl
  have hsize : ¬ s.portPoolSize < 2 ↔ 2 ≤ s.portPoolSize.toNat := by
    rw [UInt64.lt_iff_toNat_lt, Nat.not_lt]
    rfl
  have htimeout : ¬ s.packageTimeoutMillis = 0 ↔ s.packageTimeoutMillis.toNat ≠ 0 := by
    rw [← UInt64.toNat_inj, UInt64.toNat_zero]
  have hrest : s.checkFrom last = .ok () ↔ last.toNat ≤ 65535 ∧ 2 ≤ s.portPoolSize.toNat ∧
      (s.restricted = true → 1 ≤ s.maxTasks.toNat) ∧ Text.isBlankText s.defaultLang = false ∧
        s.packageTimeoutMillis.toNat ≠ 0 := by
    cases hr : s.restricted <;>
      simp [checkFrom, hr, check_bind_eq_ok_iff, ite_error_eq_ok_iff, checkPositive_eq_ok_iff, checkText_eq_ok_iff,
        hlast, hsize, htimeout]
  rw [hrest]
  constructor
  · rintro ⟨hlast, hsize, hlimit, hlanguage, htimeout⟩
    exact ⟨hlast, hsize, hlimit, hlanguage, htimeout⟩
  · rintro ⟨hlast, hsize, hlimit, hlanguage, htimeout⟩
    exact ⟨hlast, hsize, hlimit, hlanguage, htimeout⟩

/-- The check accepts exactly the settings whose pool fits and that allow tasks. -/
theorem validate_eq_ok_iff : s.validate = .ok () ↔ s.PoolFits ∧ s.AllowsTasks := by
  rw [validate, check_bind_eq_ok_iff, mapError_eq_ok_iff, checkPoolStart_eq_ok_iff, bind_eq_ok_iff]
  simp only [Halt.ofSum_eq_ok_iff, mapError_eq_ok_iff, checkFrom_eq_ok_iff, poolEnd?_eq_some_iff]
  constructor
  · rintro ⟨⟨hbase, -⟩, last, hlast, hend, hsize, hallows⟩
    exact ⟨⟨hbase, hsize, hlast ▸ hend⟩, hallows⟩
  · rintro ⟨hfits, hallows⟩
    have hlast := hfits.last
    obtain ⟨last, hend⟩ := exists_poolEnd?_of_lt (s := s) (by omega)
    have hend := poolEnd?_eq_some_iff.1 hend
    have hsize := hfits.size
    exact ⟨⟨hfits.base, by omega⟩, last, hend, by omega, hsize, hallows⟩

/-- The check stops exactly at an end that 64 bits do not hold. -/
theorem validate_eq_overflow_iff : s.validate = .error .overflow ↔ 2 ^ 64 ≤ s.lastOfPool := by
  have hreported : ∀ x : Except SettingsFault Unit, x.mapError Halt.reported ≠ .error .overflow := by
    intro x h
    obtain ⟨_, -, he⟩ := mapError_eq_error_iff.1 h
    cases he
  have hsum : (Halt.ofSum s.poolEnd? : Except (Halt SettingsFault) UInt64) = .error .overflow ↔
      2 ^ 64 ≤ s.lastOfPool := by
    rw [← poolEnd?_eq_none_iff]
    cases s.poolEnd? <;> simp [Halt.ofSum]
  -- The checks before the sum are passed, since no port and no size alone is past 64 bits.
  have hstart : 2 ^ 64 ≤ s.lastOfPool → s.checkPoolStart = .ok () := by
    have hb := s.basePort.toNat_lt
    have hp := s.portPoolSize.toNat_lt
    intro h
    unfold lastOfPool at h
    exact checkPoolStart_eq_ok_iff.2 ⟨by omega, by omega⟩
  rw [validate, check_bind_eq_error_iff, or_iff_right (hreported _), mapError_eq_ok_iff, bind_eq_error_iff, hsum]
  simp only [hreported, and_false, exists_false, or_false]
  exact and_iff_right_of_imp hstart

/-- **When settings are judged at all.** The settings that are accepted are always those whose pool fits and that allow
tasks. But a verdict is given, and a last port, exactly if the end of the pool lies below `2^64`; then the last port is
this end, or the highest port. If not, the pool does not fit, and neither the check nor the last port has a result. -/
theorem validation_is_exact_iff (s : ExecutionSettings) :
    let last := s.basePort.toNat + s.portPoolSize.toNat
    (s.validate = .ok () ↔ s.PoolFits ∧ s.AllowsTasks) ∧
      ((s.validate = .ok () ∨ ∃ fault, s.validate = .error (.reported fault)) ↔ last < 2 ^ 64) ∧
      ((∃ port, s.lastPort? = some port ∧ port.toNat = min last 65535) ↔ last < 2 ^ 64) ∧
      (2 ^ 64 ≤ last → ¬ s.PoolFits ∧ s.validate = .error .overflow ∧ s.lastPort? = none) := by
  intro last
  refine ⟨validate_eq_ok_iff, ?_, ?_, fun hge => ⟨fun hfits => ?_, validate_eq_overflow_iff.2 hge,
    lastPort?_eq_none_iff.2 hge⟩⟩
  · have hoverflow : s.validate = .error .overflow ↔ 2 ^ 64 ≤ last := validate_eq_overflow_iff
    rw [← Nat.not_le, ← hoverflow]
    cases s.validate with
    | ok u => simp
    | error e => cases e <;> simp
  · constructor
    · rintro ⟨port, hport, -⟩
      exact (lastPort?_eq_some_iff.1 hport).1
    · intro hlt
      have hsome : (min last 65535) < 65536 := by omega
      exact ⟨.ofNat (min last 65535), lastPort?_eq_some_iff.2 ⟨hlt, UInt16.toNat_ofNat_of_lt hsome⟩,
        UInt16.toNat_ofNat_of_lt hsome⟩
  · have hlast : last ≤ 65535 := hfits.last
    omega

/-- A pool of `2^64 - 1` ports does not fit, but it is not refused, and it has no last port. -/
theorem unbounded_pool_is_not_refused :
    let s : ExecutionSettings := { ExecutionSettings.default with portPoolSize := 18446744073709551615 }
    ¬ s.PoolFits ∧ ¬ (s.validate = .ok () ∨ ∃ fault, s.validate = .error (.reported fault)) ∧
      ¬ ∃ port, s.lastPort? = some port ∧ port.toNat = min (s.basePort.toNat + s.portPoolSize.toNat) 65535 := by
  intro s
  have hsum : 2 ^ 64 ≤ s.lastOfPool := by decide
  have hverdict : s.validate = .error .overflow := validate_eq_overflow_iff.2 hsum
  have hport : s.lastPort? = none := lastPort?_eq_none_iff.2 hsum
  refine ⟨fun hfits => ?_, ?_, ?_⟩
  · have hlast := hfits.last
    omega
  · rw [hverdict]
    simp
  · rw [hport]
    simp

end ExecutionSettings

/-! ## All settings together -/

theorem ServerSettings.validate_eq_ok_iff {s : ServerSettings} :
    s.validate = .ok () ↔ Text.isBlankText s.bindAddress = false ∧ 1 ≤ s.port.toNat := by
  rw [validate, check_bind_eq_ok_iff, checkText_eq_ok_iff, checkPort_eq_ok_iff]

/-- Settings are accepted if each group is and the port of the supervisor is known not to be one of the pool. -/
theorem Settings.validate_eq_ok_iff {s : Settings} {kind : String → PathKind} : s.validate kind = .ok () ↔
    (s.execution.validate = .ok () ∧ s.server.validate = .ok () ∧ s.logging.validate = .ok () ∧
      s.storage.validate kind = .ok () ∧ s.scripts.validate kind = .ok ()) ∧
      s.execution.ownsPort? s.server.port = some false := by
  have hoverlap : s.checkOverlap = .ok () ↔ s.execution.ownsPort? s.server.port = some false := by
    simp [checkOverlap, bind_eq_ok_iff, Halt.ofSum_eq_ok_iff]
  rw [validate, check_bind_eq_ok_iff, forM_eq_ok_iff, hoverlap]
  simp [verdicts, inDomain, mapError_eq_ok_iff]

end ScriptRunner
