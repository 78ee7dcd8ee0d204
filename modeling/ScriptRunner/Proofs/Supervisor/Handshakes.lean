import Mathlib.Data.List.Basic
import ScriptRunner.Proofs.Number.FixedWidth
import ScriptRunner.Proofs.Supervisor.PackageStarts
import ScriptRunner.Proofs.Text.Trimming

/-!
# Ports in handshakes

A line names a port exactly if it is, trimmed, a number sign and behind blanks the digits of a number of 16 bits, with
or without a plus sign (`parseHandshake?_eq_some_iff`). Zero is among these numbers, but no port to connect to. So ports
can be used exactly as long as no program that is started names zero first
(`PackageManager.handshakes_name_usable_ports_iff`).
-/

namespace ScriptRunner

open Decimal

/-- The line is, trimmed, a number sign and behind blanks the sign and digits of the number. -/
def NamesNumber (sign : List Char) (line : String) (n : Nat) : Prop :=
  ∃ gap digits, Text.strip Text.isBlank line.toList = '#' :: (gap ++ (sign ++ digits)) ∧
    (∀ c ∈ gap, Text.isBlank c = true) ∧ IsDigits digits ∧ digitsValue digits = n

variable {line : String} {lines : List String} {port : Port} {n : Nat}

/-! ## Lines -/

theorem isSigned_uint16 : IntRange.uint16.isSigned = false := rfl

theorem toNat_greatest_uint16 : IntRange.uint16.greatest.toNat = 65535 := rfl

/-- Neither a sign nor a digit is blank. -/
theorem strip_gap_number {gap sign digits : List Char} (hgap : ∀ c ∈ gap, Text.isBlank c = true)
    (hsign : sign = [] ∨ sign = ['+']) (hd : IsDigits digits) :
    Text.strip Text.isBlank (gap ++ (sign ++ digits)) = sign ++ digits := by
  refine Text.strip_gap_append hgap (List.append_ne_nil_of_right_ne_nil sign hd.1) (fun c hc => ?_) fun c hc => ?_
  · obtain ⟨d, ds, rfl, hdigit⟩ := hd.exists_cons
    rcases hsign with rfl | rfl
    · obtain rfl : d = c := Option.some.inj hc
      exact Text.isBlank_of_isDigit hdigit
    · obtain rfl : '+' = c := Option.some.inj hc
      decide
  · rw [List.getLast?_append_of_ne_nil sign hd.1] at hc
    exact Text.isBlank_of_isDigit (hd.2 c (List.mem_of_getLast? hc))

theorem namesNumber_of_parseHandshake? (h : parseHandshake? line = some port) :
    NamesNumber [] line port.toNat ∨ NamesNumber ['+'] line port.toNat := by
  unfold parseHandshake? at h
  split at h
  · rename_i r hline
    obtain ⟨i, hi, rfl⟩ := Option.map_eq_some_iff.1 h
    obtain ⟨sign, digits, hsign, hrest, hd, hle, rfl⟩ :=
      (IntRange.parse_eq_ok_iff_of_unsigned isSigned_uint16).1 (toOption_eq_some_iff.1 hi)
    rw [toNat_greatest_uint16] at hle
    have hlast : ∀ c, r.getLast? = some c → Text.isBlank c = false := by
      intro c hc
      have hstripped : (Text.strip Text.isBlank line.toList).getLast? = some c := by
        rw [hline, List.getLast?_cons, hc]
        rfl
      exact Text.eq_false_of_getLast?_strip hstripped
    have hr := Text.strip_of_last hlast
    rw [hrest] at hr
    have hport : (UInt16.ofNat (digitsValue digits : Int).toNat).toNat = digitsValue digits := by
      rw [Int.toNat_natCast, UInt16.toNat_ofNat', Nat.mod_eq_of_lt (by omega)]
    have hnames : NamesNumber sign line (UInt16.ofNat (digitsValue digits : Int).toNat).toNat :=
      ⟨r.takeWhile Text.isBlank, digits, by rw [hline, ← hr], List.all_eq_true.1 List.all_takeWhile, hd, hport.symm⟩
    rcases hsign with rfl | rfl
    · exact .inl hnames
    · exact .inr hnames
  · cases h

theorem parseHandshake?_of_namesNumber {sign : List Char} (hsign : sign = [] ∨ sign = ['+'])
    (h : NamesNumber sign line n) (hn : n ≤ 65535) : parseHandshake? line = some (UInt16.ofNat n) := by
  obtain ⟨gap, digits, hline, hgap, hd, rfl⟩ := h
  have hparse : IntRange.uint16.parse 10 (sign ++ digits) = .ok (digitsValue digits : Int) :=
    (IntRange.parse_eq_ok_iff_of_unsigned isSigned_uint16).2 ⟨sign, digits, hsign, rfl, hd, hn, rfl⟩
  unfold parseHandshake?
  rw [hline]
  simp only [strip_gap_number hgap hsign hd, hparse, Except.toOption, Option.map_some, Int.toNat_natCast]

/-- **Which lines name a port.** -/
theorem parseHandshake?_eq_some_iff :
    parseHandshake? line = some port ↔ NamesNumber [] line port.toNat ∨ NamesNumber ['+'] line port.toNat := by
  have hle : port.toNat ≤ 65535 := Nat.le_of_lt_succ port.toNat_lt
  refine ⟨namesNumber_of_parseHandshake?, ?_⟩
  rintro (h | h)
  · rw [parseHandshake?_of_namesNumber (.inl rfl) h hle, UInt16.ofNat_toNat]
  · rw [parseHandshake?_of_namesNumber (.inr rfl) h hle, UInt16.ofNat_toNat]

/-- Digits behind a plus sign are not digits. -/
theorem not_namesNumber_of_plus {m : Nat} (h : NamesNumber ['+'] line n) : ¬ NamesNumber [] line m := by
  rintro ⟨gap', digits', hline', hgap', hd', -⟩
  obtain ⟨gap, digits, hline, hgap, hd, -⟩ := h
  have hrest := congrArg (Text.strip Text.isBlank) (List.tail_eq_of_cons_eq (hline.symm.trans hline'))
  rw [strip_gap_number hgap (.inr rfl) hd, strip_gap_number hgap' (.inl rfl) hd'] at hrest
  have hplus : '+' ∈ [] ++ digits' := hrest ▸ List.mem_cons_self
  exact absurd (hd'.2 '+' hplus) (by decide)

/-- The line names zero, and no port to connect to. -/
def NamesZero (line : String) : Prop := NamesNumber [] line 0 ∨ NamesNumber ['+'] line 0

theorem parseHandshake?_eq_some_zero_iff : parseHandshake? line = some 0 ↔ NamesZero line := parseHandshake?_eq_some_iff

/-- A line is read as the digits of a usable port alone exactly if it does not name zero and has no plus sign. -/
theorem reads_usable_port_iff (line : String) :
    (∀ port, parseHandshake? line = some port ↔
      NamesNumber [] line port.toNat ∧ 1 ≤ port.toNat ∧ port.toNat ≤ 65535) ↔
    ¬ NamesNumber [] line 0 ∧ ∀ n ≤ 65535, ¬ NamesNumber ['+'] line n := by
  constructor
  · refine fun h => ⟨fun hzero => ?_, fun n hn hplus => ?_⟩
    · have hread : parseHandshake? line = some 0 := parseHandshake?_of_namesNumber (.inl rfl) hzero (Nat.zero_le _)
      exact absurd ((h 0).1 hread).2.1 (by decide)
    · have hread := parseHandshake?_of_namesNumber (.inr rfl) hplus hn
      exact not_namesNumber_of_plus hplus ((h _).1 hread).1
  · rintro ⟨hzero, hplus⟩ port
    have hle : port.toNat ≤ 65535 := Nat.le_of_lt_succ port.toNat_lt
    rw [parseHandshake?_eq_some_iff]
    constructor
    · intro h
      have hdigits := h.resolve_right (hplus port.toNat hle)
      exact ⟨hdigits, Nat.one_le_iff_ne_zero.2 fun he => hzero (he ▸ hdigits), hle⟩
    · exact fun h => .inl h.1

/-! ## Packages -/

namespace PackageManager

variable {m : PackageManager} {c : PackageCall} {dir : String} {calls : List PackageCall} {name : String}

/-- The request starts a program, and the first line of it that names a port names zero. -/
def StartsZero (m : PackageManager) (c : PackageCall) : Prop :=
  ∃ program output earlier line later, m.spawned? c = some program ∧ c.run program = .ok output ∧
    output.lines = earlier ++ line :: later ∧ (∀ l ∈ earlier, parseHandshake? l = none) ∧ NamesZero line

theorem startsZero_iff : m.StartsZero c ↔ m.portOf? c.name = none ∧ m.answer c = .ok 0 := by
  constructor
  · rintro ⟨program, output, earlier, line, later, hspawned, hrun, hlines, hnone, hzero⟩
    have hread := parseHandshake?_eq_some_zero_iff.2 hzero
    exact ⟨(spawned?_eq_some_iff.1 hspawned).1,
      (answer_eq_ok_iff hspawned).2 ⟨output, hrun, earlier, line, later, hlines, hnone, hread⟩⟩
  · rintro ⟨hport, hanswer⟩
    by_cases hname : IsPackageName c.name
    · have hspawned : m.spawned? c = some (programFor m.dir c) := spawned?_eq_some_iff.2 ⟨hport, hname, rfl⟩
      obtain ⟨output, hrun, earlier, line, later, hlines, hnone, hread⟩ := (answer_eq_ok_iff hspawned).1 hanswer
      exact ⟨_, output, earlier, line, later, hspawned, hrun, hlines, hnone, parseHandshake?_eq_some_zero_iff.1 hread⟩
    · cases (answer_of_refused hport hname).symm.trans hanswer

/-- Zero is remembered only of a program that named it. -/
theorem exists_startsZero (h : ((ofDir dir).after calls).portOf? name = some 0) :
    ∃ earlier first later, calls = earlier ++ first :: later ∧ ((ofDir dir).after earlier).StartsZero first := by
  induction calls using List.reverseRecOn with
  | nil => cases h
  | append_singleton calls c ih =>
    by_cases hbefore : ((ofDir dir).after calls).portOf? name = some 0
    · obtain ⟨earlier, first, later, rfl, hzero⟩ := ih hbefore
      exact ⟨earlier, first, later ++ [c], by simp, hzero⟩
    · have hlast : (ofDir dir).after (calls ++ [c]) = ((ofDir dir).after calls).next c := after_append ..
      rw [hlast] at h
      have hname : name = c.name := by
        by_contra hn
        exact hbefore (portOf?_next_of_ne hn ▸ h)
      subst hname
      rw [portOf?_next_self, toOption_eq_some_iff] at h
      refine ⟨calls, c, [], rfl, startsZero_iff.2 ⟨?_, h⟩⟩
      cases hport : ((ofDir dir).after calls).portOf? c.name with
      | none => rfl
      | some port =>
        obtain rfl : port = 0 := Except.ok.inj ((answer_of_running hport).1.symm.trans h)
        exact absurd hport hbefore

theorem usable_iff {port : Port} : 1 ≤ port.toNat ∧ port.toNat ≤ 65535 ↔ port ≠ 0 := by
  rw [Ne, ← UInt16.toNat_inj, UInt16.toNat_zero]
  have hlt := port.toNat_lt
  omega

/-- **When handshakes name usable ports.** A line is read for a port from 1 to 65535 given by digits exactly if it names
neither zero nor a number with a plus sign. All ports that a manager returns and remembers in a history can be used
exactly if no program that is started in it names zero first. -/
theorem handshakes_name_usable_ports_iff (line : String) (dir : String) (calls : List PackageCall) :
    ((∀ port, parseHandshake? line = some port ↔
        NamesNumber [] line port.toNat ∧ 1 ≤ port.toNat ∧ port.toNat ≤ 65535) ↔
      ¬ NamesNumber [] line 0 ∧ ∀ n ≤ 65535, ¬ NamesNumber ['+'] line n) ∧
    ((∀ earlier c later, calls = earlier ++ c :: later → ∀ port, ((ofDir dir).after earlier).answer c = .ok port →
          1 ≤ port.toNat ∧ port.toNat ≤ 65535) ∧
        (∀ name port, ((ofDir dir).after calls).portOf? name = some port → 1 ≤ port.toNat ∧ port.toNat ≤ 65535) ↔
      ∀ earlier c later, calls = earlier ++ c :: later → ¬ ((ofDir dir).after earlier).StartsZero c) := by
  refine ⟨reads_usable_port_iff line, ⟨?_, fun h => ?_⟩⟩
  · rintro ⟨hanswers, -⟩ earlier c later hcalls hzero
    exact absurd (hanswers earlier c later hcalls 0 (startsZero_iff.1 hzero).2).1 (by decide)
  · have hremembered : ∀ name, ((ofDir dir).after calls).portOf? name ≠ some 0 := by
      intro name hport
      obtain ⟨earlier, first, later, hcalls, hzero⟩ := exists_startsZero hport
      exact h earlier first later hcalls hzero
    refine ⟨fun earlier c later hcalls port hanswer => usable_iff.2 ?_, fun name port hport => usable_iff.2 ?_⟩
    · rintro rfl
      exact hremembered c.name (portOf?_after_iff.2 ⟨earlier, c, later, hcalls, rfl, hanswer⟩)
    · rintro rfl
      exact hremembered name hport

/-- A package that names zero as its port. -/
def namingZero : PackageCall := ⟨"mailer", 1, 4000, fun _ => .ok ⟨["#0"], "", true⟩⟩

/-- Zero is taken for a port, and so are digits behind a plus sign. -/
theorem zero_is_remembered_as_port :
    parseHandshake? "#0" = some 0 ∧ parseHandshake? "#+80" = some 80 ∧
      ((ofDir "packages").next namingZero).portOf? "mailer" = some 0 ∧
      ¬ (∀ line port, parseHandshake? line = some port ↔
          NamesNumber [] line port.toNat ∧ 1 ≤ port.toNat ∧ port.toNat ≤ 65535) ∧
      ¬ ∀ dir calls name port, ((ofDir dir).after calls).portOf? name = some port → 1 ≤ port.toNat := by
  have hzero : parseHandshake? "#0" = some 0 := by decide
  have hname : IsPackageName namingZero.name := ⟨by decide, by decide, by decide, by decide⟩
  have hspawned : (ofDir "packages").spawned? namingZero = some (programFor "packages" namingZero) :=
    spawned?_eq_some_iff.2 ⟨rfl, hname, rfl⟩
  have hanswer : (ofDir "packages").answer namingZero = .ok 0 :=
    (answer_eq_ok_iff hspawned).2 ⟨_, rfl, [], "#0", [], rfl, nofun, hzero⟩
  have hremembered : ((ofDir "packages").after [namingZero]).portOf? "mailer" = some 0 :=
    portOf?_after_iff.2 ⟨[], namingZero, [], rfl, rfl, hanswer⟩
  refine ⟨hzero, by decide, hremembered, fun h => ?_, fun h => ?_⟩
  · exact absurd ((h "#0" 0).1 hzero).2.1 (by decide)
  · exact absurd (h _ _ _ _ hremembered) (by decide)

end PackageManager

end ScriptRunner
