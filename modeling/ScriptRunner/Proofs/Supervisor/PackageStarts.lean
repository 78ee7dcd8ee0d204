import Mathlib.Data.List.Induction
import ScriptRunner.Proofs.Document.Outcomes
import ScriptRunner.Proofs.Paths
import ScriptRunner.Supervisor.Packages

/-!
# Starting packages

Each request to start a package comes with what the program would do at this time, so a row of requests is a history of
a manager (`PackageManager.after`). One request either finds the package running, or is refused for its name, or starts
one program and waits for its port (`PackageManager.start_of_running`, `PackageManager.start_of_refused`,
`PackageManager.start_of_spawned`). What a manager remembers of a package is what the request answered
(`PackageManager.portOf?_next_self`), so after any history it is the port of the one start that succeeded
(`PackageManager.portOf?_after_iff`), and no program is started for the package again.

A program that is named without a slash is looked for in the directories of the search path (`Spawn.places`). Names of
packages have none, so the directory of the packages keeps programs from being searched for, unless its path is empty
(`PackageManager.places_programFor_iff`).
-/

namespace ScriptRunner

/-- A request to start a package, and what programs do that are started on it. -/
structure PackageCall where
  name : String
  task : TaskId
  localPort : Port
  run : Spawn → Except FileFault PackageOutput

/-- A name that stands for a program right in the directory of packages. -/
structure IsPackageName (name : String) : Prop where
  ne_empty : name ≠ ""
  noSlash : '/' ∉ name.toList
  noBackslash : '\\' ∉ name.toList
  notHidden : name.toList.head? ≠ some '.'

/-- Where a program is looked for: at its path if this has a slash, else under its name in each directory of the search
path. -/
def Spawn.places (searchPath : List String) (s : Spawn) : List String :=
  if s.program.contains '/' then [s.program] else searchPath.map fun dir => joinPath dir s.program

/-- The first line that names a port names this one. -/
def FirstHandshake (lines : List String) (port : Port) : Prop :=
  ∃ earlier line later, lines = earlier ++ line :: later ∧ (∀ l ∈ earlier, parseHandshake? l = none) ∧
    parseHandshake? line = some port

theorem IsPackageName.ne_of_hidden {name : String} (h : IsPackageName name) {hidden : String}
    (hdot : hidden.toList.head? = some '.') : name ≠ hidden := by
  rintro rfl
  exact h.notHidden hdot

theorem IsPackageName.isEntryName {name : String} (h : IsPackageName name) : IsEntryName name where
  ne_empty := h.ne_empty
  noSlash := h.noSlash
  ne_dot := h.ne_of_hidden rfl
  ne_dots := h.ne_of_hidden rfl

theorem findSome?_parseHandshake?_iff {lines : List String} {port : Port} :
    lines.findSome? parseHandshake? = some port ↔ FirstHandshake lines port := by
  rw [List.findSome?_eq_some_iff]
  exact exists_congr fun earlier => exists_congr fun line => exists_congr fun later => and_congr_right fun _ => and_comm

namespace PackageManager

variable {m : PackageManager} {c : PackageCall} {name n : String} {port : Port} {program : Spawn} {e : ChannelError}
variable {run : Spawn → Except FileFault PackageOutput} {task : TaskId} {localPort : Port}

/-- What a request is answered. -/
def answer (m : PackageManager) (c : PackageCall) : Except ChannelError Port :=
  (m.start c.run c.name c.task c.localPort).1

/-- The manager after a request. -/
def next (m : PackageManager) (c : PackageCall) : PackageManager :=
  (m.start c.run c.name c.task c.localPort).2

/-- The manager after a history of requests. -/
def after (m : PackageManager) (calls : List PackageCall) : PackageManager :=
  calls.foldl next m

/-- The program that a request starts. -/
def spawned? (m : PackageManager) (c : PackageCall) : Option Spawn :=
  match m.plan c.name c.task c.localPort with
  | .spawn program => some program
  | _ => none

/-- The program of a package, with the arguments for a task. -/
def programFor (dir : String) (c : PackageCall) : Spawn :=
  ⟨joinPath dir c.name, ["-t=" ++ toString c.task.toNat, "-p=" ++ toString c.localPort.toNat]⟩

theorem isValidName_eq_true_iff : isValidName name = true ↔ IsPackageName name := by
  have hhidden : name.startsWith "." = false ↔ name.toList.head? ≠ some '.' := by
    rw [String.startsWith_string_eq_false_iff]
    cases name.toList <;> simp [List.cons_prefix_cons, eq_comm]
  simp only [isValidName, Bool.not_eq_true', Bool.or_eq_false_iff, String.isEmpty_eq_false_iff,
    String.contains_char_eq, decide_eq_false_iff_not, hhidden, and_assoc]
  exact ⟨fun ⟨h1, h2, h3, h4⟩ => ⟨h1, h2, h3, h4⟩, fun ⟨h1, h2, h3, h4⟩ => ⟨h1, h2, h3, h4⟩⟩

theorem handshake_eq_ok_iff {output : Except FileFault PackageOutput} :
    handshake program output = .ok port ↔ ∃ o, output = .ok o ∧ FirstHandshake o.lines port := by
  cases output with
  | error fault => simp [handshake]
  | ok o =>
    simp only [handshake, ← findSome?_parseHandshake?_iff, Except.ok.injEq, exists_eq_left']
    cases o.lines.findSome? parseHandshake? with
    | some p => simp
    | none => simp only [reduceCtorEq, iff_false]; split <;> simp

/-! ## Where programs are looked for -/

theorem joinPath_empty (h : IsPackageName name) : joinPath "" name = name := by
  rcases joinPath_cases h.isEntryName "" with ⟨-, he⟩ | ⟨-, -, hne, -⟩
  · exact he
  · exact absurd rfl hne

/-- The empty path puts nothing in front of a name, so its programs are searched for. -/
theorem places_programFor_empty (h : IsPackageName c.name) (searchPath : List String) :
    (programFor "" c).places searchPath = searchPath.map fun dir => joinPath dir c.name := by
  have hbare : (programFor "" c).program = c.name := joinPath_empty h
  rw [Spawn.places, hbare, String.contains_char_eq, if_neg (by simpa using h.noSlash)]

/-- **A program is looked for in the directory of the packages alone** exactly if the path of the directory is not
empty. -/
theorem places_programFor_iff {dir : String} (h : IsPackageName c.name) :
    (∀ searchPath, (programFor dir c).places searchPath = [joinPath dir c.name]) ↔ dir ≠ "" := by
  constructor
  · rintro hplaces rfl
    have hnone := hplaces []
    rw [places_programFor_empty h] at hnone
    cases hnone
  · intro hdir searchPath
    have hslash : '/' ∈ (programFor dir c).program.toList := slash_mem_joinPath h.isEntryName hdir
    rw [Spawn.places, String.contains_char_eq, if_pos (decide_eq_true hslash)]
    rfl

/-! ## One request -/

theorem plan_of_running (h : m.portOf? name = some port) : m.plan name task localPort = .running port := by
  rw [plan, h]

theorem plan_of_refused (h : m.portOf? name = none) (hname : ¬ IsPackageName name) :
    m.plan name task localPort = .refused (.handshake ("invalid package name '" ++ name ++ "'")) := by
  rw [plan, h]
  exact if_neg (mt isValidName_eq_true_iff.1 hname)

theorem plan_of_spawned (h : m.portOf? c.name = none) (hname : IsPackageName c.name) :
    m.plan c.name c.task c.localPort = .spawn (programFor m.dir c) := by
  rw [plan, h]
  exact if_pos (isValidName_eq_true_iff.2 hname)

/-- **All that a request can do**: it finds the package running, is refused for the name, or starts the program, whose
port is remembered if it names one. -/
theorem start_cases (m : PackageManager) (c : PackageCall) :
    (∃ port, m.portOf? c.name = some port ∧ m.spawned? c = none ∧ m.answer c = .ok port ∧ m.next c = m) ∨
    (m.portOf? c.name = none ∧ ¬ IsPackageName c.name ∧ m.spawned? c = none ∧
      m.answer c = .error (.handshake ("invalid package name '" ++ c.name ++ "'")) ∧ m.next c = m) ∨
    (m.portOf? c.name = none ∧ IsPackageName c.name ∧ m.spawned? c = some (programFor m.dir c) ∧
      m.answer c = handshake (programFor m.dir c) (c.run (programFor m.dir c)) ∧
      m.next c = match m.answer c with
        | .ok port => m.remember c.name port
        | .error _ => m) := by
  unfold spawned? answer next start
  cases hport : m.portOf? c.name with
  | some port =>
    left
    simp [plan_of_running hport]
  | none =>
    right
    by_cases hname : IsPackageName c.name
    · right
      simp only [plan_of_spawned hport hname, hname, true_and]
      cases handshake (programFor m.dir c) (c.run (programFor m.dir c)) <;> simp
    · left
      simp [plan_of_refused hport hname, hname]

/-- **What a request starts**: the program of a package that is not running, if the name is that of one. -/
theorem spawned?_eq_some_iff :
    m.spawned? c = some program ↔ m.portOf? c.name = none ∧ IsPackageName c.name ∧ program = programFor m.dir c := by
  rcases m.start_cases c with ⟨port, hport, hnone, -⟩ | ⟨-, hname, hnone, -⟩ | ⟨hport, hname, hsome, -⟩
  · simp [hnone, hport]
  · simp [hnone, hname]
  · simp [hsome, hport, hname, eq_comm]

/-- A request looks at no program but the one it starts. -/
theorem start_congr (h : ∀ program, m.spawned? c = some program → run program = c.run program) :
    m.start run c.name c.task c.localPort = m.start c.run c.name c.task c.localPort := by
  unfold start
  cases hplan : m.plan c.name c.task c.localPort with
  | running port => rfl
  | refused e => rfl
  | spawn program =>
    have hspawned : m.spawned? c = some program := by simp [spawned?, hplan]
    simp only [h program hspawned]

/-- **When a start succeeds.** -/
theorem answer_eq_ok_iff (h : m.spawned? c = some program) :
    m.answer c = .ok port ↔ ∃ output, c.run program = .ok output ∧ FirstHandshake output.lines port := by
  obtain ⟨hport, hname, rfl⟩ := spawned?_eq_some_iff.1 h
  rcases m.start_cases c with ⟨port', hport', -⟩ | ⟨-, hname', -⟩ | ⟨-, -, -, hanswer, -⟩
  · cases hport.symm.trans hport'
  · exact absurd hname hname'
  · rw [hanswer, handshake_eq_ok_iff]

theorem answer_of_running (h : m.portOf? c.name = some port) :
    m.answer c = .ok port ∧ m.spawned? c = none ∧ m.next c = m := by
  rcases m.start_cases c with ⟨port', hport, hnone, hanswer, hnext⟩ | ⟨hport, -⟩ | ⟨hport, -⟩
  · obtain rfl := Option.some.inj (hport.symm.trans h)
    exact ⟨hanswer, hnone, hnext⟩
  · cases hport.symm.trans h
  · cases hport.symm.trans h

theorem answer_of_refused (h : m.portOf? c.name = none) (hname : ¬ IsPackageName c.name) :
    m.answer c = .error (.handshake ("invalid package name '" ++ c.name ++ "'")) := by
  rcases m.start_cases c with ⟨port, hport, -⟩ | ⟨-, -, -, hanswer, -⟩ | ⟨-, hname', -⟩
  · cases h.symm.trans hport
  · exact hanswer
  · exact absurd hname' hname

/-- A start that fails changes nothing. -/
theorem next_of_error (h : m.answer c = .error e) : m.next c = m := by
  rcases m.start_cases c with ⟨port, -, -, -, hnext⟩ | ⟨-, -, -, -, hnext⟩ | ⟨-, -, -, -, hnext⟩
  · exact hnext
  · exact hnext
  · rw [hnext, h]

/-! ## What is remembered -/

theorem portOf?_remember_self (m : PackageManager) (name : String) (port : Port) :
    (m.remember name port).portOf? name = some port := by
  have hnone : (m.ports.filter fun p => p.1 != name).find? (fun p => p.1 == name) = none :=
    List.find?_eq_none.2 fun p hp => by simpa using (List.mem_filter.1 hp).2
  simp [portOf?, remember, hnone]

theorem portOf?_remember_of_ne (hne : n ≠ name) (m : PackageManager) (port : Port) :
    (m.remember name port).portOf? n = m.portOf? n := by
  have hother : (name == n) = false := beq_eq_false_iff_ne.2 hne.symm
  have hsame : (m.ports.filter fun p => p.1 != name).find? (fun p => p.1 == n) = m.ports.find? fun p => p.1 == n := by
    rw [List.find?_filter]
    congr 1
    funext p
    by_cases hp : p.1 = n
    · simp [hp, hne]
    · simp [hp]
  simp only [portOf?, remember, List.find?_append, hsame, List.find?_cons, hother, List.find?_nil, Option.or_none]

/-- **What is remembered of a package** is what the last request for it was answered. -/
theorem portOf?_next_self (m : PackageManager) (c : PackageCall) :
    (m.next c).portOf? c.name = (m.answer c).toOption := by
  rcases m.start_cases c with ⟨port, hport, -, hanswer, hnext⟩ | ⟨hport, -, -, hanswer, hnext⟩ | ⟨hport, -, -, -, hnext⟩
  · rw [hnext, hanswer, hport, Except.toOption]
  · rw [hnext, hanswer, hport, Except.toOption]
  · rw [hnext]
    cases m.answer c with
    | ok port => exact portOf?_remember_self m c.name port
    | error e => exact hport

/-- Requests for other packages do not matter. -/
theorem portOf?_next_of_ne (h : n ≠ c.name) : (m.next c).portOf? n = m.portOf? n := by
  rcases m.start_cases c with ⟨port, -, -, -, hnext⟩ | ⟨-, -, -, -, hnext⟩ | ⟨-, -, -, -, hnext⟩
  · rw [hnext]
  · rw [hnext]
  · rw [hnext]
    cases m.answer c with
    | ok port => exact portOf?_remember_of_ne h m port
    | error e => rfl

theorem dir_next (m : PackageManager) (c : PackageCall) : (m.next c).dir = m.dir := by
  rcases m.start_cases c with ⟨port, -, -, -, hnext⟩ | ⟨-, -, -, -, hnext⟩ | ⟨-, -, -, -, hnext⟩
  · rw [hnext]
  · rw [hnext]
  · rw [hnext]
    cases m.answer c <;> rfl

/-! ## Histories -/

section Histories

variable {dir : String} {calls : List PackageCall}

theorem after_append (m : PackageManager) (calls calls' : List PackageCall) :
    m.after (calls ++ calls') = (m.after calls).after calls' :=
  List.foldl_append

theorem dir_after (m : PackageManager) (calls : List PackageCall) : (m.after calls).dir = m.dir := by
  induction calls generalizing m with
  | nil => rfl
  | cons c cs ih => exact (ih (m.next c)).trans (m.dir_next c)

/-- What is remembered stays as it is. -/
theorem portOf?_after_of_portOf? (h : m.portOf? n = some port) (calls : List PackageCall) :
    (m.after calls).portOf? n = some port := by
  induction calls generalizing m with
  | nil => exact h
  | cons c cs ih =>
    refine ih (m := m.next c) ?_
    by_cases hn : n = c.name
    · subst hn
      rw [(answer_of_running h).2.2, h]
    · rw [portOf?_next_of_ne hn, h]

theorem exists_of_portOf?_after (h : ((ofDir dir).after calls).portOf? n = some port) :
    ∃ earlier first later, calls = earlier ++ first :: later ∧ first.name = n ∧
      ((ofDir dir).after earlier).answer first = .ok port := by
  induction calls using List.reverseRecOn with
  | nil => cases h
  | append_singleton calls c ih =>
    have hlast : ((ofDir dir).after (calls ++ [c])) = ((ofDir dir).after calls).next c := after_append ..
    rw [hlast] at h
    by_cases hn : n = c.name
    · subst hn
      rw [portOf?_next_self, toOption_eq_some_iff] at h
      exact ⟨calls, c, [], rfl, rfl, h⟩
    · rw [portOf?_next_of_ne hn] at h
      obtain ⟨earlier, first, later, rfl, hname, hanswer⟩ := ih h
      exact ⟨earlier, first, later ++ [c], by simp, hname, hanswer⟩

/-- **What is remembered after a history** is the port of a start that succeeded, and there is one such port. -/
theorem portOf?_after_iff :
    ((ofDir dir).after calls).portOf? n = some port ↔
      ∃ earlier first later, calls = earlier ++ first :: later ∧ first.name = n ∧
        ((ofDir dir).after earlier).answer first = .ok port := by
  refine ⟨exists_of_portOf?_after, ?_⟩
  rintro ⟨earlier, first, later, rfl, rfl, hanswer⟩
  have hself := portOf?_next_self ((ofDir dir).after earlier) first
  rw [hanswer] at hself
  rw [after_append]
  exact portOf?_after_of_portOf? hself later

/-- **Packages are started once.** After any history of requests, a request starts exactly the program of a package
that has not answered yet, if its name stands for one: an entry right in the directory, which is not hidden. No other
program plays a part. The program is looked for at its path in the directory, and nowhere else, exactly if the path of
the directory is not empty; if it is empty, the program is searched for. The start succeeds exactly if some line of the
program names a port, with the first one. What is remembered is what a start for the package answered; from then on each
request is answered with this port, starts nothing and changes nothing. A request that fails changes nothing. -/
theorem packages_start_once (dir : String) (before : List PackageCall) (c : PackageCall) :
    let m := (ofDir dir).after before
    (∀ program, m.spawned? c = some program ↔ m.portOf? c.name = none ∧ IsPackageName c.name ∧
      program = ⟨joinPath dir c.name, ["-t=" ++ toString c.task.toNat, "-p=" ++ toString c.localPort.toNat]⟩) ∧
    (∀ program, m.spawned? c = some program →
      ((∀ searchPath, program.places searchPath = [joinPath dir c.name]) ↔ dir ≠ "") ∧
      (dir = "" → ∀ searchPath, program.places searchPath = searchPath.map fun d => joinPath d c.name)) ∧
    (IsPackageName c.name → c.name ≠ "." ∧ c.name ≠ ".." ∧ ∀ (t : FileTree) entries,
      t.lookup dir = .ok (.directory entries) →
        t.lookup (joinPath dir c.name) = (FileTree.directory entries).find [c.name]) ∧
    (∀ run, (∀ program, m.spawned? c = some program → run program = c.run program) →
      m.start run c.name c.task c.localPort = m.start c.run c.name c.task c.localPort) ∧
    (∀ program port, m.spawned? c = some program → (m.answer c = .ok port ↔
      ∃ output earlier line later, c.run program = .ok output ∧ output.lines = earlier ++ line :: later ∧
        (∀ l ∈ earlier, parseHandshake? l = none) ∧ parseHandshake? line = some port)) ∧
    (m.portOf? c.name = none → ¬ IsPackageName c.name →
      m.answer c = .error (.handshake ("invalid package name '" ++ c.name ++ "'"))) ∧
    (∀ port, m.portOf? c.name = some port ↔
      ∃ earlier first later, before = earlier ++ first :: later ∧ first.name = c.name ∧
        ((ofDir dir).after earlier).answer first = .ok port) ∧
    (∀ port, m.portOf? c.name = some port → m.answer c = .ok port ∧ m.spawned? c = none ∧ m.next c = m) ∧
    ∀ e, m.answer c = .error e → m.next c = m := by
  intro m
  have hdir : m.dir = dir := dir_after (ofDir dir) before
  refine ⟨fun program => ?_, fun program hspawned => ?_,
    fun hname => ⟨hname.ne_of_hidden rfl, hname.ne_of_hidden rfl, fun t entries hlookup => ?_⟩,
    fun run => start_congr, fun program port hspawned => ?_, answer_of_refused, fun port => portOf?_after_iff,
    fun port => answer_of_running, fun e => next_of_error⟩
  · rw [spawned?_eq_some_iff, programFor, hdir]
  · obtain ⟨-, hname, rfl⟩ := spawned?_eq_some_iff.1 hspawned
    rw [hdir]
    refine ⟨places_programFor_iff hname, ?_⟩
    rintro rfl
    exact places_programFor_empty hname
  · exact FileTree.lookup_joinPath hname.isEntryName hlookup
  · rw [answer_eq_ok_iff hspawned]
    constructor
    · rintro ⟨output, hrun, earlier, line, later, hlines, hnone, hsome⟩
      exact ⟨output, earlier, line, later, hrun, hlines, hnone, hsome⟩
    · rintro ⟨output, earlier, line, later, hrun, hlines, hnone, hsome⟩
      exact ⟨output, hrun, earlier, line, later, hlines, hnone, hsome⟩

/-- With the empty path for a directory, in which there is nothing, the program `sh` of the search path is started. -/
theorem bare_name_is_searched_for :
    let c : PackageCall := ⟨"sh", 7, 4000, fun _ => .ok ⟨["#4100"], "", true⟩⟩
    let program : Spawn := ⟨"sh", ["-t=7", "-p=4000"]⟩
    (ofDir "").spawned? c = some program ∧ (ofDir "").answer c = .ok 4100 ∧
      program.places ["/usr/bin", "/bin"] = ["/usr/bin/sh", "/bin/sh"] ∧ joinPath "" "sh" = "sh" ∧
      (∀ (t : FileTree) entries, t.lookup "" ≠ .ok (.directory entries)) ∧
      ¬ ∀ (dir : String) c program, (ofDir dir).spawned? c = some program →
        ∀ searchPath, program.places searchPath = [joinPath dir c.name] := by
  intro c program
  have hname : IsPackageName c.name := ⟨by decide, by decide, by decide, by decide⟩
  have hpath : joinPath "" "sh" = "sh" := joinPath_empty hname
  have hprogram : program = programFor "" c := (Spawn.mk.injEq ..).mpr ⟨hpath.symm, by decide +kernel⟩
  have hspawned : (ofDir "").spawned? c = some program := spawned?_eq_some_iff.2 ⟨rfl, hname, hprogram⟩
  have hanswer : (ofDir "").answer c = .ok 4100 :=
    (answer_eq_ok_iff hspawned).2 ⟨_, rfl, [], "#4100", [], rfl, nofun, by decide⟩
  have hplaces : program.places ["/usr/bin", "/bin"] = ["/usr/bin/sh", "/bin/sh"] := by
    rw [hprogram, places_programFor_empty hname]
    decide +kernel
  refine ⟨hspawned, hanswer, hplaces, hpath, fun t entries h => ?_, fun h => ?_⟩
  · cases h
  · have hone := hplaces.symm.trans (h "" c program hspawned ["/usr/bin", "/bin"])
    exact absurd (congrArg List.length hone) (by decide)

end Histories

end PackageManager

end ScriptRunner
