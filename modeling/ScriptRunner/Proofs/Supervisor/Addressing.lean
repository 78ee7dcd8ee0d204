import ScriptRunner.Proofs.Supervisor.Answers
import ScriptRunner.Proofs.Supervisor.Network
import ScriptRunner.Proofs.Supervisor.Ownership

/-!
# Which process a command reaches

The port alone decides where a command goes, since no process compares the task of a command with its own. It is the
process of the task if both still hold the port (`Ledger.Sound.eq_of_keeps`); after that the port may have passed on to
the process of another run, which then executes the command and gives an answer like any other.
-/

namespace ScriptRunner

/-! ## Who keeps a port -/

/-- The task has not ended and takes commands on the port. -/
def SupervisorState.Keeps (s : SupervisorState) (id : TaskId) (port : Port) : Prop :=
  ∃ t, s.find? id = some t ∧ t.isTerminal = false ∧ t.localPort = port

instance (s : SupervisorState) (id : TaskId) (port : Port) : Decidable (s.Keeps id port) :=
  decidable_of_iff ((s.find? id).any (fun t => !t.isTerminal && t.localPort == port) = true) (by
    simp [SupervisorState.Keeps, Option.any_eq_true])

/-- One task at most keeps a port. -/
theorem Ledger.Sound.eq_of_keeps {c : SupervisorSettings} {s : SupervisorState} {ps ls : List Reservation}
    (h : Ledger.Sound c ⟨s, ps, ls⟩) {id id' : TaskId} {port : Port} (hk : s.Keeps id port) (hk' : s.Keeps id' port) :
    id = id' := by
  obtain ⟨t, ht, hlive, hport⟩ := hk
  obtain ⟨u, hu, hlive', hport'⟩ := hk'
  have howner : ∀ {id v}, s.find? id = some v → v.isTerminal = false → v.holding ∈ (⟨s, ps, ls⟩ : Ledger).owners := by
    intro id v hv hlive
    refine List.mem_append_left _ (List.mem_map_of_mem (List.mem_filter.2 ⟨(SupervisorState.find?_mem hv).1, ?_⟩))
    rw [hlive]
    rfl
  obtain ⟨-, hdisjoint⟩ := List.nodup_flatMap.1 h.holds.nodup
  have : Std.Symm fun o o' : Reservation => o.ports.Disjoint o'.ports := ⟨fun _ _ h _ ho ho' => h ho' ho⟩
  by_contra hne
  have hholding : t.holding ≠ u.holding := fun he =>
    hne ((SupervisorState.find?_mem ht).2.symm.trans
      ((congrArg Reservation.taskId he).trans (SupervisorState.find?_mem hu).2))
  have hapart : t.holding.ports.Disjoint u.holding.ports :=
    hdisjoint.forall (howner ht hlive) (howner hu hlive') hholding
  exact hapart (a := port) (by simp [Reservation.ports, Task.holding, hport])
    (by simp [Reservation.ports, Task.holding, hport'])

namespace Network

variable {τ : Type} {N : Network τ} {i : Nat} {call : Call} {child : Child} {handler : CommandHandler} {t u : Instant}

/-! ## What the sender is told -/

/-- Whichever process is on the port executes the command if it can read it. -/
theorem executed?_exchange (hc : N.calls[i]? = some (some call)) (hs : N.serving? call.port = some child)
    (ht : t.isValid = true) :
    N.executed? (.exchange i handler t u) = call.request.carried?.map fun d => (child.header, d) := by
  simp only [executed?, hc, hs, command?_post ht]
  cases call.request.carried? <;> rfl

theorem answer?_exchange (hc : N.calls[i]? = some (some call)) (hs : N.serving? call.port = some child) :
    N.answer? (.exchange i handler t u) = some ((handler.roundTrip t u call.request).mapError .channel) := by
  simp only [answer?, hc, exchange, hs, CommandHandler.roundTrip]

/-- A command with an answer found a process on its port. -/
theorem exists_of_answer? {a : Command} (h : N.answer? (.exchange i handler t u) = some (.ok a)) :
    ∃ call child, N.calls[i]? = some (some call) ∧ N.serving? call.port = some child ∧
      handler.roundTrip t u call.request = .ok a := by
  cases hc : N.calls[i]? with
  | none => simp [answer?, hc] at h
  | some x =>
    cases x with
    | none => simp [answer?, hc] at h
    | some call =>
      cases hs : N.serving? call.port with
      | none => simp [answer?, hc, exchange, hs, Exchange.outcome, Except.mapError] at h
      | some child =>
        rw [answer?_exchange hc hs] at h
        exact ⟨call, child, rfl, hs, mapError_eq_ok_iff.1 (Option.some.inj h)⟩

/-- **A command reaches whoever has the port of its task** when it is exchanged, after every interleaving of commands
with runs, reports, exits and processes that come and go. If the sender has an answer, the task was running when it was
looked up, and the one process that takes commands on the port executed the command, with its task and its number, and
gave no error text; it is the process of the task if both tasks still keep the port. No process compares the task of the
command with its own: whatever the header of the process on the port says, it executes the command if it can read it,
and the answer is for the task of the command, so the sender takes it unless it has an error text. -/
theorem commands_reach_port_holder (c : SupervisorSettings) (w : Workshop) (store : TraceStore τ) (traces : τ)
    (packages : Option PackageManager) (before between : List Event) (id : TaskId) (cmd : String) (value : Json)
    (handler : CommandHandler) (sentAt servedAt : Instant) (ht : sentAt.isValid = true) (hu : servedAt.isValid = true) :
    let N := (Network.initial c w store traces packages).run before
    let M := (N.step (.lookUp id cmd value)).run between
    let state := M.system.supervisor.state
    let request := Command.request id (N.system.supervisor.lastExchange + 1) cmd value
    let e := Event.exchange N.calls.length handler sentAt servedAt
    (∀ a, M.answer? e = some (.ok a) →
      ∃ t child d, N.system.supervisor.runningTask id = .ok t ∧ M.serving? t.localPort = some child ∧
        (∀ other ∈ M.children, other.isServing = true → other.header.localPort = t.localPort → other = child) ∧
        M.executed? e = some (child.header, d) ∧ d = { request with value := d.value } ∧
        (Json.Stored value → (∀ x ∈ value.floats, Json.ReadsBack x) → d = request) ∧
        ((∃ v, handler d = .ok v) ∨ handler d = .error "") ∧ (handler.answer d).carried? = some a ∧
        (state.Keeps id t.localPort → state.Keeps child.header.taskId t.localPort → child.header.taskId = id)) ∧
      ∀ call child d, M.calls[N.calls.length]? = some (some call) → M.serving? call.port = some child →
        call.request.carried? = some d →
          M.executed? e = some (child.header, d) ∧ d.taskId = id ∧
            ∀ a, (handler.answer d).carried? = some a → a.taskId = id ∧ a.unique = request.unique ∧
              M.answer? e = some (if a.isError then .error (.channel (.remote a.error)) else .ok a) := by
  intro N M state request e
  have hsound : M.system.ledger.Sound c := by
    obtain ⟨actions, hN⟩ := system_run (Network.initial c w store traces packages)
      (before ++ .lookUp id cmd value :: between)
    have hM : M.system = (System.initial c w store traces packages).run actions := by
      rw [run_append] at hN
      exact hN
    rw [hM]
    exact System.sound_run c w store traces packages actions
  have hapart : M.children.Pairwise Child.Apart :=
    servesAlone_run (servesAlone_step (servesAlone_run (List.Pairwise.nil) before) _) between
  refine ⟨fun a ha => ?_, fun call child d hc hs hd => ?_⟩
  · obtain ⟨call, child, hc, hs, hr⟩ := exists_of_answer? ha
    obtain ⟨t, hrunning, rfl⟩ := call_eq_of_run hc
    obtain ⟨d, hd, hcarried, herror⟩ := (CommandHandler.roundTrip_eq_ok_iff ht hu).1 hr
    refine ⟨t, child, d, hrunning, hs, eq_of_serving? hapart hs, ?_, Command.eq_of_carried? hd, ?_, ?_, hcarried, ?_⟩
    · rw [executed?_exchange hc hs ht, hd]
      rfl
    · exact fun hstored hfloats => ((Command.carried?_eq_some_iff_of_stored hstored hfloats).1 hd).2
    · rw [← CommandHandler.error_answer_eq_empty_iff]
      rw [Command.eq_of_carried? hcarried] at herror
      exact herror
    · exact fun hkeeps hkeeps' => hsound.eq_of_keeps hkeeps' hkeeps
  · obtain ⟨t, hrunning, rfl⟩ := call_eq_of_run hc
    refine ⟨?_, ?_, fun a ha => ?_⟩
    · rw [executed?_exchange hc hs ht, hd]
      rfl
    · rw [Command.eq_of_carried? hd]
      rfl
    · obtain ⟨htask, hunique⟩ := CommandHandler.ids_of_carried? hd ha
      refine ⟨htask, hunique, ?_⟩
      rw [answer?_exchange hc hs, CommandHandler.roundTrip_of_carried ht hu hd ha]
      split <;> rfl

end Network

/-! ## A port that passes on -/

namespace Sample

/-- A network with two ports. -/
def network : Network (List Task) := .initial ⟨43000, 2, false, 0, "en", 43000, none⟩ workshop .memory [] none

/-- A run is started, and its process takes commands. -/
def start (id : TaskId) : List Event :=
  [.act (.run (request "job") [id] (.off, .off)), .act (.proceed 0 100), .spawn 0, .act (.proceed 0 100), .serve 0]

/-- A run reports its end, and its process goes away. -/
def finish (id : TaskId) : List Event :=
  [.act (.report ⟨id, .finished, "", 0⟩ 200), .act (.proceed 0 200), .act (.proceed 0 200), .act (.proceed 0 200),
    .quit 0]

def value : Json := .object [("a", .int 1)]

def command : Command := .request 5 1 "echo" value

def noon : Instant := ⟨2024, 5, 17, 12, 0, 0, 0⟩

end Sample

namespace Network

open Sample

theorem stored_value : Json.Stored value := ⟨List.pairwise_singleton _ _, ⟨by decide, by decide⟩, trivial⟩

theorem floats_value : value.floats = [] := rfl

theorem carried?_of_value {c : Command} (h : c.value = value) : c.carried? = some c := by
  have hfloats : ∀ x ∈ c.value.floats, Json.ReadsBack x := by
    rw [h, floats_value]
    exact nofun
  exact (Command.carried?_eq_some_iff_of_stored (h ▸ stored_value) hfloats).2 ⟨by rw [h]; decide, rfl⟩

theorem answer_command : CommandHandler.echo.answer command = command.reply value := by
  rw [CommandHandler.answer, CommandHandler.echo, if_pos (by rfl)]
  rfl

theorem localPort_start :
    ((network.run (start 5)).system.supervisor.runningTask 5).toOption.map Task.localPort = some 43002 := by
  decide +kernel

/-- The command to task 5, as long as it is under way. -/
theorem getElem?_command {between : List Event} :
    let N := network.run (start 5)
    let M := (N.step (.lookUp 5 "echo" value)).run between
    M.calls[N.calls.length]?.join.isSome = true → M.calls[N.calls.length]? = some (some ⟨43002, command⟩) := by
  intro N M hcall
  obtain ⟨call, hcall⟩ := Option.isSome_iff_exists.1 hcall
  rw [Option.join_eq_some_iff] at hcall
  have hport := localPort_start
  have hunique : (network.run (start 5)).system.supervisor.lastExchange + 1 = 1 := by decide +kernel
  obtain ⟨t, ht, rfl⟩ := call_eq_of_run hcall
  rw [ht] at hport
  rw [hcall, hunique, show t.localPort = 43002 from Option.some.inj hport]
  rfl

/-- Task 5 takes a command. -/
theorem command_reaches_own_run :
    let N := network.run (start 5)
    let M := (N.step (.lookUp 5 "echo" value)).run []
    let e := Event.exchange N.calls.length .echo noon noon
    noon.isValid = true ∧ M.answer? e = some (.ok (command.reply value)) ∧
      ∃ h, M.executed? e = some (h, command) ∧ h.taskId = 5 := by
  intro N M e
  have hnoon : noon.isValid = true := by decide
  have hcall : M.calls[N.calls.length]? = some (some ⟨43002, command⟩) := getElem?_command (by decide +kernel)
  have hserving : (M.serving? 43002).map (fun k => k.header.taskId) = some 5 := by decide +kernel
  obtain ⟨child, hs, hid⟩ := Option.map_eq_some_iff.1 hserving
  obtain ⟨haccepted, hany⟩ := commands_reach_port_holder ⟨43000, 2, false, 0, "en", 43000, none⟩ workshop .memory []
    none (start 5) [] 5 "echo" value .echo noon noon hnoon hnoon
  obtain ⟨hexecuted, -, hanswered⟩ := hany ⟨43002, command⟩ child command hcall hs (carried?_of_value rfl)
  obtain ⟨-, -, hanswer⟩ := hanswered (command.reply value) (by rw [answer_command]; exact carried?_of_value rfl)
  refine ⟨hnoon, hanswer, child.header, hexecuted, ?_⟩
  obtain ⟨t, child', d, ht, hs', -, -, -, -, -, -, hown⟩ := haccepted _ hanswer
  have hrunning : N.system.supervisor.runningTask 5 = .ok t := ht
  have hport := localPort_start
  rw [hrunning] at hport
  rw [show t.localPort = 43002 from Option.some.inj hport] at hs' hown
  obtain rfl : child = child' := Option.some.inj (hs.symm.trans hs')
  have hkeeps : M.system.supervisor.state.Keeps 5 43002 := by decide +kernel
  exact hown hkeeps (hid.symm ▸ hkeeps)

/-- Task 5 ends after its command was looked up, and the process of task 6 on the same port executes the command. -/
theorem next_run_executes_command :
    let N := network.run (start 5)
    let M := (N.step (.lookUp 5 "echo" value)).run (finish 5 ++ start 6)
    let e := Event.exchange N.calls.length .echo noon noon
    M.answer? e = some (.ok (command.reply value)) ∧
      ∃ h, M.executed? e = some (h, command) ∧ h.taskId = 6 ∧ command.taskId = 5 := by
  intro N M e
  have hnoon : noon.isValid = true := by decide
  have hcall : M.calls[N.calls.length]? = some (some ⟨43002, command⟩) := getElem?_command (by decide +kernel)
  have hserving : (M.serving? 43002).map (fun k => k.header.taskId) = some 6 := by decide +kernel
  obtain ⟨child, hs, hid⟩ := Option.map_eq_some_iff.1 hserving
  refine ⟨?_, child.header, ?_, hid, rfl⟩
  · have hreply : (CommandHandler.echo.answer command).carried? = some (command.reply value) := by
      rw [answer_command]
      exact carried?_of_value rfl
    rw [answer?_exchange hcall hs, CommandHandler.roundTrip_of_carried hnoon hnoon (carried?_of_value rfl) hreply]
    rfl
  · rw [executed?_exchange hcall hs hnoon, carried?_of_value rfl]
    rfl

end Network

end ScriptRunner
