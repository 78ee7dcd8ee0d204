import Mathlib.Data.List.Pairwise
import ScriptRunner.Proofs.Channel.Commands
import ScriptRunner.Proofs.Supervisor.Interleaving

/-!
# The supervisor and the processes of its runs

A command takes two steps: the supervisor looks up its task and notes the port and the request, and later the request is
exchanged with whatever process takes commands on that port. A `Network` is a system with the processes of its runs and
the commands that are between the two steps; an `Event` is a step of any of them, so every interleaving is a list of
events (`Network.run`). A command that nothing comes between is `Supervisor.sendCommand` (`sendCommand_eq`).

What holds after every run of a network: its system is one that some actions lead to (`system_run`), a call is as it was
looked up until it comes to its end (`getElem?_run`), and one process at most takes commands on a port
(`servesAlone_run`).
-/

namespace ScriptRunner

/-- The process of a run. -/
structure Child where
  header : Header
  /-- It takes commands on its local port. -/
  isServing : Bool

/-- A request for the process on a port. -/
structure Call where
  port : Port
  request : Command

/-- What may happen next. Numbers of processes and calls are their places in the lists. -/
inductive Event where
  | act (a : Action)
  /-- The process of the run that activity `i` launches is started. -/
  | spawn (i : Nat)
  /-- A process begins to take commands, unless its port is in use. -/
  | serve (k : Nat)
  /-- A process goes away. -/
  | quit (k : Nat)
  | lookUp (id : TaskId) (cmd : String) (value : Json)
  /-- The request of a call is exchanged with the process on its port, which handles commands as it then does. -/
  | exchange (i : Nat) (handler : CommandHandler) (sentAt servedAt : Instant)
  /-- A call has no answer in time. -/
  | giveUp (i : Nat)

structure Network (τ : Type) where
  system : System τ
  children : List Child
  /-- The commands whose tasks have been looked up, except those that came to their end. -/
  calls : List (Option Call)

namespace Network

variable {τ : Type}

def initial (c : SupervisorSettings) (w : Workshop) (store : TraceStore τ) (traces : τ)
    (packages : Option PackageManager) : Network τ :=
  ⟨.initial c w store traces packages, [], []⟩

/-- The process that takes commands on a port. -/
def serving? (N : Network τ) (port : Port) : Option Child :=
  N.children.find? fun k => k.isServing && k.header.localPort == port

/-- What comes of a request for the process on a port. -/
def exchange (N : Network τ) (handler : CommandHandler) (sentAt servedAt : Instant) (port : Port) (request : Command) :
    Exchange :=
  match N.serving? port with
  | some _ => (handler.serveControl servedAt (request.post sentAt)).exchange
  | none => .unreachable "connection refused"

/-- One event; one that is not possible changes nothing. -/
def step (N : Network τ) : Event → Network τ
  | .act a => { N with system := N.system.step a }
  | .spawn i =>
    match N.system.activities[i]? with
    | some (.launching l) => { N with children := N.children ++ [⟨l.header, false⟩] }
    | _ => N
  | .serve k =>
    match N.children[k]? with
    | some child =>
      if (N.serving? child.header.localPort).isSome then N
      else { N with children := N.children.set k ⟨child.header, true⟩ }
    | none => N
  | .quit k => { N with children := N.children.eraseIdx k }
  | .lookUp id cmd value =>
    match N.system.supervisor.runningTask id with
    | .error _ => { N with calls := N.calls ++ [none] }
    | .ok t =>
      let unique := N.system.supervisor.lastExchange + 1
      { N with
        system := { N.system with supervisor := { N.system.supervisor with lastExchange := unique } }
        calls := N.calls ++ [some ⟨t.localPort, .request id unique cmd value⟩] }
  | .exchange i _ _ _ | .giveUp i => { N with calls := N.calls.set i none }

def run (N : Network τ) (events : List Event) : Network τ := events.foldl step N

/-- What the sender of a command is told at an event, if the call comes to its end there. -/
def answer? (N : Network τ) : Event → Option (Except SupervisorError Command)
  | .lookUp id _ _ =>
    match N.system.supervisor.runningTask id with
    | .error e => some (.error e)
    | .ok _ => none
  | .exchange i handler sentAt servedAt =>
    match N.calls[i]? with
    | some (some call) =>
      some (((N.exchange handler sentAt servedAt call.port call.request).outcome call.request).mapError .channel)
    | _ => none
  | .giveUp i =>
    match N.calls[i]? with
    | some (some _) => some (.error (.channel .timeout))
    | _ => none
  | _ => none

/-- The command that is executed at an event, with the header of the process that executes it. -/
def executed? (N : Network τ) : Event → Option (Header × Command)
  | .exchange i _ sentAt _ =>
    match N.calls[i]? with
    | some (some call) =>
      match N.serving? call.port, (call.request.post sentAt).command? with
      | some child, some c => some (child.header, c)
      | _, _ => none
    | _ => none
  | _ => none

@[simp] theorem run_nil (N : Network τ) : N.run [] = N := rfl

@[simp] theorem run_cons (N : Network τ) (e : Event) (es : List Event) : N.run (e :: es) = (N.step e).run es := rfl

theorem run_append (N : Network τ) (es fs : List Event) : N.run (es ++ fs) = (N.run es).run fs := List.foldl_append

/-- What every event keeps holds after every run. -/
theorem run_induction {P : Network τ → Prop} (hstep : ∀ N e, P N → P (N.step e)) {N : Network τ} (h : P N)
    (events : List Event) : P (N.run events) := by
  induction events generalizing N with
  | nil => exact h
  | cons e es ih => exact ih (hstep N e h)

variable {N : Network τ} {e : Event} {events : List Event} {i : Nat} {call : Call} {port : Port} {child : Child}

/-! ## The supervisor among the other steps -/

/-- Looking a task up counts for the supervisor as a command does. -/
theorem system_step (N : Network τ) (e : Event) :
    (N.step e).system = N.system ∨ ∃ a, (N.step e).system = N.system.step a := by
  cases e with
  | act a => exact .inr ⟨a, rfl⟩
  | spawn i =>
    refine .inl ?_
    simp only [step]
    split <;> rfl
  | serve k =>
    refine .inl ?_
    simp only [step]
    split
    · split <;> rfl
    · rfl
  | quit k => exact .inl rfl
  | lookUp id cmd value =>
    refine .inr ⟨.command (fun _ _ => .timedOut) id cmd value, ?_⟩
    cases h : N.system.supervisor.runningTask id <;> simp [step, System.step, Supervisor.sendCommand, h]
  | exchange i handler sentAt servedAt => exact .inl rfl
  | giveUp i => exact .inl rfl

theorem system_run (N : Network τ) (events : List Event) :
    ∃ actions, (N.run events).system = N.system.run actions := by
  refine run_induction (P := fun M => ∃ actions, M.system = N.system.run actions) (fun M e hM => ?_) ⟨[], rfl⟩ events
  obtain ⟨actions, hM⟩ := hM
  rcases system_step M e with h | ⟨a, h⟩
  · exact ⟨actions, h.trans hM⟩
  · exact ⟨actions ++ [a], by rw [h, hM, System.run_append]; rfl⟩

/-- **A command that nothing comes between** is the supervisor's own. -/
theorem sendCommand_eq (N : Network τ) (id : TaskId) (cmd : String) (value : Json) (handler : CommandHandler)
    (sentAt servedAt : Instant) :
    let M := N.step (.lookUp id cmd value)
    let sent := N.system.supervisor.sendCommand (N.exchange handler sentAt servedAt) id cmd value
    (N.answer? (.lookUp id cmd value)).or (M.answer? (.exchange N.calls.length handler sentAt servedAt)) = some sent.1 ∧
      M.system.supervisor = sent.2 := by
  cases h : N.system.supervisor.runningTask id with
  | error e => simp [step, answer?, Supervisor.sendCommand, h]
  | ok t => simp [step, answer?, exchange, serving?, Supervisor.sendCommand, h]

/-! ## Calls under way -/

/-- A call that has been looked up: the port of the task and the request, if the task was running. -/
theorem getElem?_lookUp (N : Network τ) (id : TaskId) (cmd : String) (value : Json) :
    (N.step (.lookUp id cmd value)).calls[N.calls.length]? =
      some ((N.system.supervisor.runningTask id).toOption.map fun t =>
        ⟨t.localPort, .request id (N.system.supervisor.lastExchange + 1) cmd value⟩) := by
  cases h : N.system.supervisor.runningTask id <;> simp [step, h, Except.toOption]

/-- A call stays as it is until it comes to its end. -/
theorem getElem?_step {x : Option Call} (h : N.calls[i]? = some x) (e : Event) :
    (N.step e).calls[i]? = some x ∨ (N.step e).calls[i]? = some none := by
  have hset : ∀ j, (N.calls.set j none)[i]? = some x ∨ (N.calls.set j none)[i]? = some none := by
    intro j
    by_cases hj : j = i
    · obtain ⟨hlt, -⟩ := List.getElem?_eq_some_iff.1 h
      exact .inr (by simp [hj, hlt])
    · exact .inl (by rw [List.getElem?_set_ne hj, h])
  have happend : ∀ y, (N.calls ++ [y])[i]? = some x := fun y => by
    rw [List.getElem?_append_left (List.getElem?_eq_some_iff.1 h).1, h]
  cases e with
  | act a => exact .inl h
  | spawn j =>
    refine .inl ?_
    simp only [step]
    split <;> exact h
  | serve k =>
    refine .inl ?_
    simp only [step]
    split
    · split <;> exact h
    · exact h
  | quit k => exact .inl h
  | lookUp id cmd value =>
    refine .inl ?_
    simp only [step]
    split <;> exact happend _
  | exchange j handler sentAt servedAt => exact hset j
  | giveUp j => exact hset j

theorem getElem?_run {x : Option Call} (h : N.calls[i]? = some x) (events : List Event) :
    (N.run events).calls[i]? = some x ∨ (N.run events).calls[i]? = some none := by
  refine run_induction (P := fun M => M.calls[i]? = some x ∨ M.calls[i]? = some none) (fun M e hM => ?_) (.inl h) events
  rcases hM with hM | hM
  · exact getElem?_step hM e
  · exact .inr ((getElem?_step hM e).elim id id)

/-- A call under way is the one that was looked up, for a task that was running. -/
theorem call_eq_of_run {id : TaskId} {cmd : String} {value : Json}
    (h : ((N.step (.lookUp id cmd value)).run events).calls[N.calls.length]? = some (some call)) :
    ∃ t, N.system.supervisor.runningTask id = .ok t ∧
      call = ⟨t.localPort, .request id (N.system.supervisor.lastExchange + 1) cmd value⟩ := by
  rcases getElem?_run (getElem?_lookUp N id cmd value) events with hrun | hrun
  · cases ht : N.system.supervisor.runningTask id with
    | error e => simp [ht, hrun, Except.toOption] at h
    | ok t =>
      simp only [ht, hrun, Except.toOption, Option.map_some, Option.some.injEq] at h
      exact ⟨t, rfl, h.symm⟩
  · cases hrun.symm.trans h

/-! ## Processes on ports -/

theorem of_serving? (h : N.serving? port = some child) :
    child ∈ N.children ∧ child.isServing = true ∧ child.header.localPort = port := by
  have hfound := List.find?_some h
  simp only [Bool.and_eq_true, beq_iff_eq] at hfound
  exact ⟨List.mem_of_find?_eq_some h, hfound⟩

/-- The two do not take commands on one port. -/
def Child.Apart (k k' : Child) : Prop :=
  k.isServing = true → k'.isServing = true → k.header.localPort ≠ k'.header.localPort

theorem apart_symm {k k' : Child} (h : Child.Apart k k') : Child.Apart k' k :=
  fun h' h₀ he => h h₀ h' he.symm

instance : Std.Symm Child.Apart := ⟨fun _ _ => apart_symm⟩

theorem servesAlone_step (h : N.children.Pairwise Child.Apart) (e : Event) :
    (N.step e).children.Pairwise Child.Apart := by
  cases e with
  | act a => exact h
  | spawn i =>
    simp only [step]
    split
    · refine List.pairwise_append.2 ⟨h, List.pairwise_singleton _ _, fun k _ k' hk' _ hs => ?_⟩
      rw [List.mem_singleton.1 hk'] at hs
      cases hs
    · exact h
  | serve k =>
    simp only [step]
    split
    · rename_i child hk
      split
      · exact h
      · rename_i hfree
        obtain ⟨hlt, -⟩ := List.getElem?_eq_some_iff.1 hk
        have hrest : ∀ other ∈ N.children, other.isServing = true →
            other.header.localPort ≠ child.header.localPort := by
          intro other hother hs he
          refine hfree (List.find?_isSome.2 ⟨other, hother, ?_⟩)
          simp [hs, he]
        rw [(List.set_perm_cons_eraseIdx hlt _).pairwise_iff apart_symm, List.pairwise_cons]
        exact ⟨fun other hother _ hs he => hrest other (List.mem_of_mem_eraseIdx hother) hs he.symm,
          h.sublist (List.eraseIdx_sublist ..)⟩
    · exact h
  | quit k => exact h.sublist (List.eraseIdx_sublist ..)
  | lookUp id cmd value =>
    simp only [step]
    split <;> exact h
  | exchange i handler sentAt servedAt => exact h
  | giveUp i => exact h

/-- At every time one process at most takes commands on a port. -/
theorem servesAlone_run (h : N.children.Pairwise Child.Apart) (events : List Event) :
    (N.run events).children.Pairwise Child.Apart :=
  run_induction (P := fun M => M.children.Pairwise Child.Apart) (fun _ e hM => servesAlone_step hM e) h events

theorem eq_of_serving? (h : N.children.Pairwise Child.Apart) (hs : N.serving? port = some child) :
    ∀ other ∈ N.children, other.isServing = true → other.header.localPort = port → other = child := by
  intro other hother hserves hport
  obtain ⟨hchild, hs', hport'⟩ := of_serving? hs
  by_contra hne
  exact h.forall hother hchild hne hserves hs' (hport.trans hport'.symm)

end Network

end ScriptRunner
