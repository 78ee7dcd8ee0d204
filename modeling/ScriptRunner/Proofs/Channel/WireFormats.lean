import ScriptRunner.Channel.Command
import ScriptRunner.Proofs.Channel.Handoff
import ScriptRunner.Task.Record
import ScriptRunner.Task.Run

/-!
# Messages and definitions read back

Each message and each definition is taken by its decoder from its JSON form, by the laws of the decoders of its fields.
So all of them round-trip through their text (`wire_formats_round_trip`).
-/

namespace ScriptRunner

open Json

/-! ## Definitions and trees -/

namespace Script

theorem ParamKind.takes (k : ParamKind) : Takes ParamKind.decoder (.string k.name) k :=
  .choice (by cases k <;> rfl)

theorem Kind.takes (k : Kind) : Takes Kind.decoder (.string k.name) k :=
  .choice (by cases k <;> rfl)

theorem Param.takes (p : Param) : Takes Param.decoder p.json p :=
  .record (by decide)
    (.more (.string p.name) <| .more (.string p.title) <| .more p.kind.takes <| .more (.boolean p.required) <|
      .more (.optionalText p.default) .done)
    rfl

namespace Node

theorem jsons_eq_map (ns : List Node) : jsons ns = ns.map json := by
  induction ns with
  | nil => rfl
  | cons n ns ih => rw [jsons, ih, List.map_cons]

/-- Two levels of the document lie between a node and its children. -/
theorem depth_child {n child : Node} (h : child ∈ n.children) : child.json.depth + 2 ≤ n.json.depth := by
  obtain ⟨name, values, children, disabled⟩ := n
  have hchild : child.json.depth ≤ depthItems (jsons children) := by
    rw [jsons_eq_map]
    exact depthItems_le_iff.1 (Nat.le_refl _) _ (List.mem_map_of_mem h)
  simp only [json, depth, depthMembers]
  omega

theorem takes : ∀ {levels : Nat} {n : Node}, n.json.depth ≤ levels → Takes (decoderWithin levels) n.json n
  | 0, ⟨_, _, _, _⟩, h => by simp [json, depth] at h
  | levels + 1, ⟨name, values, children, disabled⟩, h => by
    have hchildren : Takes (Decoder.list (decoderWithin levels)) (.array (jsons children)) children := by
      rw [jsons_eq_map]
      -- A child lies two levels deeper in the document, so one level less of the decoder holds it.
      refine .list fun child hchild => takes ?_
      have hdepth := depth_child (n := ⟨name, values, children, disabled⟩) hchild
      omega
    exact .record (by simp [Fields.names, Field.required, Field.withDefault])
      (.more (.string name) <| .more (.textsByKey values) <| .more hchildren <| .more (.boolean disabled) .done) rfl

end Node

namespace Definition

theorem takes {levels : Nat} {d : Definition} (h : d.json.depth ≤ levels) :
    Takes (decoderOf (Node.decoderWithin levels)) d.json d := by
  have htree : Takes (Decoder.list (Node.decoderWithin levels)) (.array (Node.jsons d.tree)) d.tree := by
    rw [Node.jsons_eq_map]
    refine .list fun n hn => Node.takes ?_
    have hnode := depthItems_le_iff.1 (Nat.le_refl _) _ (List.mem_map_of_mem (f := Node.json) hn)
    rw [json, Node.jsons_eq_map] at h
    simp only [depth, depthMembers] at h
    omega
  exact .record (by simp [Fields.names, Field.required, Field.withDefault])
    (.more (.string d.name) <| .more (.string d.title) <| .more d.kind.takes <| .more (.list fun p _ => p.takes) <|
      .more (.string d.body) <| .more htree <| .more (.textsByKey d.titles) <| .more (.boolean d.unrunnable) <|
      .more (.optionalText d.role) .done)
    rfl

end Definition

end Script

/-! ## Tasks and reports -/

theorem TaskStatus.takes (s : TaskStatus) : Takes TaskStatus.decoder s.json s :=
  .derived (.integer (by cases s <;> rfl) (by cases s <;> exact ⟨by decide, by decide⟩)) (ofCode_code s)

theorem Task.takes (t : Task) : Takes Task.decoder t.json t :=
  .record (by decide)
    (.more (.uint32 t.id) <| .more t.status.takes <| .more (.string t.name) <| .more (.string t.title) <|
      .more (.uint32 t.userId) <| .more (.uint32 t.roleId) <| .more (.uint16 t.httpPort) <|
      .more (.uint16 t.localPort) <| .more (.int64 t.startedAt) <| .more (.int64 t.finishedAt) <|
      .more (.string t.message) .done)
    rfl

theorem StatusReport.takes (r : StatusReport) : Takes StatusReport.decoder r.json r :=
  .record (by decide)
    (.more (.uint32 r.taskId) <| .more r.status.takes <| .more (.string r.message) <| .more (.int64 r.time) .done) rfl

namespace ObserverFrame

theorem timeDecoder_takes (n : Int64) : Takes timeDecoder (.string (toString n.toInt)) n :=
  .derived (.string _) <| by
    simp only [IntRange.parseDecimal_toString (IntRange.contains_int64 n), Int64.ofInt_toInt]

theorem takes (f : ObserverFrame) : Takes ObserverFrame.decoder f.json f :=
  .record (by decide)
    (.more (.uint32 f.cmd) <| .more (.optional (fun s _ => s.takes) fun _ => Json.noConfusion) <|
      .more (.string f.message) <| .more (timeDecoder_takes f.time) <|
      .more (.optional (fun t _ => t.takes) fun _ => Json.noConfusion) .done)
    rfl

end ObserverFrame

/-! ## Runs -/

theorem RunOutcome.takes (o : RunOutcome) : Takes RunOutcome.decoder o.json o :=
  .record (by decide) (.more (.uint32 o.taskId) <| .more (.uint16 o.httpPort) .done) rfl

/-! ## Frames, commands and envelopes -/

/-- What the frame passes on is stored, and its numbers read back. -/
def HandoffFrame.Passable : HandoffFrame → Prop
  | .header h => h.Passable
  | .bytecode _ _ => True

theorem HandoffFrame.takes {f : HandoffFrame} (hf : f.Passable) : Takes HandoffFrame.decoder f.json f := by
  intro p hd
  cases f with
  | header h =>
    have hroom : max 0 (depthMembers h.json.members) + 1 ≤ p.room := hd
    rw [Header.depthMembers_json] at hroom
    exact (decoder_header_eq_ok_iff hf).2 ⟨by omega, rfl⟩
  | bytecode engine payload => exact decoder_bytecode engine payload (Nat.lt_of_lt_of_le (Nat.succ_pos _) hd)

theorem Command.takes {c : Command} (hc : c.value.Portable) : Takes Command.decoder c.json c :=
  .record (by decide)
    (.more (.uint32 c.taskId) <| .more (.uint64 c.unique) <| .more (.boolean c.finished) <| .more (.string c.cmd) <|
      .more (.string c.error) <| .more (.any hc) .done)
    rfl

theorem Envelope.takes {α : Type} {message : Decoder Scalar α} {f : α → Json} {e : Envelope α}
    (hm : Takes message (f e.message) e.message) (ht : e.timestamp.isValid = true) :
    Takes (Envelope.decoder message) (e.json f) e :=
  .record (by simp [Fields.names, Field.required])
    (.more (.uint32 e.version) <| .more (fun p _ => Instant.decoder_written ht p) <| .more hm .done) rfl

/-! ## All of them -/

/-- **All messages and definitions round-trip through their text** up to the depth that the reader follows, and no two
of them have the same text. Values that are passed on as they are have to be stored and their numbers to read back; the
time of an envelope has to exist. -/
theorem wire_formats_round_trip :
    RoundTrips Header.json Header.decoder Header.Passable ∧
    RoundTrips Task.json Task.decoder (fun _ => True) ∧
    RoundTrips Script.Definition.json Script.Definition.decoder (fun _ => True) ∧
    RoundTrips Script.Node.json Script.Node.decoder (fun _ => True) ∧
    RoundTrips Command.json Command.decoder (fun c => c.value.Portable) ∧
    RoundTrips StatusReport.json StatusReport.decoder (fun _ => True) ∧
    RoundTrips ObserverFrame.json ObserverFrame.decoder (fun _ => True) ∧
    RoundTrips RunRequest.json RunRequest.decoder RunRequest.Passable ∧
    RoundTrips RunOutcome.json RunOutcome.decoder (fun _ => True) ∧
    RoundTrips HandoffFrame.json HandoffFrame.decoder HandoffFrame.Passable ∧
    RoundTrips (Envelope.json Command.json) (Envelope.decoder Command.decoder)
      (fun e => e.message.value.Portable ∧ e.timestamp.isValid = true) := by
  have hlimit : Format.depthLimit Scalar ≤ Format.depthLimit Scalar + 1 := Nat.le_succ _
  refine ⟨.of_takes Header.takes, .of_takes fun _ => Task.takes _, ?_, ?_, .of_takes Command.takes,
    .of_takes fun _ => StatusReport.takes _, .of_takes fun _ => ObserverFrame.takes _, .of_takes RunRequest.takes,
    .of_takes fun _ => RunOutcome.takes _, .of_takes HandoffFrame.takes,
    .of_takes fun h => Envelope.takes (Command.takes h.1) h.2⟩
  · exact .of_levels (d := fun levels => Script.Definition.decoderOf (Script.Node.decoderWithin levels)) hlimit
      fun _ => Script.Definition.takes
  · exact .of_levels hlimit fun _ => Script.Node.takes

/-- A command with the greatest numbers and with a value that is as deep as an envelope leaves room for. -/
def deepCommand : Envelope Command :=
  .wrap ⟨4294967295, 18446744073709551615, true, "", "\"é😀\n", Handoff.nested 125⟩ Handoff.deepTime

/-- The last word to an observer, from the earliest time that there is. -/
def earliestClose : ObserverFrame := .close (-9223372036854775808)

theorem wire_formats_round_trip_at_limits :
    (deepCommand.json Command.json).depth = Format.depthLimit Scalar ∧
      decodeText (Envelope.decoder Command.decoder) (deepCommand.json Command.json).compact = .ok deepCommand ∧
      decodeText ObserverFrame.decoder earliestClose.json.compact = .ok earliestClose := by
  have hdepth : (deepCommand.json Command.json).depth = Format.depthLimit Scalar := by
    simp [deepCommand, Envelope.wrap, Envelope.json, Command.json, depth, depthMembers, Handoff.depth_nested]
    rfl
  have hvalue : deepCommand.message.value.Portable := by
    refine ⟨Handoff.stored_nested 125, fun x hx => ?_⟩
    have hhalf : x ∈ [Handoff.half] := (Handoff.floats_nested 125) ▸ hx
    rw [List.mem_singleton.1 hhalf]
    exact Handoff.readsBack_half
  obtain ⟨-, -, -, -, -, -, hframe, -, -, -, henvelope⟩ := wire_formats_round_trip
  exact ⟨hdepth, henvelope.decodeText_compact _ ⟨hvalue, rfl⟩ (Nat.le_of_eq hdepth),
    hframe.decodeText_compact _ trivial (by decide)⟩

end ScriptRunner
