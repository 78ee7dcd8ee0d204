import ScriptRunner.Config.Loading
import ScriptRunner.Proofs.Document.Entries
import ScriptRunner.Proofs.Text.Encoding

/-!
# Which source a setting is taken from

Every setting is described by the place where a document holds it, by the variable that overrides it and by how the text
of the variable is read (`Setting.all`). A text that parses gives each setting the value of its entry, or the default
without one (`SettingsSource.written?_of_parse`), and variables that are texts come before it
(`SettingsSource.override_eq_ok_iff`). A variable that is no text counts as not set, so it is passed over in silence.
-/

namespace ScriptRunner

open Document (valuesOf)

/-- What is decoded from a text is decoded from its document. -/
theorem Yaml.decode_of_decodeText {α : Type} {d : Decoder Yaml.Content α} {text : String} {a : α}
    (h : Yaml.decodeText d text = .ok a) : (Yaml.read text.toList).1.decode d = .ok a := by
  unfold Yaml.decodeText at h
  generalize Yaml.read text.toList = r at h
  obtain ⟨doc, overrun⟩ := r
  obtain ⟨b, hb, h⟩ := bind_eq_ok_iff.1 h
  cases overrun with
  | true => cases h
  | false => exact hb.trans h

/-- A setting with its sources. -/
structure Setting (α : Type) where
  /-- The group of a document that the setting is in. -/
  group : String
  field : Field Yaml.Content α
  /-- The variable that overrides the setting, without the name of the family. -/
  override? : Option String
  /-- What the text of the variable stands for. -/
  ofText? : String → Option α
  get : Settings → α

namespace Setting

/-! ## The settings -/

def numberOfText (range : IntRange) (text : String) : Option Int := (range.parseDecimal (Text.trim text)).toOption

def portOfText (text : String) : Option Port := (numberOfText .uint16 text).map fun n => UInt16.ofNat n.toNat

def countOfText (range : IntRange) (text : String) : Option UInt64 :=
  (numberOfText range text).map fun n => UInt64.ofNat n.toNat

def truthOfText (text : String) : Option Bool :=
  if Text.trim text = "true" then some true else if Text.trim text = "false" then some false else none

def pathOfText (text : String) : Option (Option String) := some (some text)

def execution : List (Sigma Setting) :=
  let d := ExecutionSettings.default
  [⟨_, "execution", .withDefault "base_port" Decoder.uint16 d.basePort, some "BASE_PORT", portOfText,
      fun s => s.execution.basePort⟩,
    ⟨_, "execution", .withDefault "port_pool_size" Decoder.usize d.portPoolSize, some "PORT_POOL_SIZE",
      countOfText .usize, fun s => s.execution.portPoolSize⟩,
    ⟨_, "execution", .withDefault "restricted" Decoder.boolean d.restricted, some "RESTRICTED", truthOfText,
      fun s => s.execution.restricted⟩,
    ⟨_, "execution", .withDefault "max_tasks" Decoder.usize d.maxTasks, some "MAX_TASKS", countOfText .usize,
      fun s => s.execution.maxTasks⟩,
    ⟨_, "execution", .withDefault "default_lang" Decoder.string d.defaultLang, some "DEFAULT_LANG", some,
      fun s => s.execution.defaultLang⟩,
    ⟨_, "execution", .withDefault "packages_dir" (Decoder.optional pathDecoder) d.packagesDir, some "PACKAGES_DIR",
      pathOfText, fun s => s.execution.packagesDir⟩,
    ⟨_, "execution", .withDefault "package_handshake_timeout_ms" Decoder.uint64 d.packageTimeoutMillis,
      some "PACKAGE_HANDSHAKE_TIMEOUT_MS", countOfText .uint64, fun s => s.execution.packageTimeoutMillis⟩]

def serverPort : Setting Port :=
  ⟨"server", .withDefault "port" Decoder.uint16 ServerSettings.default.port, some "SERVER_PORT", portOfText,
    fun s => s.server.port⟩

def server : List (Sigma Setting) :=
  [⟨_, "server", .withDefault "bind_address" Decoder.string ServerSettings.default.bindAddress,
      some "SERVER_BIND_ADDRESS", some, fun s => s.server.bindAddress⟩,
    ⟨_, serverPort⟩]

def logging : List (Sigma Setting) :=
  let d := LoggingSettings.default
  [⟨_, "logging", .withDefault "level" LogLevel.decoder d.level, some "LOG_LEVEL", LogLevel.parse?,
      fun s => s.logging.level⟩,
    ⟨_, "logging", .withDefault "format" LogFormat.decoder d.format, some "LOG_FORMAT", LogFormat.parse?,
      fun s => s.logging.format⟩,
    ⟨_, "logging", .withDefault "include_location" Decoder.boolean d.includeLocation, none, fun _ => none,
      fun s => s.logging.includeLocation⟩,
    ⟨_, "logging", .withDefault "directives" (Decoder.list Decoder.string) d.directives, none, fun _ => none,
      fun s => s.logging.directives⟩]

def storage : List (Sigma Setting) :=
  [⟨_, "storage", .withDefault "trace_file" (Decoder.optional pathDecoder) none, some "TRACE_FILE", pathOfText,
    fun s => s.storage.traceFile⟩]

def scripts : List (Sigma Setting) :=
  [⟨_, "scripts", .withDefault "dir" (Decoder.optional pathDecoder) none, some "SCRIPTS_DIR", pathOfText,
    fun s => s.scripts.dir⟩]

/-- All settings, in the order of their declaration. -/
def all : List (Sigma Setting) := execution ++ server ++ logging ++ storage ++ scripts

/-- The table lists the variables that override settings. -/
theorem map_variableName_all (source : SettingsSource) :
    (all.filterMap fun s => s.2.override?).map source.variableName = source.variableNames := rfl

/-- Settings that agree in each of them are the same. -/
theorem eq_of_all {a b : Settings} (h : ∀ s ∈ all, s.2.get a = s.2.get b) : a = b := by
  simp only [all, execution, server, serverPort, logging, storage, scripts, List.forall_mem_append,
    List.forall_mem_cons] at h
  obtain ⟨⟨⟨⟨hexecution, hserver⟩, hlogging⟩, hstorage⟩, hscripts⟩ := h
  obtain ⟨⟨_, _, _, _, _, _, _⟩, ⟨_, _⟩, ⟨_, _, _, _⟩, ⟨_⟩, ⟨_⟩⟩ := a
  obtain ⟨⟨_, _, _, _, _, _, _⟩, ⟨_, _⟩, ⟨_, _, _, _⟩, ⟨_⟩, ⟨_⟩⟩ := b
  simp_all

/-- There are settings with any values. -/
theorem exists_all (value : (s : Sigma Setting) → s.1) : ∃ settings, ∀ s ∈ all, value s = s.2.get settings := by
  simp only [all, execution, server, serverPort, logging, storage, scripts, List.forall_mem_append,
    List.forall_mem_cons, List.not_mem_nil, IsEmpty.forall_iff, implies_true, and_true]
  exact ⟨⟨⟨_, _, _, _, _, _, _⟩, ⟨_, _⟩, ⟨_, _, _, _⟩, ⟨_⟩, ⟨_⟩⟩,
    ⟨⟨⟨⟨rfl, rfl, rfl, rfl, rfl, rfl, rfl⟩, rfl, rfl⟩, rfl, rfl, rfl, rfl⟩, rfl⟩, rfl⟩

/-! ## Documents -/

section Documents

variable {α : Type} {doc : Yaml.Written} {base : Settings}

/-- The value that a document gives to the setting: that of its entry, or the default without one. -/
def written? (s : Setting α) (doc : Yaml.Written) : Option α :=
  match valuesOf s.group doc.entries with
  | [] => s.field.absent
  | [d] => s.field.held? ⟨[.field s.group], 126⟩ d.entries
  | _ => none

/-- The entries of a group are those of the only document under its name, and none without any. -/
def IsGroup (name : String) (doc : Yaml.Written) (es : List (Yaml.Written × Yaml.Written)) : Prop :=
  valuesOf name doc.entries = [] ∧ es = [] ∨ ∃ d : Yaml.Written, valuesOf name doc.entries = [d] ∧ es = d.entries

theorem written?_of_isGroup {s : Setting α} {name : String} {es : List (Yaml.Written × Yaml.Written)}
    (h : IsGroup name doc es) (hs : s.group = name) : s.written? doc = s.field.held? ⟨[.field name], 126⟩ es := by
  subst hs
  rcases h with ⟨hnone, rfl⟩ | ⟨d, hone, rfl⟩
  · rw [written?, hnone]
    rfl
  · rw [written?, hone]

/-- The fields of a group hold its entries, where its default is what is decoded from none. -/
theorem hold_of_group {αs : List Type} {fs : Fields Yaml.Content αs} {want : String} {build : Values αs → α}
    {name : String} {default a : α}
    (h : (Field.withDefault name (fs.decoder want build) default).held? ⟨[], 127⟩ doc.entries = some a)
    (hn : fs.names.Nodup) (hdefault : (fs.fromEntries ⟨[.field name], 126⟩ []).map build = .ok default) :
    ∃ es vs, IsGroup name doc es ∧ fs.Hold ⟨[.field name], 126⟩ es vs ∧ build vs = a := by
  unfold Field.held? at h
  split at h
  · rename_i hnone
    obtain ⟨vs, hvs, rfl⟩ := map_eq_ok_iff.1 hdefault
    exact ⟨[], vs, .inl ⟨hnone, rfl⟩, Fields.hold_of_fromEntries hn hvs, Option.some.inj h⟩
  · rename_i d hone
    obtain ⟨vs, hvs, he⟩ := Fields.hold_of_decoder rfl hn (toOption_eq_some_iff.1 h)
    exact ⟨d.entries, vs, .inr ⟨d, hone, rfl⟩, hvs, he⟩
  · cases h

theorem written?_execution
    (h : (Field.withDefault "execution" ExecutionSettings.decoder .default).held? ⟨[], 127⟩ doc.entries =
      some base.execution) : ∀ s ∈ execution, s.2.written? doc = some (s.2.get base) := by
  obtain ⟨es, vs, hes, hvs, he⟩ := hold_of_group h (by decide) rfl
  simp only [execution, List.forall_mem_cons, List.not_mem_nil, IsEmpty.forall_iff, implies_true,
    written?_of_isGroup hes, ← he]
  exact hvs

theorem written?_server
    (h : (Field.withDefault "server" ServerSettings.decoder .default).held? ⟨[], 127⟩ doc.entries = some base.server) :
    ∀ s ∈ server, s.2.written? doc = some (s.2.get base) := by
  obtain ⟨es, vs, hes, hvs, he⟩ := hold_of_group h (by decide) rfl
  simp only [server, serverPort, List.forall_mem_cons, List.not_mem_nil, IsEmpty.forall_iff, implies_true,
    written?_of_isGroup hes, ← he]
  exact hvs

theorem written?_logging
    (h : (Field.withDefault "logging" LoggingSettings.decoder .default).held? ⟨[], 127⟩ doc.entries =
      some base.logging) : ∀ s ∈ logging, s.2.written? doc = some (s.2.get base) := by
  obtain ⟨es, vs, hes, hvs, he⟩ := hold_of_group h (by decide) rfl
  simp only [logging, List.forall_mem_cons, List.not_mem_nil, IsEmpty.forall_iff, implies_true,
    written?_of_isGroup hes, ← he]
  exact hvs

theorem written?_storage
    (h : (Field.withDefault "storage" StorageSettings.decoder .default).held? ⟨[], 127⟩ doc.entries =
      some base.storage) : ∀ s ∈ storage, s.2.written? doc = some (s.2.get base) := by
  obtain ⟨es, vs, hes, hvs, he⟩ := hold_of_group h (by decide) rfl
  simp only [storage, List.forall_mem_cons, List.not_mem_nil, IsEmpty.forall_iff, implies_true,
    written?_of_isGroup hes, ← he]
  exact hvs

theorem written?_scripts
    (h : (Field.withDefault "scripts" ScriptsSettings.decoder .default).held? ⟨[], 127⟩ doc.entries =
      some base.scripts) : ∀ s ∈ scripts, s.2.written? doc = some (s.2.get base) := by
  obtain ⟨es, vs, hes, hvs, he⟩ := hold_of_group h (by decide) rfl
  simp only [scripts, List.forall_mem_cons, List.not_mem_nil, IsEmpty.forall_iff, implies_true,
    written?_of_isGroup hes, ← he]
  exact hvs

/-- **What a document gives to the settings** that are decoded from it. -/
theorem written?_of_decode (h : doc.decode Settings.decoder = .ok base) :
    ∀ s ∈ all, s.2.written? doc = some (s.2.get base) := by
  obtain ⟨⟨_, _, _, _, _, ⟨⟩⟩, ⟨hexecution, hserver, hlogging, hstorage, hscripts, -⟩, rfl⟩ :=
    Fields.hold_of_decoder rfl (by decide) h
  simp only [all, List.forall_mem_append]
  exact ⟨⟨⟨⟨written?_execution hexecution, written?_server hserver⟩, written?_logging hlogging⟩,
    written?_storage hstorage⟩, written?_scripts hscripts⟩

end Documents

/-! ## Variables -/

section Variables

variable {α : Type}

/-- The bytes of the variable, if it is set. -/
def bytes? (s : Setting α) (source : SettingsSource) : Option Text.Bytes :=
  s.override?.bind fun name => source.environment (source.variableName name)

/-- The text of the variable, if it is set to one. -/
def text? (s : Setting α) (source : SettingsSource) : Option String := s.override?.bind source.text?

/-- What the bytes of the variable stand for. -/
def ofBytes? (s : Setting α) (bytes : Text.Bytes) : Option α := (Text.decodeUtf8 bytes).toOption.bind s.ofText?

/-- The text of the variable, if there is one, stands for a value. -/
def Valid (s : Setting α) (source : SettingsSource) : Prop := ∀ t ∈ s.text? source, (s.ofText? t).isSome = true

/-- What the text of the variable stands for, or the old value. -/
def overridden (s : Setting α) (source : SettingsSource) (old : α) : α :=
  ((s.text? source).bind s.ofText?).getD old

/-- Some settings come out of others: the texts of their variables are valid and override them. -/
def Override (source : SettingsSource) (old new : Settings) (ss : List (Sigma Setting)) : Prop :=
  (∀ s ∈ ss, s.2.Valid source) ∧ ∀ s ∈ ss, s.2.overridden source (s.2.get old) = s.2.get new

theorem override_append {source : SettingsSource} {old new : Settings} {xs ys : List (Sigma Setting)} :
    Override source old new (xs ++ ys) ↔ Override source old new xs ∧ Override source old new ys := by
  simp only [Override, List.forall_mem_append]
  exact and_and_and_comm

end Variables

end Setting

/-- What comes of reading a variable: what its text stands for, or a fault if it stands for nothing. -/
def Reads {β : Type} (text? : Option String) (ofText? : String → Option β) (r : Except VariableFault (Option β)) :
    Prop :=
  match text? with
  | none => r = .ok none
  | some t =>
    match ofText? t with
    | some b => r = .ok (some b)
    | none => ∃ fault, r = .error fault

theorem Reads.eq_ok_iff {β : Type} {text? : Option String} {ofText? : String → Option β}
    {r : Except VariableFault (Option β)} {b : Option β} (h : Reads text? ofText? r) :
    r = .ok b ↔ (∀ t ∈ text?, (ofText? t).isSome = true) ∧ text?.bind ofText? = b := by
  cases text? with
  | none =>
    obtain rfl : r = .ok none := h
    simp
  | some t =>
    cases ht : ofText? t with
    | none =>
      simp only [Reads, ht] at h
      obtain ⟨fault, rfl⟩ := h
      simp [ht]
    | some c =>
      simp only [Reads, ht] at h
      simp [h, ht]

namespace SettingsSource

variable {source : SettingsSource} {base settings : Settings} {text : String}

theorem reads_integer (range : IntRange) (name : String) :
    Reads (source.text? name) (Setting.numberOfText range) (source.integer? range name) := by
  unfold integer? Reads Setting.numberOfText
  cases source.text? name with
  | none => rfl
  | some t => cases ht : range.parseDecimal (Text.trim t) <;> simp [ht, Except.toOption]

theorem reads_boolean (name : String) :
    Reads (source.text? name) Setting.truthOfText (source.boolean? name) := by
  unfold boolean? Reads Setting.truthOfText
  cases source.text? name with
  | none => rfl
  | some t =>
    simp only
    generalize Text.trim t = word
    by_cases htrue : word = "true"
    · simp [htrue]
    · by_cases hfalse : word = "false"
      · simp [hfalse]
      · simp [htrue, hfalse]

theorem reads_logLevel : Reads (source.text? "LOG_LEVEL") LogLevel.parse? source.logLevel? := by
  unfold logLevel? Reads
  cases source.text? "LOG_LEVEL" with
  | none => rfl
  | some t => cases ht : LogLevel.parse? t <;> simp [ht]

theorem reads_logFormat : Reads (source.text? "LOG_FORMAT") LogFormat.parse? source.logFormat? := by
  unfold logFormat? Reads
  cases source.text? "LOG_FORMAT" with
  | none => rfl
  | some t => cases ht : LogFormat.parse? t <;> simp [ht]

/-! ## Overriding -/

section Overriding

variable {t : String} {o : Option String}

@[simp] theorem isSome_portOfText : (Setting.portOfText t).isSome = (Setting.numberOfText .uint16 t).isSome :=
  Option.isSome_map

@[simp] theorem isSome_countOfText {range : IntRange} :
    (Setting.countOfText range t).isSome = (Setting.numberOfText range t).isSome := Option.isSome_map

@[simp] theorem isSome_pathOfText : (Setting.pathOfText t).isSome = true := rfl

@[simp] theorem getD_portOfText {old : Port} :
    (o.bind Setting.portOfText).getD old = port (o.bind (Setting.numberOfText .uint16)) old := by
  cases o with
  | none => rfl
  | some t => simp only [Option.bind_some, Setting.portOfText, port]

@[simp] theorem getD_countOfText {range : IntRange} {old : UInt64} :
    (o.bind (Setting.countOfText range)).getD old = count (o.bind (Setting.numberOfText range)) old := by
  cases o with
  | none => rfl
  | some t => simp only [Option.bind_some, Setting.countOfText, count]

@[simp] theorem getD_pathOfText {old : Option String} : (o.bind Setting.pathOfText).getD old = (o <|> old) := by
  cases o <;> rfl

end Overriding

/-- The variables of a group override its settings if their texts are valid. -/
theorem overrideExecution_eq_ok_iff :
    source.overrideExecution base.execution = .ok settings.execution ↔
      Setting.Override source base settings Setting.execution := by
  obtain ⟨⟨_, _, _, _, _, _, _⟩, _, _, _, _⟩ := settings
  simp [overrideExecution, bind_eq_ok_iff, (reads_integer _ _).eq_ok_iff, (reads_boolean _).eq_ok_iff, and_assoc,
    Setting.Override, Setting.execution, Setting.Valid, Setting.overridden, Setting.text?]

theorem overrideServer_eq_ok_iff :
    source.overrideServer base.server = .ok settings.server ↔
      Setting.Override source base settings Setting.server := by
  obtain ⟨_, ⟨_, _⟩, _, _, _⟩ := settings
  simp [overrideServer, bind_eq_ok_iff, (reads_integer _ _).eq_ok_iff, and_assoc, Setting.Override, Setting.server,
    Setting.serverPort, Setting.Valid, Setting.overridden, Setting.text?]

theorem overrideLogging_eq_ok_iff :
    source.overrideLogging base.logging = .ok settings.logging ↔
      Setting.Override source base settings Setting.logging := by
  obtain ⟨_, _, ⟨_, _, _, _⟩, _, _⟩ := settings
  simp [overrideLogging, bind_eq_ok_iff, reads_logLevel.eq_ok_iff, reads_logFormat.eq_ok_iff, and_assoc,
    Setting.Override, Setting.logging, Setting.Valid, Setting.overridden, Setting.text?]

theorem overridden_storage_iff :
    (⟨source.text? "TRACE_FILE" <|> base.storage.traceFile⟩ : StorageSettings) = settings.storage ↔
      Setting.Override source base settings Setting.storage := by
  obtain ⟨_, _, _, ⟨_⟩, _⟩ := settings
  simp [Setting.Override, Setting.storage, Setting.Valid, Setting.overridden, Setting.text?]

theorem overridden_scripts_iff :
    (⟨source.text? "SCRIPTS_DIR" <|> base.scripts.dir⟩ : ScriptsSettings) = settings.scripts ↔
      Setting.Override source base settings Setting.scripts := by
  obtain ⟨_, _, _, _, ⟨_⟩⟩ := settings
  simp [Setting.Override, Setting.scripts, Setting.Valid, Setting.overridden, Setting.text?]

/-- **Variables override settings** exactly if the texts of all of them are valid. -/
theorem override_eq_ok_iff :
    source.override base = .ok settings ↔ Setting.Override source base settings Setting.all := by
  have hgroups : source.override base = .ok settings ↔
      source.overrideExecution base.execution = .ok settings.execution ∧
        source.overrideServer base.server = .ok settings.server ∧
        source.overrideLogging base.logging = .ok settings.logging ∧
        (⟨source.text? "TRACE_FILE" <|> base.storage.traceFile⟩ : StorageSettings) = settings.storage ∧
        (⟨source.text? "SCRIPTS_DIR" <|> base.scripts.dir⟩ : ScriptsSettings) = settings.scripts := by
    obtain ⟨e, srv, l, st, sc⟩ := settings
    simp only [override, bind_eq_ok_iff, Except.ok.injEq, Settings.mk.injEq]
    constructor
    · rintro ⟨_, he, _, hsrv, _, hl, rfl, rfl, rfl, hst, hsc⟩
      exact ⟨he, hsrv, hl, hst, hsc⟩
    · rintro ⟨he, hsrv, hl, hst, hsc⟩
      exact ⟨e, he, srv, hsrv, l, hl, rfl, rfl, rfl, hst, hsc⟩
  rw [hgroups, overrideExecution_eq_ok_iff, overrideServer_eq_ok_iff, overrideLogging_eq_ok_iff, overridden_storage_iff,
    overridden_scripts_iff]
  simp only [Setting.all, Setting.override_append, and_assoc]

/-- Valid texts always override. -/
theorem exists_override_iff (source : SettingsSource) (base : Settings) :
    (∃ settings, source.override base = .ok settings) ↔ ∀ s ∈ Setting.all, s.2.Valid source := by
  constructor
  · rintro ⟨settings, h⟩
    exact (override_eq_ok_iff.1 h).1
  · intro h
    obtain ⟨settings, hsettings⟩ := Setting.exists_all fun s => s.2.overridden source (s.2.get base)
    exact ⟨settings, override_eq_ok_iff.2 ⟨h, hsettings⟩⟩

/-! ## Loading -/

/-- What comes of a file with the given text. -/
def ofText (source : SettingsSource) (text : String) : Except (Halt ConfigError) Settings :=
  source.ofFile (.ok (Text.encodeUtf8 text))

/-- The document of a text; a blank text has none, which is the same as one without entries. -/
def documentOf (text : String) : Yaml.Written :=
  if Text.isBlankText text then .mapping [] else (Yaml.read text.toList).1

theorem load_eq (source : SettingsSource) (content : Option (Except FileFault Text.Bytes)) : source.load content =
    (given content >>= fun base => (source.override base).mapError .variable).mapError .reported >>= source.check := rfl

theorem ofText_eq (source : SettingsSource) (text : String) : source.ofText text =
    (parse text >>= fun base => (source.override base).mapError .variable).mapError .reported >>= source.check := by
  have hgiven : given (some (.ok (Text.encodeUtf8 text))) = parse text := by
    simp only [given, readText, bind, Except.bind, Text.decodeUtf8_encodeUtf8]
  rw [ofText, ofFile, load_eq, hgiven]

/-- A blank text leaves everything to the variables. -/
theorem ofText_of_isBlankText (h : Text.isBlankText text = true) : source.ofText text = source.ofEnvironment := by
  rw [ofText_eq, ofEnvironment, load_eq, parse, if_pos h, given]

theorem check_eq_ok_iff {a : Settings} :
    source.check a = .ok settings ↔ a.validate source.pathKind = .ok () ∧ a = settings := by
  unfold check
  cases a.validate source.pathKind <;> simp

/-- A check blames no variable. -/
theorem check_ne_variable {a : Settings} {fault : VariableFault} :
    source.check a ≠ .error (.reported (.variable fault)) := by
  unfold check
  cases a.validate source.pathKind with
  | ok _ => simp
  | error e => cases e <;> simp [Halt.map]

theorem ofText_eq_ok_iff : source.ofText text = .ok settings ↔ ∃ base, parse text = .ok base ∧
    source.override base = .ok settings ∧ settings.validate source.pathKind = .ok () := by
  simp only [ofText_eq, bind_eq_ok_iff, mapError_eq_ok_iff, check_eq_ok_iff]
  constructor
  · rintro ⟨_, ⟨base, hbase, hoverride⟩, hvalid, rfl⟩
    exact ⟨base, hbase, hoverride, hvalid⟩
  · rintro ⟨base, hbase, hoverride, hvalid⟩
    exact ⟨settings, ⟨base, hbase, hoverride⟩, hvalid, rfl⟩

/-- A variable is to blame exactly if it is a text that stands for no value. -/
theorem ofText_variable_iff (hparse : parse text = .ok base) :
    (∃ fault, source.ofText text = .error (.reported (.variable fault))) ↔ ¬∀ s ∈ Setting.all, s.2.Valid source := by
  have hload : source.ofText text =
      ((source.override base).mapError ConfigError.variable).mapError .reported >>= source.check := by
    rw [ofText_eq, hparse]
    rfl
  rw [← exists_override_iff source base, hload]
  cases hoverride : source.override base with
  | error fault =>
    have herror : ((Except.error fault : Except VariableFault Settings).mapError ConfigError.variable).mapError
        Halt.reported = .error (.reported (.variable fault)) :=
      mapError_eq_error_iff.2 ⟨_, mapError_eq_error_iff.2 ⟨fault, rfl, rfl⟩, rfl⟩
    exact iff_of_true ⟨fault, bind_eq_error_iff.2 (.inl herror)⟩ (by simp)
  | ok settings =>
    refine iff_of_false ?_ fun h => h ⟨settings, rfl⟩
    rintro ⟨fault, h⟩
    exact check_ne_variable h

theorem written?_of_parse (h : parse text = .ok base) :
    ∀ s ∈ Setting.all, s.2.written? (documentOf text) = some (s.2.get base) := by
  unfold parse at h
  split at h
  · rename_i hblank
    rw [documentOf, if_pos hblank]
    obtain rfl := Except.ok.inj h
    exact Setting.written?_of_decode rfl
  · rename_i hblank
    rw [documentOf, if_neg hblank]
    exact Setting.written?_of_decode (Yaml.decode_of_decodeText (mapError_eq_ok_iff.1 h))

/-- **Where settings come from**: from the text of the variable if there is one, else from the document. -/
theorem get_of_ofText (h : source.ofText text = .ok settings) : ∀ s ∈ Setting.all,
    match s.2.text? source with
    | some t => s.2.ofText? t = some (s.2.get settings)
    | none => s.2.written? (documentOf text) = some (s.2.get settings) := by
  intro s hs
  obtain ⟨base, hparse, hoverride, -⟩ := ofText_eq_ok_iff.1 h
  obtain ⟨hvalid, hget⟩ := override_eq_ok_iff.1 hoverride
  have hvalue := hget s hs
  unfold Setting.overridden at hvalue
  cases ht : s.2.text? source with
  | none =>
    rw [ht] at hvalue
    have hbase : s.2.get base = s.2.get settings := hvalue
    rw [← hbase]
    exact written?_of_parse hparse s hs
  | some t =>
    obtain ⟨a, ha⟩ := Option.isSome_iff_exists.1 (hvalid s hs t ht)
    rw [ht, Option.bind_some, ha] at hvalue
    exact ha.trans (congrArg some hvalue)

end SettingsSource

namespace Setting

variable {α : Type} {source : SettingsSource} {doc : Yaml.Written} {settings base : Settings} {text : String}

/-! ## Precedence -/

/-- The bytes of the variable are a text, if it is set. -/
def Readable (s : Setting α) (source : SettingsSource) : Prop :=
  ∀ bytes ∈ s.bytes? source, ∃ text, Text.decodeUtf8 bytes = .ok text

/-- The variable is set to bytes that stand for no value. -/
def Refused (s : Setting α) (source : SettingsSource) : Prop := ∃ bytes ∈ s.bytes? source, s.ofBytes? bytes = none

/-- There are texts that stand for no value. -/
def IsParsed (s : Setting α) : Prop := ∃ text, s.ofText? text = none

/-- The setting has the value of its variable if that is set, else the value that the document gives it. -/
def Follows (s : Setting α) (source : SettingsSource) (doc : Yaml.Written) (settings : Settings) : Prop :=
  match s.bytes? source with
  | some bytes => s.ofBytes? bytes = some (s.get settings)
  | none => s.written? doc = some (s.get settings)

theorem text?_eq (s : Setting α) (source : SettingsSource) :
    s.text? source = (s.bytes? source).bind fun bytes => (Text.decodeUtf8 bytes).toOption := by
  unfold text? bytes?
  cases s.override? <;> rfl

theorem Readable.text?_eq {s : Setting α} {bytes : Text.Bytes} (h : s.Readable source)
    (hb : s.bytes? source = some bytes) : ∃ t, s.text? source = some t ∧ s.ofBytes? bytes = s.ofText? t := by
  obtain ⟨t, ht⟩ := h bytes hb
  refine ⟨t, ?_, ?_⟩
  · rw [Setting.text?_eq, hb, Option.bind_some, ht]
    rfl
  · rw [ofBytes?, ht]
    rfl

theorem not_valid_of_refused {s : Setting α} (hread : s.Readable source) (h : s.Refused source) : ¬s.Valid source := by
  obtain ⟨bytes, hb, hnone⟩ := h
  obtain ⟨t, ht, he⟩ := hread.text?_eq hb
  intro hvalid
  have hsome := hvalid t ht
  rw [← he, hnone] at hsome
  cases hsome

theorem refused_of_not_readable {s : Setting α} (h : ¬s.Readable source) : s.Refused source := by
  obtain ⟨bytes, hrest⟩ := not_forall.1 h
  obtain ⟨hb, hnone⟩ := Classical.not_imp.1 hrest
  refine ⟨bytes, hb, ?_⟩
  cases hdecode : Text.decodeUtf8 bytes with
  | error fault => rw [ofBytes?, hdecode]; rfl
  | ok t => exact absurd ⟨t, hdecode⟩ hnone

/-- A text that stands for no value is one of a variable that is set to it. -/
theorem readable_of_not_valid {s : Setting α} (h : ¬s.Valid source) : s.Readable source ∧ s.Refused source := by
  obtain ⟨t, hrest⟩ := not_forall.1 h
  obtain ⟨ht, hnone⟩ := Classical.not_imp.1 hrest
  rw [text?_eq] at ht
  obtain ⟨bytes, hb, hdecode⟩ := Option.bind_eq_some_iff.1 ht
  rw [toOption_eq_some_iff] at hdecode
  refine ⟨fun bytes' hb' => ?_, bytes, hb, ?_⟩
  · obtain rfl : bytes = bytes' := Option.some.inj (hb.symm.trans hb')
    exact ⟨t, hdecode⟩
  · rw [ofBytes?, hdecode]
    simpa [Except.toOption] using hnone

/-- **Variables come before the document, and the document before the defaults**, in settings that are loaded, exactly
if every variable that is set is a text. -/
theorem follows_iff :
    (∀ settings, source.ofText text = .ok settings →
        ∀ s ∈ all, s.2.Follows source (SettingsSource.documentOf text) settings) ↔
      (∀ settings, source.ofText text ≠ .ok settings) ∨ ∀ s ∈ all, s.2.Readable source := by
  constructor
  · intro h
    by_cases hload : ∃ settings, source.ofText text = .ok settings
    · obtain ⟨settings, hload⟩ := hload
      refine .inr fun s hs bytes hb => ?_
      have hfollows := h settings hload s hs
      rw [Follows, hb] at hfollows
      obtain ⟨t, ht, -⟩ := Option.bind_eq_some_iff.1 hfollows
      exact ⟨t, toOption_eq_some_iff.1 ht⟩
    · exact .inl fun settings hs => hload ⟨settings, hs⟩
  · rintro (hnone | hread) settings hload s hs
    · exact absurd hload (hnone settings)
    · have hget := SettingsSource.get_of_ofText hload s hs
      unfold Follows
      cases hb : s.2.bytes? source with
      | none =>
        rw [text?_eq, hb] at hget
        exact hget
      | some bytes =>
        obtain ⟨t, ht, he⟩ := (hread s hs).text?_eq hb
        rw [ht] at hget
        exact he.trans hget

/-- **A variable without a value for its setting is reported**, before the settings are checked, exactly if it or another
such one is a text. -/
theorem refused_is_reported_iff (hparse : SettingsSource.parse text = .ok base) :
    ((∃ s ∈ all, s.2.IsParsed ∧ s.2.Refused source) →
        ∃ fault, source.ofText text = .error (.reported (.variable fault))) ↔
      (∀ s ∈ all, s.2.IsParsed → s.2.Readable source) ∨ ∃ s ∈ all, s.2.Readable source ∧ s.2.Refused source := by
  rw [SettingsSource.ofText_variable_iff hparse]
  constructor
  · intro h
    refine or_iff_not_imp_left.2 fun hunread => ?_
    obtain ⟨s, hrest⟩ := not_forall.1 hunread
    obtain ⟨hs, hrest⟩ := Classical.not_imp.1 hrest
    obtain ⟨hparsed, hnot⟩ := Classical.not_imp.1 hrest
    have hinvalid := h ⟨s, hs, hparsed, refused_of_not_readable hnot⟩
    obtain ⟨s', hrest⟩ := not_forall.1 hinvalid
    obtain ⟨hs', hnot'⟩ := Classical.not_imp.1 hrest
    exact ⟨s', hs', readable_of_not_valid hnot'⟩
  · rintro h ⟨s, hs, hparsed, hrefused⟩ hvalid
    rcases h with hread | ⟨s', hs', hread, hrefused'⟩
    · exact not_valid_of_refused (hread s hs hparsed) hrefused (hvalid s hs)
    · exact not_valid_of_refused hread hrefused' (hvalid s' hs')

theorem serverPort_mem_all : ⟨_, serverPort⟩ ∈ all := by
  simp only [all, server, List.mem_append, List.mem_cons]
  tauto

/-- The port of the supervisor is the only variable that is set. -/
def portVariable (bytes : Text.Bytes) : SettingsSource where
  family := "SPROCKET"
  environment name := if name = "SPROCKET_SERVER_PORT" then some bytes else none
  pathKind _ := .absent

end Setting

end ScriptRunner
