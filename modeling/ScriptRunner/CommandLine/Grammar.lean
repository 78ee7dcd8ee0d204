import ScriptRunner.Text.Blank

/-!
# Command lines

A command has options and may have commands of its own. Its words are read from the left: an option takes the word after
it or what follows its `=` as its value, and the name of a command hands the rest of the words to that command. Words that
look like options are never values. After `--` no word is an option, and since no command takes free words, none may
follow.

The value of an option is judged when the next option of the same command comes or the words end; the options of a command
inside are judged before those of the commands around it.
-/

namespace ScriptRunner.CommandLine

/-! ## Parameters -/

/-- Why a text is not a parameter with a value. -/
inductive ParamFault where
  | noValue (text : String)
  | noName (text : String)
  deriving DecidableEq, Repr

def ParamFault.message : ParamFault → String
  | .noValue text => s!"expected KEY=VALUE, got '{text}'"
  | .noName text => s!"empty parameter name in '{text}'"

/-- The name before the first `=` of a text, without blanks around it, and the value after it. -/
def parseParam (text : String) : Except ParamFault (String × String) :=
  let name := text.toList.takeWhile (· ≠ '=')
  match text.toList.drop name.length with
  | [] => .error (.noValue text)
  | _ :: value =>
    let name := Text.trim (String.ofList name)
    if name.isEmpty then .error (.noName text) else .ok (name, String.ofList value)

/-! ## Commands and their options -/

/-- What an option takes. -/
inductive ValueRule where
  | nothing
  | text
  | path
  | param
  deriving DecidableEq, Repr

structure OptionSpec where
  name : String
  /-- Help texts list options by rank, and by name within a rank. -/
  rank : Nat
  rule : ValueRule
  /-- What stands for the value in help texts. -/
  placeholder : String
  about : String
  required : Bool := false
  repeatable : Bool := false
  /-- Commands inside take the option too. -/
  inherited : Bool := false
  hidden : Bool := false
  deriving DecidableEq, Repr

structure CommandSpec where
  name : String
  about : String
  options : List OptionSpec := []
  commands : List CommandSpec := []
  commandRequired : Bool := false
  version : Option String := none

/-- The command that shows help on other commands. -/
def helpName : String := "help"

/-! ## What is wrong with a command line -/

/-- Why a command line is not carried out. -/
inductive UsageFault where
  /-- Help is asked for. -/
  | displayHelp
  | displayVersion (text : String)
  /-- A command that does nothing alone stands alone. -/
  | missingArgumentOrSubcommand
  | missingSubcommand
  | missingRequiredArgument (options : List OptionSpec)
  | unknownArgument (word : String)
  | invalidSubcommand (word : String)
  /-- The value is missing. -/
  | invalidValue (option : OptionSpec)
  | valueValidation (option : OptionSpec) (value : String) (fault : ParamFault)
  /-- The option stands more than once. -/
  | argumentConflict (option : OptionSpec)
  /-- A value stands where none is taken. -/
  | tooManyValues (option value : String)
  deriving DecidableEq, Repr

/-- A command as the words before it lead to it. -/
structure Place where
  command : CommandSpec
  /-- The names of the commands on the way. -/
  names : List String
  inherited : List OptionSpec

namespace Place

def start (c : CommandSpec) : Place := ⟨c, [c.name], []⟩

def options (p : Place) : List OptionSpec := p.command.options ++ p.inherited

/-- The place of a command inside. The command that shows help takes no option. -/
def enter (p : Place) (c : CommandSpec) : Place :=
  ⟨c, p.names ++ [c.name], if c.name == helpName then [] else p.options.filter OptionSpec.inherited⟩

def hasCommands (p : Place) : Bool := !p.command.commands.isEmpty

def command? (p : Place) (word : String) : Option CommandSpec := p.command.commands.find? fun c => c.name == word

/-- The command of its own that shows help. -/
def helpCommand : CommandSpec :=
  { name := helpName, about := "Print this message or the help of the given subcommand(s)" }

/-- A command inside, or that which shows help. -/
def known? (p : Place) (word : String) : Option CommandSpec :=
  p.command? word <|> if p.hasCommands && word == helpName then some helpCommand else none

end Place

structure UsageError where
  fault : UsageFault
  place : Place

/-! ## Words -/

/-- A word by its look. -/
inductive Word where
  | separator
  | long (name : String) (value : Option String)
  | short (letter : Char)
  | plain

/-- The look of a word. A single `-` is plain. -/
def Word.of (word : String) : Word :=
  match word.toList with
  | ['-', '-'] => .separator
  | '-' :: '-' :: cs =>
    let name := cs.takeWhile (· ≠ '=')
    .long (String.ofList name) (match cs.drop name.length with
      | [] => none
      | _ :: value => some (String.ofList value))
  | '-' :: c :: _ => .short c
  | _ => .plain

/-! ## Values -/

/-- The values of options in the order in which they are judged. -/
abbrev Given := List (String × String)

/-- The options of one command as far as its words are read. -/
structure Reading where
  given : Given
  /-- The last option, with its value once that is read. -/
  waiting : Option (OptionSpec × Option String)

namespace Reading

def start : Reading := ⟨[], none⟩

/-- Why the value of an option cannot be used. -/
def judge (o : OptionSpec) (value : String) : Except UsageFault Unit :=
  match o.rule with
  | .nothing | .text => .ok ()
  | .path => if value.isEmpty then .error (.invalidValue o) else .ok ()
  | .param =>
    match parseParam value with
    | .ok _ => .ok ()
    | .error fault => .error (.valueValidation o value fault)

/-- The values with one more. -/
def add (given : Given) (o : OptionSpec) (value : String) : Except UsageFault Given :=
  if !o.repeatable && given.any fun g => g.1 == o.name then .error (.argumentConflict o)
  else (judge o value).map fun () => given ++ [(o.name, value)]

/-- The values when the last option has got all that it gets. -/
def settle (r : Reading) : Except UsageFault Given :=
  match r.waiting with
  | none => .ok r.given
  | some (o, none) => .error (.invalidValue o)
  | some (o, some value) => add r.given o value

/-- Reads an option. -/
def option (p : Place) (r : Reading) (name : String) (value : Option String) : Except UsageFault Reading :=
  match p.options.find? fun o => o.name == name with
  | some o =>
    match o.rule, value with
    | .nothing, some v => .error (.tooManyValues ("--" ++ name) v)
    | .nothing, none => do .ok ⟨← add (← r.settle) o "", none⟩
    | _, some v => do .ok ⟨← add (← r.settle) o v, none⟩
    | _, none => do .ok ⟨← r.settle, some (o, none)⟩
  | none =>
    match name, p.command.version, value with
    | "help", _, none => do
      let _ ← r.settle
      .error .displayHelp
    | "version", some v, none => do
      let _ ← r.settle
      .error (.displayVersion v)
    | "help", _, some v | "version", some _, some v => .error (.tooManyValues ("--" ++ name) v)
    | _, _, _ => .error (.unknownArgument ("--" ++ name))

/-- Reads a group of letters, of which the first decides. -/
def letter (p : Place) (r : Reading) (c : Char) : Except UsageFault Reading :=
  match c, p.command.version with
  | 'h', _ => r.option p helpName none
  | 'V', some _ => r.option p "version" none
  | _, _ => .error (.unknownArgument (String.ofList ['-', c]))

/-- The values of a command at the end of its words. -/
def finish (p : Place) (r : Reading) : Except UsageFault Given := do
  let given ← r.settle
  if p.command.commandRequired then
    .error (if given.isEmpty then .missingArgumentOrSubcommand else .missingSubcommand)
  else
    match p.options.filter fun o => o.required && !given.any fun g => g.1 == o.name with
    | [] => .ok given
    | missing => .error (.missingRequiredArgument missing)

end Reading

/-! ## Reading -/

/-- The fault of a free word. -/
def strayWord (p : Place) (word : String) : UsageFault :=
  if p.hasCommands then .invalidSubcommand word else .unknownArgument word

/-- The command whose help is asked for by name. -/
def helpPlace (p : Place) : List String → Except UsageError Place
  | [] => .ok p
  | word :: words =>
    match p.known? word with
    | some c => helpPlace (p.enter c) words
    | none => .error ⟨.invalidSubcommand word, p⟩

/-- The names of the commands that a command line leads to, and the values of their options. -/
def read (p : Place) (r : Reading) : List String → Except UsageError (List String × Given)
  | [] => ((r.finish p).mapError fun fault => ⟨fault, p⟩).map fun given => (p.names, given)
  | word :: words =>
    let stop {α : Type} (fault : UsageFault) : Except UsageError α := .error ⟨fault, p⟩
    match Word.of word with
    | .separator =>
      match words with
      | [] => ((r.finish p).mapError fun fault => ⟨fault, p⟩).map fun given => (p.names, given)
      | next :: _ => stop (if (p.known? next).isSome then .unknownArgument next else strayWord p next)
    | .long name value =>
      match r.option p name value with
      | .ok r => read p r words
      | .error fault => stop fault
    | .short c =>
      match r.letter p c with
      | .ok r => read p r words
      | .error fault => stop fault
    | .plain =>
      match r.waiting with
      | some (o, none) => read p { r with waiting := some (o, some word) } words
      | _ =>
        match p.command? word with
        | some c =>
          match read (p.enter c) .start words with
          | .error e => .error e
          | .ok (names, inner) =>
            match r.settle with
            | .ok given => .ok (names, given ++ inner)
            | .error fault => stop fault
        | none =>
          if p.hasCommands && word == helpName then
            match helpPlace p words with
            | .ok p => .error ⟨.displayHelp, p⟩
            | .error e => .error e
          else stop (strayWord p word)

end ScriptRunner.CommandLine
