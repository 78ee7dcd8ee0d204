import ScriptRunner.CommandLine.Grammar

/-!
# Help texts and usage errors

What is shown when help is asked for, and what is shown instead of carrying out a command line that is wrong. Help that is
asked for is the output of a run that succeeds; everything else is an error with the exit code of wrong usage.
-/

namespace ScriptRunner.CommandLine

/-- How a run of the program ends. -/
structure Outcome where
  exitCode : UInt8
  output : String
  errors : String
  deriving DecidableEq, Repr

/-- A run that succeeds. -/
def Outcome.success (output : String) : Outcome := ⟨0, output, ""⟩

/-- The exit code of wrong usage. -/
def usageExitCode : UInt8 := 2

/-- An option with what stands for its value. -/
def OptionSpec.shown (o : OptionSpec) : String :=
  match o.rule with
  | .nothing => "--" ++ o.name
  | _ => s!"--{o.name} <{o.placeholder}>"

/-- Lines of two columns. -/
def columns (rows : List (String × String)) : List String :=
  let width := rows.foldl (fun w row => max w row.1.length) 0
  rows.map fun (left, right) =>
    let gap := String.ofList (List.replicate (width - left.length) ' ')
    s!"  {left}{gap}  {right}"

/-- A titled part of a help text. -/
def helpPart (title : String) (rows : List (String × String)) : String :=
  if rows.isEmpty then "" else "\n" ++ title ++ ":\n" ++ String.join ((columns rows).map (· ++ "\n"))

namespace Place

/-- The commands that help texts list. -/
def listedCommands (p : Place) : List CommandSpec :=
  if p.hasCommands then p.command.commands ++ [helpCommand] else []

/-- The options that help texts list, in their order. -/
def listedOptions (p : Place) : List OptionSpec :=
  (p.options.filter fun o => !o.hidden).mergeSort fun a b => a.rank < b.rank || (a.rank == b.rank && a.name ≤ b.name)

def isHelp (p : Place) : Bool := p.command.name == helpName

/-- How the command is used, in one line. -/
def usage (p : Place) : String :=
  let options := p.listedOptions
  " ".intercalate <| p.names
    ++ (if options.any fun o => !o.required then ["[OPTIONS]"] else [])
    ++ (options.filter OptionSpec.required).map OptionSpec.shown
    ++ (if p.isHelp then ["[COMMAND]..."]
      else if !p.hasCommands then []
      else if p.command.commandRequired then ["<COMMAND>"] else ["[COMMAND]"])

/-- The help text of the command. -/
def helpText (p : Place) : String :=
  let options := p.listedOptions.map fun o => ("    " ++ o.shown, o.about)
  let help := if p.isHelp then [] else [("-h, --help", "Print help")]
  let version := if p.command.version.isSome then [("-V, --version", "Print version")] else []
  s!"{p.command.about}\n\nUsage: {p.usage}\n"
    ++ helpPart "Commands" (p.listedCommands.map fun c => (c.name, c.about))
    ++ helpPart "Arguments" (if p.isHelp then [("[COMMAND]...", "Print help for the subcommand(s)")] else [])
    ++ helpPart "Options" (options ++ help ++ version)

end Place

namespace UsageError

/-- What is wrong, and whether the usage of the command helps against it. -/
def reason (e : UsageError) : String × Bool :=
  match e.fault with
  | .displayHelp | .displayVersion _ | .missingArgumentOrSubcommand => ("", false)
  | .missingSubcommand =>
    let command := " ".intercalate e.place.names
    let inner := ", ".intercalate (e.place.listedCommands.map CommandSpec.name)
    (s!"'{command}' requires a subcommand but one was not provided\n  [subcommands: {inner}]", true)
  | .missingRequiredArgument options =>
    ("the following required arguments were not provided:"
      ++ String.join (options.map fun o => "\n  " ++ o.shown), true)
  | .unknownArgument word => (s!"unexpected argument '{word}' found", true)
  | .invalidSubcommand word => (s!"unrecognized subcommand '{word}'", true)
  | .invalidValue o => (s!"a value is required for '{o.shown}' but none was supplied", false)
  | .valueValidation o value fault => (s!"invalid value '{value}' for '{o.shown}': {fault.message}", false)
  | .argumentConflict o => (s!"the argument '{o.shown}' cannot be used multiple times", true)
  | .tooManyValues option value => (s!"unexpected value '{value}' for '{option}' found; no more were expected", true)

/-- The message on wrong usage. -/
def message (e : UsageError) : String :=
  let (reason, usage) := e.reason
  s!"error: {reason}\n" ++ (if usage then s!"\nUsage: {e.place.usage}\n" else "")
    ++ "\nFor more information, try '--help'.\n"

/-- How a run ends whose command line is not carried out. -/
def outcome (e : UsageError) : Outcome :=
  match e.fault with
  | .displayHelp => .success e.place.helpText
  | .displayVersion text => .success (text ++ "\n")
  | .missingArgumentOrSubcommand => ⟨usageExitCode, "", e.place.helpText⟩
  | _ => ⟨usageExitCode, "", e.message⟩

end UsageError

end ScriptRunner.CommandLine
