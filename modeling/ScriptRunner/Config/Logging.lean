import ScriptRunner.Document.Decoder

/-!
# Log levels and formats

Both are written as words. Where a person gives them, capital letters count as small ones and `warning` is `warn`; in a
document the word has to be exact.
-/

namespace ScriptRunner

inductive LogLevel where
  | error
  | warn
  | info
  | debug
  | trace
  deriving DecidableEq, Repr, Inhabited

inductive LogFormat where
  | json
  | text
  | compact
  | pretty
  deriving DecidableEq, Repr, Inhabited

/-- A word with small letters for the capital letters of ASCII. No other letter has a small form that these words use. -/
def lowerCase (s : String) : String := s.map Char.toLower

namespace LogLevel

def all : List LogLevel := [error, warn, info, debug, trace]

def name : LogLevel → String
  | error => "error"
  | warn => "warn"
  | info => "info"
  | debug => "debug"
  | trace => "trace"

/-- The level that a person names. -/
def parse? (s : String) : Option LogLevel :=
  let word := lowerCase s
  if word = "warning" then some warn else all.find? fun l => l.name == word

variable {σ : Type} [Format σ]

def decoder : Decoder σ LogLevel := Decoder.choice (all.map fun l => (l.name, l))

end LogLevel

namespace LogFormat

def all : List LogFormat := [json, text, compact, pretty]

def name : LogFormat → String
  | json => "json"
  | text => "text"
  | compact => "compact"
  | pretty => "pretty"

/-- The format that a person names. -/
def parse? (s : String) : Option LogFormat :=
  let word := lowerCase s
  all.find? fun f => f.name == word

variable {σ : Type} [Format σ]

def decoder : Decoder σ LogFormat := Decoder.choice (all.map fun f => (f.name, f))

end LogFormat

end ScriptRunner
