import SolanaTx.Text.Blank
import SolanaTx.Text.Case
import SolanaTx.Text.Digit

/-!
# Settings

How much of a transaction is shown, and which transactions are passed on. Where a
variable of the environment holds nothing usable, the default stands.
-/

namespace SolanaTx

inductive Verbosity where
  | quiet
  | condensed
  | full
  deriving DecidableEq

namespace Verbosity

def text : Verbosity → Text
  | quiet => "quiet"
  | condensed => "condensed"
  | full => "full"

def ofText? (t : Text) : Option Verbosity :=
  [quiet, condensed, full].find? fun v => v.text == t

end Verbosity

structure Settings where
  /-- For transactions that succeed; those that fail are shown in full. -/
  verbosity : Verbosity := .condensed
  /-- Whether transactions that succeed are passed on too. -/
  logEvents : Bool := false
  showRawLogs : Bool := true
  /-- How many bytes of a payload are shown that was not decoded; all of them where it is 0. -/
  maxDataBytes : Int := 256

namespace Settings

/-- All there is. -/
def debug : Settings :=
  { verbosity := .full, logEvents := true, showRawLogs := true, maxDataBytes := 0 }

/-- A variable of the environment without blanks around it and in small letters. -/
def word (value : Option Text) : Text :=
  Text.lower (Text.trim (value.getD []))

def verbosityOf (value : Option Text) : Verbosity :=
  let w := word value
  match Verbosity.ofText? w with
  | some v => v
  | none => if w = "debug" ∨ w = "verbose" then .full else .condensed

def onWords : List Text := ["1", "true", "yes", "on"]

def offWords : List Text := ["0", "false", "no", "off"]

def switchOf (value : Option Text) (default : Bool) : Bool :=
  let w := word value
  if onWords.contains w then true else if offWords.contains w then false else default

/-- A number of bytes, which is not below zero. -/
def bytesOf (value : Option Text) (default : Int) : Int :=
  match Text.toInt? (Text.trim (value.getD [])) with
  | some n => if 0 ≤ n then n else default
  | none => default

/-- The variable of the environment for one setting. -/
def variableName (setting : Text) : Text :=
  "INSTRUCTION_DECODER_" ++ setting

/-- The variables that are read. -/
def variableNames : List Text :=
  [variableName "VERBOSITY", variableName "LOG_EVENTS", variableName "SHOW_RAW_LOGS",
    variableName "MAX_DATA_BYTES"]

def ofEnvironment (valueOf : Text → Option Text) : Settings where
  verbosity := verbosityOf (valueOf (variableName "VERBOSITY"))
  logEvents := switchOf (valueOf (variableName "LOG_EVENTS")) false
  showRawLogs := switchOf (valueOf (variableName "SHOW_RAW_LOGS")) true
  maxDataBytes := bytesOf (valueOf (variableName "MAX_DATA_BYTES")) 256

end Settings

end SolanaTx
