import SolanaTx.Idl.Table
import SolanaTx.Json.Parser
import SolanaTx.Report.Render
import SolanaTx.Rpc.Result
import SolanaTx.Text.Word

/-!
# The command line

A run reads one reported transaction and any number of interface descriptions, and
writes the report. Descriptions are registered in their order before the
transaction is looked at.
-/

namespace SolanaTx

/-- What a run is asked for. -/
structure Arguments where
  path : Text
  /-- How much to show, instead of what the settings say. -/
  verbosity : Option Verbosity := none
  descriptions : List Text := []

namespace Arguments

/-- Arguments as far as they are read. The path of the transaction may be still to come. -/
structure Partial where
  path : Option Text := none
  verbosity : Option Verbosity := none
  descriptions : List Text := []

namespace Partial

def withVerbosity? (p : Partial) (word : Text) : Option Partial :=
  (Verbosity.ofText? word).map fun v => { p with verbosity := some v }

def withDescription (p : Partial) (path : Text) : Partial :=
  { p with descriptions := p.descriptions ++ [path] }

def withPath? (p : Partial) (path : Text) : Option Partial :=
  if p.path.isNone then some { p with path := some path } else none

end Partial

/-- Whether a word is an option and no value. -/
def isOption : Text → Bool
  | .char '-' :: _ :: _ => true
  | _ => false

/-- The value that a word gives to the option named, after an equals sign. -/
def inlineValue? (option word : Text) : Option Text :=
  Text.after? (option ++ "=") word

def readFrom? (p : Partial) : List Text → Option Partial
  | [] => some p
  | [word] => single p word
  | word :: value :: rest =>
      if word = "--verbosity" then (p.withVerbosity? value).bind (readFrom? · rest)
      else if word = "--idl" then
        if isOption value then none else readFrom? (p.withDescription value) rest
      else (single p word).bind (readFrom? · (value :: rest))
where
  /-- Takes a word that stands for itself. -/
  single (p : Partial) (word : Text) : Option Partial :=
    match inlineValue? "--verbosity" word, inlineValue? "--idl" word with
    | some value, _ => p.withVerbosity? value
    | _, some path => some (p.withDescription path)
    | none, none => if isOption word then none else p.withPath? word

/-- The arguments that words give: one path, and options in any place. -/
def ofWords? (words : List Text) : Option Arguments := do
  let p ← readFrom? {} words
  pure ⟨← p.path, p.verbosity, p.descriptions⟩

end Arguments

/-- Why a run writes no report. -/
inductive Refusal where
  | unreadable (path : Text)
  | unusableDescription (path : Text)
  | noTransaction (path : Text)

def Refusal.message : Refusal → Text
  | unreadable path => "Cannot read " ++ path
  | unusableDescription path => "Cannot load IDL " ++ path
  | noTransaction path => path ++ " does not contain a transaction"

/-- What a run leaves that comes to its end: its status, and what it writes. -/
structure Exit where
  status : UInt32
  output : Text := []
  errors : Text := []

def Exit.ofAnswer : Except Refusal Text → Exit
  | .ok report => { status := 0, output := report }
  | .error refusal => { status := 1, errors := refusal.message ++ "\n" }

namespace CommandLine

/-- Whether a fault says that a description is unusable. All others end the run. -/
def isUnusable : Fault → Bool
  | .badValue | .missingField | .notEncodable | .payload _ | .table _ | .description _ => true
  | _ => false

/-- The table of a description, which is a JSON document if it is usable. -/
def load (read : Text → Except Json.ReadError Json) (path : Text) :
    Except Fault (Except Refusal ProgramTable) :=
  match read path with
  | .error .malformed => .ok (.error (.unusableDescription path))
  | .error .tooDeep => .error .endless
  | .ok document =>
      match Idl.table document none none with
      | .ok t => .ok (.ok t)
      | .error fault =>
          if isUnusable fault then .ok (.error (.unusableDescription path)) else .error fault

/-- Registers the decoders of descriptions in their order, unless one is unusable. -/
def registerAll (read : Text → Except Json.ReadError Json) :
    Registry → List Text → Except Fault (Except Refusal Registry)
  | r, [] => .ok (.ok r)
  | r, path :: rest => do
      match ← load read path with
      | .error refusal => pure (.error refusal)
      | .ok t => registerAll read (r.register (.table t)) rest

/-- The report of a reported transaction. -/
def report (settings : Settings) (r : Registry) (verbosity : Option Verbosity)
    (result : Rpc.Result) : Except Fault Text := do
  Report.render ⟨settings, r.labels⟩ (← result.decode r) none verbosity none

/-- A run over the documents that paths lead to. A path that leads nowhere counts as one to a
document that is malformed. -/
def run (settings : Settings) (read : Text → Except Json.ReadError Json) (a : Arguments) :
    Except Fault (Except Refusal Text) :=
  match read a.path with
  | .error .malformed => .ok (.error (.unreadable a.path))
  | .error .tooDeep => .error .endless
  | .ok document => do
      match ← registerAll read (Registry.withBuiltins []) a.descriptions with
      | .error refusal => pure (.error refusal)
      | .ok r =>
          match ← Rpc.Result.ofJson? document with
          | none => pure (.error (.noTransaction a.path))
          | some result => do pure (.ok (← report settings r a.verbosity result))

/-- A run up to its end, which a fault keeps it from. -/
def execute (settings : Settings) (read : Text → Except Json.ReadError Json) (a : Arguments) :
    Except Fault Exit :=
  (run settings read a).map Exit.ofAnswer

end CommandLine

end SolanaTx
