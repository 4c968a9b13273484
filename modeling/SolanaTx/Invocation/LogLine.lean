import SolanaTx.Fault
import SolanaTx.Text.Blank
import SolanaTx.Text.Digit
import SolanaTx.Text.Word

/-!
# Log lines

The runtime logs the start and the end of every invocation. Blanks around a line
do not count, and lines of any other form say nothing.
-/

namespace SolanaTx

/-- How an invocation ended. -/
inductive Ending where
  | success
  | failed (reason : Text)
  deriving DecidableEq

namespace Ending

def text : Ending → Text
  | success => "success"
  | failed reason => "failed: " ++ reason

def isFailure : Ending → Bool
  | success => false
  | failed _ => true

end Ending

/-- What a log line says. -/
inductive Marker where
  /-- A program starts at a depth, counted from 1. -/
  | invoke (program : Text) (depth : Nat)
  | ended (ending : Ending)
  deriving DecidableEq

namespace Marker

/-- The digits in brackets that end an invoke line. -/
def depthDigits? (t : Text) : Option Text :=
  let digits := t.takeWhile fun c => (Text.digit? c).isSome
  if !digits.isEmpty && t.drop digits.length == "]" then some digits else none

/-- The depth that digits write. More digits than can be read are a fault. -/
def depth (digits : Text) : Except Fault Nat :=
  if Decimal.maxDigits < digits.length then .error .badValue
  else .ok ((Text.digits? digits).getD 0)

/-- The marker of a line without blanks around it. After the word `Program` comes the program, up
to the next blank, and then what happens to it. -/
def ofTrimmed (t : Text) : Except Fault (Option Marker) :=
  match Text.after? "Program " t with
  | none => .ok none
  | some t =>
      let program := t.takeWhile fun c => !Text.isBlank c
      let t := t.drop program.length
      if program.isEmpty then .ok none
      else if t = " success" then .ok (some (.ended .success))
      else
        match Text.after? " invoke [" t, Text.after? " failed: " t with
        | some t, _ =>
            match depthDigits? t with
            | some digits => (depth digits).map fun d => some (.invoke program d)
            | none => .ok none
        | none, some reason =>
            .ok (if reason.contains '\n' then none else some (.ended (.failed reason)))
        | none, none => .ok none

def ofLine (line : Text) : Except Fault (Option Marker) :=
  ofTrimmed (Text.trim line)

end Marker

/-- A log as far as it can be read. -/
structure Log where
  /-- What each line says. -/
  markers : List (Option Marker) := []
  /-- Why the line behind them cannot be read, where there is one. -/
  fault : Option Fault := none

namespace Log

/-- The marker of an entry, which has to be a text. -/
def marker : Json → Except Fault (Option Marker)
  | .text line => Marker.ofLine line
  | _ => .error .noSuchMember

def ofEntries : List Json → Log
  | [] => {}
  | entry :: rest =>
      match marker entry with
      | .ok m =>
          let log := ofEntries rest
          { log with markers := m :: log.markers }
      | .error fault => { fault := some fault }

end Log

end SolanaTx
