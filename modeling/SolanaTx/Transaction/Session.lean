import SolanaTx.Report.Render

/-!
# Logging transactions

A session decodes transactions one after the other, numbers them from 1 and
passes their reports on. Labels are those of the decoders at its start.
-/

namespace SolanaTx

structure Session where
  style : Report.Style
  registry : Registry
  /-- Whether there is a receiver to pass reports on to. -/
  hasReceiver : Bool := true
  /-- How many transactions were logged. -/
  count : Nat := 0
  /-- The reports that were passed on, in their order. -/
  passedOn : List Text := []

namespace Session

def start (settings : Settings) (registry : Registry) (hasReceiver : Bool := true) : Session :=
  { style := ⟨settings, registry.labels⟩, registry, hasReceiver }

def register (s : Session) (d : Decoder) : Session :=
  { s with registry := s.registry.register d }

/-- Whether a report is passed on: if the transaction failed, or if all are asked for. An empty one
never is. -/
def passesOn (s : Session) (t : Transaction) (text : Text) : Bool :=
  s.hasReceiver && !text.isEmpty && (s.style.settings.logEvents || !t.status.isSuccess)

/-- The report of a transaction with a number. -/
def report (s : Session) (number : Nat) (t : Transaction) (pre post : Option Snapshots) :
    Except Fault Text := do
  Report.render s.style (← t.decode s.registry pre post) (some (number : Int)) none none

/-- Takes the next transaction: its report, and the session behind it. A transaction counts also
where its report cannot be had, and then nothing is passed on. -/
def submit (s : Session) (t : Transaction) (pre post : Option Snapshots) :
    Except Fault Text × Session :=
  let number := s.count + 1
  let report := s.report number t pre post
  let passedOn := match report with
    | .ok text => if s.passesOn t text then s.passedOn ++ [text] else s.passedOn
    | .error _ => s.passedOn
  (report, { s with count := number, passedOn })

/-- Logs the next transaction, and gives its report. -/
def log (s : Session) (t : Transaction) (pre post : Option Snapshots) :
    Except Fault (Text × Session) :=
  let (report, after) := s.submit t pre post
  report.map fun text => (text, after)

end Session

end SolanaTx
