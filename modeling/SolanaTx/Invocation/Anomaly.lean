import SolanaTx.Decimal
import SolanaTx.Pubkey

/-!
# Anomalies of logs

Where the log and the reported instructions do not fit together, the forest is
built all the same and the anomaly is noted.
-/

namespace SolanaTx

/-- How a log fails to fit the instructions. Places of instructions are counted from 0. -/
inductive Anomaly where
  /-- An invocation at the top, and no instruction is left for it. -/
  | noTopLevelLeft
  /-- The log names another program than the instruction. -/
  | otherProgram (logged : Text) (actual : Pubkey)
  /-- A call where nothing is running. -/
  | outsideTopLevel (depth : Nat)
  /-- A call more than one level below what is running, which is at depth `under`. -/
  | skipsLevels (depth under : Nat)
  /-- A call, and no called instruction is left for it. -/
  | noInnerLeft (depth top : Nat)
  /-- An instruction that the log does not start. -/
  | notLogged (top : Nat)
  /-- Called instructions that the log does not start. -/
  | callsNotLogged (count top : Nat)
  /-- Called instructions of an instruction that there is not. -/
  | missingParent (parent : Int)
  deriving DecidableEq

def Anomaly.message : Anomaly → Text
  | noTopLevelLeft => "invoke [1] with no remaining top-level instruction"
  | otherProgram logged actual =>
      "log invokes " ++ logged ++ " but the next instruction targets " ++ actual.text
  | outsideTopLevel depth =>
      "invoke [" ++ Decimal.ofNat depth ++ "] outside any top-level instruction"
  | skipsLevels depth under =>
      "invoke [" ++ Decimal.ofNat depth ++ "] skips levels; attached under depth " ++
        Decimal.ofNat under
  | noInnerLeft depth top =>
      "invoke [" ++ Decimal.ofNat depth ++ "] has no remaining inner instruction under #" ++
        Decimal.ofNat (top + 1)
  | notLogged top => "instruction #" ++ Decimal.ofNat (top + 1) ++ " has no invoke entry in the log"
  | callsNotLogged count top =>
      Decimal.ofNat count ++ " inner instruction(s) of #" ++ Decimal.ofNat (top + 1) ++
        " missing from the log; placed by stack height"
  | missingParent parent =>
      "inner instructions reference missing top-level instruction #" ++ Decimal.ofInt (parent + 1)

/-- Whether the numbers of an anomaly can be written. Depths are read from numerals, and places of
instructions are small. -/
def Anomaly.isWritable : Anomaly → Bool
  | missingParent parent => Decimal.isWritable (parent + 1)
  | _ => true

/-- An anomaly and the log line where it showed, counted from 0. -/
structure Warning where
  anomaly : Anomaly
  line : Option Nat := none
  deriving DecidableEq

def Warning.text (w : Warning) : Text :=
  match w.line with
  | some line => "log line " ++ Decimal.ofNat (line + 1) ++ ": " ++ w.anomaly.message
  | none => w.anomaly.message

end SolanaTx
