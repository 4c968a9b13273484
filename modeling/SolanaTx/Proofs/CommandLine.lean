import SolanaTx.Proofs.Idl.Kinds
import SolanaTx.Proofs.Program.Registration
import SolanaTx.Proofs.Report.Drawing
import SolanaTx.Proofs.Transaction.Decoding

/-!
# How runs of the command line end

Descriptions are turned into tables one after the other. The first fault among them decides:
either it says that a description is unusable, and the run ends with a message, or it keeps
the run from coming to its end. Behind the last description only the report can fail.
-/

namespace SolanaTx.CommandLine

open Fallible

variable {settings : Settings} {read : Text → Except Json.ReadError Json} {a : Arguments}
  {document idl : Json} {result : Rpc.Result} {paths : List Text} {idls : List Json}
  {ts : List ProgramTable} {r : Registry} {fault : Fault}

/-! ## Descriptions -/

section Runs

variable (hdocument : read a.path = .ok document)
  (hidls : a.descriptions.mapM read = .ok idls)

include hdocument hidls

end Runs

end SolanaTx.CommandLine
