import SolanaTx.LogEvent
import SolanaTx.Main
import SolanaTx.Transaction.Session
import SolanaTx.Proofs.Invocation.Conservation
import SolanaTx.Proofs.Invocation.ProgramLog
import SolanaTx.Proofs.Bytes.Base58
import SolanaTx.Proofs.Invocation.OpenBranch
import SolanaTx.Proofs.Invocation.Runtime
import SolanaTx.Proofs.Invocation.TopLevel
import SolanaTx.Proofs.Invocation.Reconstruction
import SolanaTx.Proofs.Invocation.Outcome
import SolanaTx.Proofs.Invocation.Truncation
import SolanaTx.Proofs.Invocation.ProperForest
import SolanaTx.Proofs.Invocation.Anomalies
import SolanaTx.Proofs.Program.RoundTrip
import SolanaTx.Proofs.Program.Truncation
import SolanaTx.Proofs.Program.Classification
import SolanaTx.Proofs.Idl.Decoding
import SolanaTx.Proofs.Program.Construction
import SolanaTx.Proofs.Idl.Insertion
import SolanaTx.Proofs.Rpc.Recovery
import SolanaTx.Proofs.Rpc.Faults
import SolanaTx.Proofs.Program.Registration
import SolanaTx.Proofs.Report.Border
import SolanaTx.Proofs.Transaction.Views
import SolanaTx.Proofs.Transaction.Logging
import SolanaTx.Proofs.Account.Deltas
import SolanaTx.Proofs.CommandLine
import SolanaTx.Proofs.Rpc.Places
import SolanaTx.Proofs.Program.Offsets
import SolanaTx.Proofs.Program.Shortage
import SolanaTx.Proofs.Transaction.ComputeLimit
import SolanaTx.Proofs.Report.Connectors
import SolanaTx.Proofs.Invocation.Independence
import SolanaTx.Proofs.Rpc.Payload
import SolanaTx.Proofs.Account.BalanceDeltas
import SolanaTx.Proofs.Naming
import SolanaTx.Proofs.Transaction.Coverage
import SolanaTx.Proofs.Report.Grid
import SolanaTx.Proofs.Decimal.FixedPoint
import SolanaTx.Proofs.Report.Amounts
import SolanaTx.Proofs.Account.ChangeText
import SolanaTx.Proofs.Layout.Advance
import SolanaTx.Proofs.Report.RawData
import SolanaTx.Proofs.Program.Fields
