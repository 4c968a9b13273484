import SolanaTx.Account.Delta
import SolanaTx.Invocation.Forest

/-!
# Transactions

What the runtime reports of a transaction, and the transaction decoded.
-/

namespace SolanaTx

inductive TransactionStatus where
  | success
  | failed (error : Option Text)

namespace TransactionStatus

def isSuccess : TransactionStatus → Bool
  | success => true
  | failed _ => false

def error? : TransactionStatus → Option Text
  | success => none
  | failed error => error

def text : TransactionStatus → Text
  | success => "Success"
  | failed none => "Failed"
  | failed (some error) => if error.isEmpty then "Failed" else "Failed: " ++ error

end TransactionStatus

/-- The report of a transaction by the runtime. Its signature and the entries of its log come from
documents and need not be texts. -/
structure Transaction where
  signature : Json
  instructions : List Instruction := []
  inner : List InnerInstruction := []
  logs : List Json := []
  status : TransactionStatus := .success
  slot : Int := 0
  fee : Int := 0
  computeUsed : Int := 0
  computeLimit : Int := 200000

/-- A transaction with its forest, and with deltas where snapshots were taken. -/
structure DecodedTransaction where
  source : Transaction
  forest : Forest Node
  deltas : Option Deltas

/-- Builds the forest of a transaction and decodes its nodes. Deltas need the snapshots of both
sides. -/
def Transaction.decode (t : Transaction) (r : Registry) (pre post : Option Snapshots) :
    Except Fault DecodedTransaction := do
  let forest ← decodeForest r t.instructions t.inner (.ofEntries t.logs)
  let deltas := pre.bind fun pre => post.map fun post => pre.diff post
  pure ⟨t, forest, deltas⟩

namespace DecodedTransaction

mutual

/-- An invocation in the summary. What was not decoded has no name and no fields, and a node without
calls no list of them. -/
def nodeSummary : Tree Node → Json
  | .node n calls =>
      let program : Json.Fields := [
        ("program_id", .text n.instruction.program.text), ("program_name", .text n.label)]
      let name : Json.Fields := match n.decoded? with
        | some d => [("instruction_name", .text d.name)]
        | none => []
      let accounts : Json.Fields := [("accounts", .list (n.instruction.accounts.map fun a =>
        .object [("pubkey", .text a.pubkey.text), ("is_signer", .bool a.isSigner),
          ("is_writable", .bool a.isWritable)]))]
      let fields : Json.Fields := match n.decoded? with
        | some d => [("decoded_fields", .list (d.fields.map fun f =>
            .object [("name", f.name), ("value", .text f.value)]))]
        | none => []
      let inner : Json.Fields :=
        if calls.isEmpty then [] else [("inner_instructions", .list (nodeSummaries calls))]
      .object (program ++ name ++ accounts ++ fields ++ inner)

def nodeSummaries : List (Tree Node) → List Json
  | [] => []
  | t :: ts => nodeSummary t :: nodeSummaries ts

end

/-- How many levels of calls a summary can have. Each takes two of a thousand levels of calls, of
which a dozen are taken by a caller that asks for a summary near the top; from deeper down there are
fewer. -/
def maxSummaryHeight : Nat := 494

/-- A transaction as a document to compare with. -/
def summary (t : DecodedTransaction) : Except Fault Json :=
  if maxSummaryHeight < Tree.heightAll t.forest.trees then .error .endless
  else .ok (.object [
    ("signature", t.source.signature),
    ("status", .text t.source.status.text),
    ("fee", .int t.source.fee),
    ("compute_used", .int t.source.computeUsed),
    ("instructions", .list (nodeSummaries t.forest.trees))])

end DecodedTransaction

end SolanaTx
