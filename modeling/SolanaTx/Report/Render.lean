import SolanaTx.Decimal.Written
import SolanaTx.Report.Amount
import SolanaTx.Report.Table
import SolanaTx.Settings
import SolanaTx.Transaction.Basic

/-!
# Reports of transactions

A report is one bordered block: the transaction, its invocations as a drawn tree,
the warnings, and the log. A full report has tables of the accounts and fields of
each invocation.
-/

namespace SolanaTx.Report

/-- What reports are made by: settings, and labels of programs. -/
structure Style where
  settings : Settings := {}
  labels : PubkeyMap Text := {}

namespace Style

/-- The label of an account, of which an empty one does not count. -/
def label? (style : Style) (key : Pubkey) : Option Text :=
  match style.labels.get? key with
  | some label => if label.isEmpty then key.knownLabel? else some label
  | none => key.knownLabel?

/-- Transactions that fail are shown in full. -/
def level (style : Style) (t : DecodedTransaction) (asked : Option Verbosity) : Verbosity :=
  if t.source.status.isSuccess then asked.getD style.settings.verbosity else .full

end Style

def flags (a : AccountMeta) : Text :=
  [if a.isSigner then 'S' else '-', if a.isWritable then 'W' else '-']

/-- The name of a payload, where it was decoded. -/
def payloadName (n : Node) : Text :=
  match n.outcome with
  | some (.ok d) => d.name
  | some (.error e) => "<undecoded> (" ++ e.describe ++ ")"
  | none => "<undecoded>"

/-- The mark of an invocation that failed. -/
def failureMark (n : Node) : Text :=
  match n.invocation.ending with
  | some (.failed reason) => "  ✗ " ++ (Ending.failed reason).text
  | _ => ""

/-- The line of a node in the tree, without its lead. -/
def title (n : Node) : Text :=
  "#" ++ n.pathText ++ " " ++ n.label ++ " › " ++ payloadName n ++ failureMark n

/-! ## The body of a node -/

/-- The name of an account: that of the decoder, else a label. -/
def accountName (style : Style) (n : Node) (i : Nat) (key : Pubkey) : Json :=
  match (n.decoded?.map (·.accounts)).bind (·[i]?) with
  | some name => name
  | none => .text ((style.label? key).getD "-")

/-- The owner of an account by its label, else by its key. -/
def ownerName (style : Style) : Option Pubkey → Text
  | some owner => (style.label? owner).getD owner.text
  | none => "-"

/-- The data length of a snapshot, where it is known. -/
def lengthText : Option Int → Except Fault Text
  | some length => Decimal.written Decimal.grouped length
  | none => .ok "-"

/-- The state of an account and its change. -/
def stateCells (style : Style) : Option AccountDelta → Except Fault (List Text)
  | none => .ok ["-", "-", "-", "-"]
  | some d => do
      let length ← lengthText d.current.dataLength
      let lamports ← Decimal.written Decimal.grouped d.lamports
      pure [ownerName style d.current.owner, length, lamports, ← d.changeText]

/-- The cells of the state of an account, in a report with deltas. -/
def states (style : Style) (deltas : Option Deltas) (key : Pubkey) : Except Fault (List Text) :=
  match deltas with
  | some deltas => stateCells style (deltas.get? key)
  | none => .ok []

/-- The row of an account of a node. -/
def accountRow (style : Style) (n : Node) (deltas : Option Deltas) (item : AccountMeta × Nat) :
    Except Fault (List Json) :=
  (states style deltas item.1.pubkey).map fun state =>
    [.text (Decimal.ofNat item.2), .text item.1.pubkey.text, .text (flags item.1),
      accountName style n item.2 item.1.pubkey] ++ state.map Json.text

def accountHeaders : Option Deltas → List Text
  | some _ => ["#", "Pubkey", "Flags", "Name", "Owner", "Data Len", "Lamports", "Change"]
  | none => ["#", "Pubkey", "Flags", "Name"]

def accountAlignments : Option Deltas → List Alignment
  | some _ => [.right, .left, .left, .left, .left, .right, .right, .right]
  | none => [.right, .left, .left, .left]

/-- The table of the accounts of a node, with their states where deltas are known. -/
def accountTable (style : Style) (n : Node) (deltas : Option Deltas) :
    Except Fault (List Text) := do
  let rows ← n.instruction.accounts.zipIdx.mapM (accountRow style n deltas)
  Table.ofCells ((accountHeaders deltas).map .text) rows (accountAlignments deltas)

def fieldTable (fields : List DecodedField) : Except Fault (List Text) :=
  Table.ofCells ["Field", "Type", "Value"]
    (fields.map fun f => [f.name, .text f.label, .text f.value]) []

/-- How many bytes a line of raw data shows. -/
def bytesPerLine : Nat := 32

/-- The bytes of a payload that are shown. -/
def shownBytes (limit : Int) (data : Bytes) : Bytes :=
  if limit = 0 then data else data.before limit

/-- The payload of a node that was not decoded. -/
def rawData (style : Style) (n : Node) : List Text :=
  let data := n.instruction.data
  let reason : Text := (n.error?.map DecodeError.describe).getD "not decoded"
  let shown := shownBytes style.settings.maxDataBytes data
  let lines := Bytes.rows bytesPerLine ((shown.length + bytesPerLine - 1) / bytesPerLine) shown
  let hidden := data.length - shown.length
  let head := "Raw data (" ++ Decimal.ofNat data.length ++ " bytes, " ++ reason ++ ")"
  let tail := if hidden = 0 then [] else ["  … " ++ Decimal.ofNat hidden ++ " more bytes"]
  head :: lines.map (fun row => Text.ofString "  " ++ row.toHex) ++ tail

/-- The accounts of a node, where it has any. -/
def accountLines (style : Style) (deltas : Option Deltas) (n : Node) : Except Fault (List Text) :=
  let count := n.instruction.accounts.length
  if count = 0 then .ok []
  else (accountTable style n deltas).map (("Accounts (" ++ Decimal.ofNat count ++ ")") :: ·)

/-- What a payload says, or else its bytes. -/
def payloadLines (style : Style) (n : Node) : Except Fault (List Text) :=
  match n.decoded? with
  | some d =>
      if d.fields.isEmpty then .ok []
      else (fieldTable d.fields).map (Text.ofString "Fields" :: ·)
  | none => .ok (rawData style n)

/-- What a full report shows below the title of a node. -/
def body (style : Style) (deltas : Option Deltas) (n : Node) : Except Fault (List Text) := do
  let accounts ← accountLines style deltas n
  let payload ← payloadLines style n
  pure (accounts ++ payload)

/-! ## The drawn tree -/

def branchMark : Text := "├─ "
def lastBranchMark : Text := "└─ "
def pipe : Text := "│  "
def blank : Text := "   "

mutual

/-- The lines of a tree on a number of levels: the title after `lead`, then the body and the calls
below `below`. Without `body` there are titles only. -/
def treeLines (body : Option (Node → Except Fault (List Text))) :
    Nat → Text → Text → Tree Node → Except Fault (List Text)
  | 0, _, _, _ => .error .endless
  | levels + 1, lead, below, .node n calls => do
      let mark := below ++ if calls.isEmpty then blank else pipe
      let details ← match body with
        | some body => (body n).map fun lines => lines.map (mark ++ ·)
        | none => pure []
      pure ((lead ++ title n) :: details ++ (← callLines body levels below calls))

/-- The lines of calls, the last of which closes the branch. -/
def callLines (body : Option (Node → Except Fault (List Text))) (levels : Nat) (below : Text) :
    List (Tree Node) → Except Fault (List Text)
  | [] => .ok []
  | t :: rest => do
      let (mark, column) := if rest.isEmpty then (lastBranchMark, blank) else (branchMark, pipe)
      let lines ← treeLines body levels (below ++ mark) (below ++ column) t
      pure (lines ++ (← callLines body levels below rest))

end

/-- How many levels of calls there are to draw. Of a thousand levels a dozen are taken by a caller
that asks for a report near the top; from deeper down there are fewer. The levels that the tables of
a node take are left out. -/
def maxHeight : Nat := 988

/-- The lines of all trees; in a full report an empty line parts them. -/
def forestLines (body : Option (Node → Except Fault (List Text))) (trees : List (Tree Node)) :
    Except Fault (List Text) := do
  let parts ← trees.mapM (treeLines body maxHeight "" "")
  if body.isSome then pure (List.intercalate [[]] parts) else pure parts.flatten

/-! ## The block -/

/-- What a report calls its transaction. -/
def reportName : Option Int → Except Fault Text
  | some number => (Decimal.written Decimal.ofInt number).map (Text.ofString "Transaction #" ++ ·)
  | none => .ok "Transaction"

def header (t : DecodedTransaction) (number : Option Int) : Except Fault (List Text) := do
  let name ← reportName number
  let slot ← Decimal.written Decimal.ofInt t.source.slot
  let fee ← Amount.solText t.source.fee Amount.summaryPlaces
  let used ← Decimal.written Decimal.grouped t.source.computeUsed
  let limit ← Decimal.written Decimal.grouped t.source.computeLimit
  pure [
    name ++ " │ " ++ t.source.signature.plain ++ " │ Slot " ++ slot ++ " │ " ++
      t.source.status.text,
    "Fee: " ++ fee ++ " SOL │ Compute: " ++ used ++ " / " ++ limit ++ " CU"]

/-- The length of the lines that part sections. -/
def ruleWidth : Nat := 100

def rule (corner : Text) : Text :=
  corner ++ List.replicate ruleWidth (CodePoint.char '─')

/-- A line inside the border, without blanks at its end. -/
def borderedLine (line : Text) : Text :=
  Text.trimEnd ("│ " ++ line)

/-- Sections inside one border. -/
def block (sections : List (List Text)) : List Text :=
  let parts := sections.map fun lines => lines.map borderedLine
  rule "┌" :: List.intercalate [rule "├"] parts ++ [rule "└"]

/-- The section of the warnings, where there are any. -/
def warningSection (t : DecodedTransaction) : List (List Text) :=
  if t.forest.warnings.isEmpty then []
  else [Text.ofString "Warnings" :: t.forest.warnings.map fun w => "⚠ " ++ w.text]

/-- The section of the log as it was given. -/
def logSection (style : Style) (t : DecodedTransaction) (full : Bool) : List (List Text) :=
  if full && style.settings.showRawLogs && !t.source.logs.isEmpty then
    [("Program logs (" ++ Decimal.ofNat t.source.logs.length ++ ")") ::
      t.source.logs.map Json.plain]
  else []

/-- The sections of a report. -/
def sections (style : Style) (t : DecodedTransaction) (number : Option Int) (full : Bool)
    (deltas : Option Deltas) : Except Fault (List (List Text)) := do
  let head ← header t number
  let tree ← forestLines (if full then some (body style deltas) else none) t.forest.trees
  let count := "Instructions (" ++ Decimal.ofNat t.forest.trees.length ++ ")"
  pure ([head, count :: tree] ++ warningSection t ++ logSection style t full)

/-- The text of a report, which is empty where nothing is to be shown. Deltas given here go before
those of the transaction. -/
def render (style : Style) (t : DecodedTransaction) (number : Option Int)
    (asked : Option Verbosity) (deltas : Option Deltas) : Except Fault Text :=
  match style.level t asked with
  | .quiet => .ok []
  | level => do
      let deltas := deltas <|> t.deltas
      let sections ← sections style t number (level == .full) deltas
      pure (Text.join "\n" (block sections) ++ "\n")

end SolanaTx.Report
