import SolanaTx.Invocation.Walk
import SolanaTx.Program.Builtin

/-!
# Forests of invocations

One tree for every instruction of a transaction, in their order. What the log did
not place is placed by stack height. Decoding comes last and changes no tree.
-/

namespace SolanaTx

/-- Trees of invocations, and what was odd about the log. -/
structure Forest (α : Type) where
  trees : List (Tree α)
  warnings : List Warning

namespace Forest

/-- All nodes, each before its children, and trees in their order. -/
def walk {α : Type} (f : Forest α) : List α :=
  Tree.preorderAll f.trees

/-- All subtrees, in the order of their roots. -/
def subtrees {α : Type} (f : Forest α) : List (Tree α) :=
  Tree.subtreesAll f.trees

end Forest

/-- The part of a forest that is complete. -/
structure Completion where
  trees : List (Tree Invocation) := []
  nextId : Nat
  warnings : List Warning

namespace Completion

/-- Places calls by their heights, one after the other. -/
def placeCalls (tree : Tree Invocation) (nextId : Nat) :
    List InnerInstruction → Tree Invocation × Nat
  | [] => (tree, nextId)
  | call :: rest =>
      let depth := call.height.callerDepth (nextId + 1)
      let tree := Branch.place ⟨tree, rest⟩ nextId depth call.instruction (some call.height)
      placeCalls tree (nextId + 1) rest

/-- Adds the tree of one instruction: the branch that the log has started, or a new one. -/
def addTop (w : Walk) (inner : List InnerInstruction) (c : Completion)
    (instruction : Instruction) (top : Nat) : Completion :=
  match w.branches.find? (·.top = top) with
  | some branch =>
      let warnings :=
        if w.sawInvoke && !branch.pending.isEmpty then
          [⟨.callsNotLogged branch.pending.length top, none⟩]
        else []
      let (tree, nextId) := placeCalls branch.tree c.nextId branch.pending
      ⟨c.trees ++ [tree], nextId, c.warnings ++ warnings⟩
  | none =>
      let warnings := if w.sawInvoke then [⟨.notLogged top, none⟩] else []
      let root : Invocation := { id := c.nextId, instruction, depth := 0, top }
      let (tree, nextId) := placeCalls (.leaf root) (c.nextId + 1) (callsOf inner top)
      ⟨c.trees ++ [tree], nextId, c.warnings ++ warnings⟩

end Completion

/-- The parents of calls that name no instruction, in rising order. -/
def missingParents (count : Nat) (inner : List InnerInstruction) : List Int :=
  let parents := (inner.map (·.parent)).filter fun p => p < 0 || (count : Int) ≤ p
  (parents.mergeSort fun a b => decide (a ≤ b)).eraseDups

/-- The forest of a transaction. It has a tree for each instruction, whatever the log says. -/
def buildForest (instructions : List Instruction) (inner : List InnerInstruction)
    (markers : List (Option Marker)) : Forest Invocation :=
  let w := walkLog instructions inner markers
  let c := instructions.zipIdx.foldl (fun c item => c.addTop w inner item.1 item.2)
    ({ nextId := w.nextId, warnings := w.warnings } : Completion)
  let orphans := (missingParents instructions.length inner).map fun p => ⟨.missingParent p, none⟩
  ⟨c.trees, c.warnings ++ orphans⟩

/-- An invocation with all that a report shows of it. -/
structure Node where
  /-- The numbers of the tree, of the child in it, and so on, each counted from 1. -/
  path : List Nat
  invocation : Invocation
  label : Text
  /-- What the payload says; none where that was left out. -/
  outcome : Option Outcome

namespace Node

def instruction (n : Node) : Instruction := n.invocation.instruction

def decoded? (n : Node) : Option DecodedInstruction :=
  match n.outcome with
  | some (.ok d) => some d
  | _ => none

def error? (n : Node) : Option DecodeError :=
  match n.outcome with
  | some (.error e) => some e
  | _ => none

def hasFailed (n : Node) : Bool :=
  n.invocation.ending.any Ending.isFailure

def pathText (n : Node) : Text :=
  Text.join "." (n.path.map Decimal.ofNat)

end Node

/-- Decodes one invocation. An unusable height is a fault of the call that it should place. -/
def Invocation.decode (r : Registry) (v : Invocation) : Except Fault Outcome :=
  if v.placedBy.all StackHeight.isUsable then
    r.decode v.instruction.program v.instruction.data v.instruction.accounts.length
  else .error .wrongKind

def Invocation.node (r : Registry) (path : List Nat) (v : Invocation) : Except Fault Node := do
  let outcome ← v.decode r
  pure ⟨path, v, programLabel v.instruction.program (some r), some outcome⟩

/-- Checks that invocations can be decoded, in the order of their ids. -/
def checkDecoding (r : Registry) (vs : List Invocation) : Except Fault Unit :=
  (vs.mergeSort fun a b => decide (a.id ≤ b.id)).forM fun v => (v.decode r).map fun _ => ()

/-- Numbers and decodes the nodes of a forest. Of several faults that of the first node placed is
given. -/
def Forest.decode (r : Registry) (f : Forest Invocation) : Except Fault (Forest Node) := do
  checkDecoding r f.walk
  if !f.warnings.all (·.anomaly.isWritable) then throw .badValue
  let trees ← Tree.mapExceptAll (fun item => item.2.node r item.1) (Tree.numberedFrom [] 1 f.trees)
  pure ⟨trees, f.warnings⟩

/-- The forest of a transaction with its nodes decoded. A line that cannot be read is a fault, and
one in a node that the log has placed before comes first. -/
def decodeForest (r : Registry) (instructions : List Instruction) (inner : List InnerInstruction)
    (log : Log) : Except Fault (Forest Node) :=
  match log.fault with
  | none => (buildForest instructions inner log.markers).decode r
  | some fault => do
      checkDecoding r (walkLog instructions inner log.markers).placed
      throw fault

end SolanaTx
