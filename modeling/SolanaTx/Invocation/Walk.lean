import SolanaTx.Instruction
import SolanaTx.Invocation.Anomaly
import SolanaTx.Invocation.LogLine
import SolanaTx.Tree

/-!
# Walking the log

Each start at depth 1 takes up an instruction of the transaction, and each deeper
one the next called instruction of that. Depth alone decides where a call hangs:
under what runs at the depth above, or under the deepest that runs. An ended
invocation stays open until a later start shows that it is over.
-/

namespace SolanaTx

/-- An instruction in its place among the invocations. -/
structure Invocation where
  /-- How many were placed before it. -/
  id : Nat
  instruction : Instruction
  depth : Nat
  /-- The place of the instruction at the top. -/
  top : Nat
  /-- The height by which it was placed, where no log line did. -/
  placedBy : Option StackHeight := none
  ending : Option Ending := none

/-- The invocations under one instruction, and its calls that have no place yet. -/
structure Branch where
  tree : Tree Invocation
  pending : List InnerInstruction

namespace Branch

def top (b : Branch) : Nat :=
  b.tree.value.top

/-- Hangs a call under the node `depth` levels below the root, or under the deepest one. -/
def place (b : Branch) (id depth : Nat) (instruction : Instruction)
    (placedBy : Option StackHeight) : Tree Invocation :=
  let call : Invocation := ⟨id, instruction, b.tree.reach depth + 1, b.top, placedBy, none⟩
  b.tree.attach call depth

end Branch

/-- The calls that an instruction at the top has made, in the order reported. -/
def callsOf (inner : List InnerInstruction) (top : Nat) : List InnerInstruction :=
  inner.filter fun call => call.parent = top

/-- How far the log is walked. -/
structure Walk where
  /-- The instructions at the top that no start has passed, with their places. -/
  waiting : List (Nat × Instruction)
  /-- The branches that the log has started, latest first. -/
  branches : List Branch := []
  /-- How many invocations on the last branch of the latest tree are open, from its root on. -/
  openCount : Nat := 0
  nextId : Nat := 0
  warnings : List Warning := []
  sawInvoke : Bool := false

namespace Walk

def start (instructions : List Instruction) : Walk :=
  { waiting := instructions.zipIdx.map fun item => (item.2, item.1) }

def warn (w : Walk) (anomaly : Anomaly) (line : Option Nat) : Walk :=
  { w with warnings := w.warnings ++ [⟨anomaly, line⟩] }

/-- Notes a program that is not the one logged. -/
def checkProgram (w : Walk) (instruction : Instruction) (logged : Text) (line : Nat) : Walk :=
  if instruction.program.text = logged then w
  else w.warn (.otherProgram logged instruction.program) line

/-- The first waiting instruction of a program, else the next one, and those behind it. -/
def takeTop (logged : Text) (waiting : List (Nat × Instruction)) :
    Option ((Nat × Instruction) × List (Nat × Instruction)) :=
  match waiting.dropWhile fun item => item.2.program.text ≠ logged with
  | item :: rest => some (item, rest)
  | [] =>
      match waiting with
      | item :: rest => some (item, rest)
      | [] => none

/-- A start at the top. -/
def invokeTop (inner : List InnerInstruction) (logged : Text) (line : Nat) (w : Walk) : Walk :=
  match takeTop logged w.waiting with
  | none => { w with openCount := 0 }.warn .noTopLevelLeft line
  | some ((top, instruction), rest) =>
      let root : Invocation := { id := w.nextId, instruction, depth := 0, top }
      let w := { w with
        waiting := rest
        branches := ⟨.leaf root, callsOf inner top⟩ :: w.branches
        openCount := 1
        nextId := w.nextId + 1 }
      w.checkProgram instruction logged line

/-- A start at a depth of two or more. -/
def invokeCall (logged : Text) (depth line : Nat) (w : Walk) : Walk :=
  match w.branches with
  | [] => w.warn (.outsideTopLevel depth) line
  | branch :: others =>
      if w.openCount = 0 then w.warn (.outsideTopLevel depth) line
      else
        let w :=
          if w.openCount < depth - 1 then w.warn (.skipsLevels depth (w.openCount - 1)) line else w
        let count := min w.openCount (depth - 1)
        match branch.pending with
        | [] => { w with openCount := count }.warn (.noInnerLeft depth branch.top) line
        | call :: pending =>
            let tree := branch.place w.nextId (count - 1) call.instruction none
            let w := { w with
              branches := ⟨tree, pending⟩ :: others
              openCount := count + 1
              nextId := w.nextId + 1 }
            w.checkProgram call.instruction logged line

/-- The end of the deepest open invocation that has none yet. -/
def finish (ending : Ending) (w : Walk) : Walk :=
  let settle (v : Invocation) : Option Invocation :=
    if v.ending.isNone then some { v with ending := some ending } else none
  match w.branches with
  | [] => w
  | branch :: others =>
      match branch.tree.updateDeepest settle w.openCount with
      | some tree => { w with branches := { branch with tree } :: others }
      | none => w

def step (inner : List InnerInstruction) (w : Walk) (line : Nat) : Option Marker → Walk
  | none => w
  | some (.ended ending) => w.finish ending
  | some (.invoke logged depth) =>
      let w := { w with sawInvoke := true }
      if depth ≤ 1 then w.invokeTop inner logged line else w.invokeCall logged depth line

/-- Walks lines, of which the first has the number `line`. -/
def lines (inner : List InnerInstruction) : Walk → Nat → List (Option Marker) → Walk
  | w, _, [] => w
  | w, line, marker :: rest => lines inner (w.step inner line marker) (line + 1) rest

/-- The invocations that have a place. -/
def placed (w : Walk) : List Invocation :=
  w.branches.flatMap fun branch => branch.tree.preorder

end Walk

/-- The walk of a log, given by what each line says. -/
def walkLog (instructions : List Instruction) (inner : List InnerInstruction)
    (markers : List (Option Marker)) : Walk :=
  (Walk.start instructions).lines inner 0 markers

end SolanaTx
