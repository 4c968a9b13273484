import SolanaTx.Proofs.Invocation.LineNumbers
import SolanaTx.Proofs.Invocation.Wording

/-!
# Logs of the runtime

For each invocation the runtime logs its start at a depth, then what its callees log,
and then its end. Programs write lines of their own in between. Such a log is read to
its end, and it says just the starts and the ends.
-/

namespace SolanaTx

open SolanaTx.Tree

/-- Whether the reason of a failure stands on one line and has no blanks at its end. -/
def Ending.IsLoggable : Ending → Prop
  | .success => True
  | .failed reason => reason ≠ [] ∧ CodePoint.char '\n' ∉ reason ∧ Text.trimEnd reason = reason

namespace Runtime

/-- What a log tells of an invocation. -/
structure Entry where
  program : Text
  ending : Ending

/-- The line that ends an invocation. -/
def Entry.endLine (e : Entry) : Text :=
  match e.ending with
  | .success => Marker.successLine e.program
  | .failed reason => Marker.failedLine e.program reason

def Entry.IsLoggable (e : Entry) : Prop :=
  Text.IsWord e.program ∧ e.ending.IsLoggable

mutual

/-- The log of an invocation with `depth` callers. -/
def log (depth : Nat) : Tree Entry → List Text
  | .node e callees =>
      Marker.invokeLine e.program (Decimal.ofNat (depth + 1)) ::
        (logAll (depth + 1) callees ++ [e.endLine])

/-- The log of invocations, one after the other. -/
def logAll (depth : Nat) : List (Tree Entry) → List Text
  | [] => []
  | t :: ts => log depth t ++ logAll depth ts

end

mutual

/-- What the log of an invocation says. -/
def markers (depth : Nat) : Tree Entry → List Marker
  | .node e callees =>
      .invoke e.program (depth + 1) :: (markersAll (depth + 1) callees ++ [.ended e.ending])

def markersAll (depth : Nat) : List (Tree Entry) → List Marker
  | [] => []
  | t :: ts => markers depth t ++ markersAll depth ts

end

/-! ## The lines are read -/

/-- Whether a line is read as a marker. -/
abbrev Says (line : Text) (m : Marker) : Prop :=
  Marker.ofLine line = .ok (some m)

theorem says_invokeLine {program : Text} (hprogram : Text.IsWord program) {depth : Nat}
    (hdepth : (Decimal.ofNat depth).length ≤ Decimal.maxDigits) :
    Says (Marker.invokeLine program (Decimal.ofNat depth)) (.invoke program depth) := by
  rw [Says, Marker.ofLine, Marker.trim_invokeLine,
    Marker.ofTrimmed_invokeLine hprogram (Text.isNumeral_ofNat depth), Marker.depth,
    if_neg (Nat.not_lt.mpr hdepth), Text.digits?_ofNat]
  rfl

theorem says_endLine {e : Entry} (he : e.IsLoggable) : Says e.endLine (.ended e.ending) := by
  obtain ⟨program, ending⟩ := e
  obtain ⟨hprogram, hending⟩ := he
  cases ending with
  | success =>
      have htrim : Text.trim (Marker.successLine program) = Marker.successLine program := by
        have hline : Marker.successLine program =
            (("Program " : Text) ++ (program ++ (" succes" : Text))) ++ [CodePoint.char 's'] := by
          simp only [Marker.successLine, List.append_assoc]
          rfl
        rw [Marker.successLine, Marker.trim_program, ← Marker.successLine, hline,
          Text.trimEnd_concat _ (by decide)]
      rw [Says, Entry.endLine, Marker.ofLine, htrim, Marker.ofTrimmed_successLine hprogram]
  | failed reason =>
      obtain ⟨hne, hline, hend⟩ := hending
      have htrim : Text.trim (Marker.failedLine program reason) =
          Marker.failedLine program reason := by
        have hkeep : ∀ t : Text, Text.trimEnd (t ++ reason) = t ++ reason := by
          intro t
          rw [Text.trimEnd_append, hend, if_neg hne]
        rw [Marker.failedLine, Marker.trim_program]
        simp only [← List.append_assoc]
        exact hkeep _
      rw [Says, Entry.endLine, Marker.ofLine, htrim, Marker.ofTrimmed_failedLine hprogram hline]

mutual

theorem forall₂_says_log (depth : Nat) (t : Tree Entry)
    (hentries : ∀ e ∈ t.preorder, e.IsLoggable)
    (hdepth : (Decimal.ofNat (depth + t.height)).length ≤ Decimal.maxDigits) :
    List.Forall₂ Says (log depth t) (markers depth t) := by
  obtain ⟨e, callees⟩ := t
  rw [preorder, List.forall_mem_cons] at hentries
  have hheight : depth + (node e callees).height = depth + 1 + heightAll callees := by
    rw [height]
    omega
  rw [hheight] at hdepth
  have hself : (Decimal.ofNat (depth + 1)).length ≤ Decimal.maxDigits :=
    Nat.le_trans (Text.length_ofNat_mono (by omega)) hdepth
  have hcallees := forall₂_says_logAll (depth + 1) callees hentries.2 hdepth
  have hend : List.Forall₂ Says [e.endLine] [.ended e.ending] :=
    .cons (says_endLine hentries.1) .nil
  rw [log, markers]
  exact .cons (says_invokeLine hentries.1.1 hself) (List.rel_append hcallees hend)

theorem forall₂_says_logAll (depth : Nat) (ts : List (Tree Entry))
    (hentries : ∀ e ∈ preorderAll ts, e.IsLoggable)
    (hdepth : (Decimal.ofNat (depth + heightAll ts)).length ≤ Decimal.maxDigits) :
    List.Forall₂ Says (logAll depth ts) (markersAll depth ts) := by
  cases ts with
  | nil => exact .nil
  | cons t rest =>
      rw [preorderAll, List.forall_mem_append] at hentries
      have hfirst : depth + t.height ≤ depth + heightAll (t :: rest) := by
        rw [heightAll]
        omega
      have hrest : depth + heightAll rest ≤ depth + heightAll (t :: rest) := by
        rw [heightAll]
        omega
      rw [logAll, markersAll]
      exact List.rel_append
        (forall₂_says_log depth t hentries.1
          (Nat.le_trans (Text.length_ofNat_mono hfirst) hdepth))
        (forall₂_says_logAll depth rest hentries.2
          (Nat.le_trans (Text.length_ofNat_mono hrest) hdepth))

end

/-! ## Lines of programs in between -/

/-- Whether a line is read and says nothing. -/
def isSilent (line : Text) : Bool :=
  match Marker.ofLine line with
  | .ok none => true
  | _ => false

theorem isSilent_iff {line : Text} :
    isSilent line ↔ ¬ Marker.Speaks (Text.trim line) := by
  rw [← Marker.ofTrimmed_eq_ok_none_iff, ← Marker.ofLine, isSilent]
  split
  · next h => simp [h]
  · next h => simpa using h

/-- Whether lines are the log of the runtime, with any silent lines in between. The depths are such
as can be read, which leaves out only logs of more lines than `10 ^ Decimal.maxDigits`. -/
structure Logs (lines : List Text) (trees : List (Tree Entry)) : Prop where
  lines : lines.filter (fun line => !isSilent line) = logAll 0 trees
  entries : ∀ e ∈ preorderAll trees, e.IsLoggable
  depths : (Decimal.ofNat (heightAll trees)).length ≤ Decimal.maxDigits

theorem exists_markers_of_filter {lines spoken : List Text} {ms : List Marker}
    (hlines : lines.filter (fun line => !isSilent line) = spoken)
    (hspoken : List.Forall₂ Says spoken ms) :
    ∃ all, List.Forall₂ (fun line marker => Marker.ofLine line = .ok marker) lines all ∧
      all.filter (·.isSome) = ms.map some := by
  induction lines generalizing spoken ms with
  | nil =>
      subst hlines
      cases hspoken
      exact ⟨[], .nil, rfl⟩
  | cons line rest ih =>
      cases hsilent : isSilent line with
      | true =>
          -- the line is not among those spoken, and its marker is left out in the same way
          rw [List.filter_cons_of_neg (by simp [hsilent])] at hlines
          obtain ⟨all, hall, hfilter⟩ := ih hlines hspoken
          have hnone : Marker.ofLine line = .ok none := by
            rw [isSilent] at hsilent
            split at hsilent
            · next h => exact h
            · cases hsilent
          exact ⟨none :: all, .cons hnone hall, hfilter⟩
      | false =>
          rw [List.filter_cons_of_pos (by simp [hsilent])] at hlines
          subst hlines
          cases hspoken with
          | @cons _ m _ ms hline hrest =>
              obtain ⟨all, hall, hfilter⟩ := ih rfl hrest
              refine ⟨some m :: all, .cons hline hall, ?_⟩
              rw [List.filter_cons_of_pos rfl, hfilter, List.map_cons]

/-- A log of the runtime is read to its end, and says just the starts and the ends. -/
theorem Logs.exists_markers {lines : List Text} {trees : List (Tree Entry)}
    (h : Logs lines trees) :
    ∃ all, List.Forall₂ (fun line marker => Marker.ofLine line = .ok marker) lines all ∧
      all.filter (·.isSome) = (markersAll 0 trees).map some := by
  apply exists_markers_of_filter h.lines
  apply forall₂_says_logAll 0 trees h.entries
  rw [Nat.zero_add]
  exact h.depths

end Runtime

end SolanaTx
