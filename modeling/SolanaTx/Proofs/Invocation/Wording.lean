import Mathlib.Data.List.Forall2
import SolanaTx.Invocation.LogLine
import SolanaTx.Proofs.Text.Word

/-!
# The wording of log lines

A line without blanks around it says something in three wordings and in no others:
that a program starts, that it succeeds, or that it fails for a reason on the same
line. Only the numeral of a start can keep a line from being read.
-/

namespace SolanaTx

namespace Marker

open Text

def invokeLine (program digits : Text) : Text :=
  "Program " ++ (program ++ (" invoke [" ++ (digits ++ "]")))

def successLine (program : Text) : Text :=
  "Program " ++ (program ++ " success")

def failedLine (program reason : Text) : Text :=
  "Program " ++ (program ++ (" failed: " ++ reason))

theorem trim_program (t : Text) : trim ("Program " ++ t) = trimEnd ("Program " ++ t) := rfl

theorem trim_invokeLine (program digits : Text) :
    trim (invokeLine program digits) = invokeLine program digits := by
  have hline : invokeLine program digits =
      (("Program " : Text) ++ (program ++ ((" invoke [" : Text) ++ digits))) ++
        [CodePoint.char ']'] := by
    simp only [invokeLine, List.append_assoc]
    rfl
  rw [invokeLine, trim_program, ← invokeLine, hline, trimEnd_concat _ (by decide)]

theorem depthDigits?_eq_some_iff {t digits : Text} :
    depthDigits? t = some digits ↔ IsNumeral digits ∧ t = digits ++ "]" := by
  constructor
  · intro h
    unfold depthDigits? at h
    dsimp only at h
    split at h
    · next hcond =>
      obtain rfl := Option.some.inj h
      simp only [Bool.and_eq_true, Bool.not_eq_true', List.isEmpty_eq_false_iff,
        beq_iff_eq] at hcond
      refine ⟨⟨hcond.1, fun c hc => List.all_eq_true.mp List.all_takeWhile c hc⟩, ?_⟩
      nth_rewrite 1 [eq_takeWhile_append_drop (fun c => (digit? c).isSome) t]
      rw [hcond.2]
    · cases h
  · rintro ⟨⟨hne, hdigits⟩, rfl⟩
    have htake : (digits ++ ("]" : Text)).takeWhile (fun c => (digit? c).isSome) = digits := by
      rw [List.takeWhile_append_of_pos hdigits]
      exact List.append_nil digits
    simp only [depthDigits?, htake, List.drop_left]
    simp [hne]

/-- How a line is read on from the name of the program. -/
theorem ofTrimmed_program {program : Text} (hprogram : IsWord program) {c : CodePoint}
    (hc : isBlank c) (rest : Text) :
    ofTrimmed ("Program " ++ (program ++ c :: rest)) =
      if c :: rest = " success" then .ok (some (.ended .success))
      else
        match after? " invoke [" (c :: rest), after? " failed: " (c :: rest) with
        | some t, _ =>
            match depthDigits? t with
            | some digits => (depth digits).map fun d => some (.invoke program d)
            | none => .ok none
        | none, some reason =>
            .ok (if reason.contains '\n' then none else some (.ended (.failed reason)))
        | none, none => .ok none := by
  have hafter : after? "Program " ("Program " ++ (program ++ c :: rest)) =
      some (program ++ c :: rest) := after?_eq_some_iff.mpr rfl
  have hnonempty : program.isEmpty = false := by simpa using hprogram.1
  unfold ofTrimmed
  rw [hafter]
  dsimp only
  rw [takeWhile_word hprogram hc, List.drop_left, hnonempty]
  rfl

/-! ## The three wordings -/

theorem ofTrimmed_invokeLine {program digits : Text} (hprogram : IsWord program)
    (hdigits : IsNumeral digits) :
    ofTrimmed (invokeLine program digits) =
      (depth digits).map fun d => some (.invoke program d) := by
  have hrest : (" invoke [" : Text) ++ (digits ++ ("]" : Text)) =
      .char ' ' :: (("invoke [" : Text) ++ (digits ++ ("]" : Text))) := rfl
  have hafter : after? " invoke [" ((" invoke [" : Text) ++ (digits ++ ("]" : Text))) =
      some (digits ++ "]") := after?_eq_some_iff.mpr rfl
  have hread : depthDigits? (digits ++ "]") = some digits :=
    depthDigits?_eq_some_iff.mpr ⟨hdigits, rfl⟩
  have hne : (" invoke [" : Text) ++ (digits ++ ("]" : Text)) ≠ (" success" : Text) := by
    intro h
    have hsecond : some (CodePoint.char 'i') = some (.char 's') :=
      congrArg (fun t : Text => t[1]?) h
    exact absurd hsecond (by decide)
  rw [invokeLine, hrest, ofTrimmed_program hprogram (by decide), ← hrest, if_neg hne, hafter]
  simp [hread]

theorem ofTrimmed_successLine {program : Text} (hprogram : IsWord program) :
    ofTrimmed (successLine program) = .ok (some (.ended .success)) := by
  have hrest : (" success" : Text) = .char ' ' :: ("success" : Text) := rfl
  rw [successLine, hrest, ofTrimmed_program hprogram (by decide), ← hrest, if_pos rfl]

theorem ofTrimmed_failedLine {program reason : Text} (hprogram : IsWord program)
    (hreason : CodePoint.char '\n' ∉ reason) :
    ofTrimmed (failedLine program reason) = .ok (some (.ended (.failed reason))) := by
  have hrest : (" failed: " : Text) ++ reason =
      .char ' ' :: (("failed: " : Text) ++ reason) := rfl
  have hinvoke : after? " invoke [" ((" failed: " : Text) ++ reason) = none := rfl
  have hafter : after? " failed: " ((" failed: " : Text) ++ reason) = some reason :=
    after?_eq_some_iff.mpr rfl
  have hne : (" failed: " : Text) ++ reason ≠ (" success" : Text) := by
    intro h
    have hsecond : some (CodePoint.char 'f') = some (.char 's') :=
      congrArg (fun t : Text => t[1]?) h
    exact absurd hsecond (by decide)
  rw [failedLine, hrest, ofTrimmed_program hprogram (by decide), ← hrest, if_neg hne, hinvoke,
    hafter]
  simp [hreason]

/-- Whether a line without blanks around it has one of the three wordings. -/
inductive Speaks : Text → Prop where
  | invoke {program digits : Text} (hprogram : IsWord program) (hdigits : IsNumeral digits) :
      Speaks (invokeLine program digits)
  | success {program : Text} (hprogram : IsWord program) : Speaks (successLine program)
  | failed {program reason : Text} (hprogram : IsWord program)
      (hreason : CodePoint.char '\n' ∉ reason) : Speaks (failedLine program reason)

/-- A line of any other wording says nothing. -/
theorem ofTrimmed_of_not_speaks {t : Text} (ht : ¬ Speaks t) : ofTrimmed t = .ok none := by
  unfold ofTrimmed
  cases hafter : after? "Program " t with
  | none => rfl
  | some rest =>
      obtain rfl := after?_eq_some_iff.mp hafter
      dsimp only
      generalize hprogram : rest.takeWhile (fun c => !isBlank c) = program
      have hrest : rest = program ++ rest.drop program.length := by
        nth_rewrite 1 [eq_takeWhile_append_drop (fun c => !isBlank c) rest]
        rw [hprogram]
      generalize rest.drop program.length = tail at hrest
      subst hrest
      cases hempty : program.isEmpty with
      | true => rfl
      | false =>
          have hword : IsWord program := by
            refine ⟨by simpa using hempty, ?_⟩
            intro c hc
            rw [← hprogram] at hc
            simpa using List.all_eq_true.mp List.all_takeWhile c hc
          rw [if_neg Bool.false_ne_true]
          by_cases hsuccess : tail = (" success" : Text)
          · subst hsuccess
            exact absurd (.success hword) ht
          · rw [if_neg hsuccess]
            cases hinvoke : after? " invoke [" tail with
            | some t =>
                obtain rfl := after?_eq_some_iff.mp hinvoke
                cases hdigits : depthDigits? t with
                | none => simp [hdigits]
                | some digits =>
                    obtain ⟨hnumeral, rfl⟩ := depthDigits?_eq_some_iff.mp hdigits
                    exact absurd (.invoke hword hnumeral) ht
            | none =>
                cases hfailed : after? " failed: " tail with
                | none => rfl
                | some reason =>
                    obtain rfl := after?_eq_some_iff.mp hfailed
                    by_cases hreason : CodePoint.char '\n' ∈ reason
                    · simp [hreason]
                    · exact absurd (.failed hword hreason) ht

/-- A line of one of the three wordings does not say nothing. -/
theorem ofTrimmed_ne_of_speaks {t : Text} (ht : Speaks t) : ofTrimmed t ≠ .ok none := by
  cases ht with
  | invoke hprogram hdigits =>
      rw [ofTrimmed_invokeLine hprogram hdigits]
      unfold depth
      split <;> simp [Except.map]
  | success hprogram =>
      rw [ofTrimmed_successLine hprogram]
      simp
  | failed hprogram hreason =>
      rw [ofTrimmed_failedLine hprogram hreason]
      simp

theorem ofTrimmed_eq_ok_none_iff {t : Text} : ofTrimmed t = .ok none ↔ ¬ Speaks t :=
  ⟨fun h ht => ofTrimmed_ne_of_speaks ht h, ofTrimmed_of_not_speaks⟩

/-- A line cannot be read only for a start whose numeral is too long. -/
theorem exists_ofTrimmed_iff {t : Text} :
    (∃ marker, ofTrimmed t = .ok marker) ↔ ¬ ∃ program digits : Text, IsWord program ∧
      IsNumeral digits ∧ Decimal.maxDigits < digits.length ∧ t = invokeLine program digits := by
  constructor
  · rintro ⟨marker, hmarker⟩ ⟨program, digits, hprogram, hdigits, hlong, rfl⟩
    rw [ofTrimmed_invokeLine hprogram hdigits, depth, if_pos hlong] at hmarker
    cases hmarker
  · intro hshort
    by_cases ht : Speaks t
    · cases ht with
      | @invoke program digits hprogram hdigits =>
          have hlength : ¬ Decimal.maxDigits < digits.length := fun hlong =>
            hshort ⟨program, digits, hprogram, hdigits, hlong, rfl⟩
          rw [ofTrimmed_invokeLine hprogram hdigits, depth, if_neg hlength]
          exact ⟨_, rfl⟩
      | success hprogram => exact ⟨_, ofTrimmed_successLine hprogram⟩
      | failed hprogram hreason => exact ⟨_, ofTrimmed_failedLine hprogram hreason⟩
    · exact ⟨none, ofTrimmed_of_not_speaks ht⟩

/-- Whether a line is a start whose numeral has more digits than are read. -/
def IsOverlong (line : Text) : Prop :=
  ∃ program digits : Text, IsWord program ∧ IsNumeral digits ∧
    Decimal.maxDigits < digits.length ∧ trim line = invokeLine program digits

theorem exists_ofLine_iff {line : Text} :
    (∃ marker, ofLine line = .ok marker) ↔ ¬ IsOverlong line :=
  exists_ofTrimmed_iff

theorem isOverlong_invokeLine_replicate {program : Text} (hprogram : IsWord program) {count : Nat}
    (hcount : Decimal.maxDigits < count) :
    IsOverlong (invokeLine program (List.replicate count '1')) := by
  refine ⟨program, List.replicate count '1', hprogram, ⟨?_, fun c hc => ?_⟩, ?_,
    trim_invokeLine _ _⟩
  · rw [Ne, List.replicate_eq_nil_iff]
    exact Nat.ne_of_gt (Nat.zero_lt_of_lt hcount)
  · rw [List.eq_of_mem_replicate hc]
    decide
  · rwa [List.length_replicate]

/-- Whether a line is the start of a program at a depth, blanks around it apart. -/
def IsStart (line program : Text) (depth : Nat) : Prop :=
  ∃ digits : Text, IsWord program ∧ IsNumeral digits ∧ digits? digits = some depth ∧
    trim line = invokeLine program digits

theorem IsOverlong.exists_isStart {line : Text} (h : IsOverlong line) :
    ∃ program depth, IsStart line program depth := by
  obtain ⟨program, digits, hprogram, hdigits, -, htrim⟩ := h
  obtain ⟨depth, hdepth⟩ := hdigits.exists_digits?
  exact ⟨program, depth, digits, hprogram, hdigits, hdepth, htrim⟩

theorem isStart_of_ofLine {line program : Text} {depth : Nat}
    (h : ofLine line = .ok (some (.invoke program depth))) : IsStart line program depth := by
  unfold ofLine at h
  by_cases hspeaks : Speaks (trim line)
  · generalize htrim : trim line = t at h hspeaks
    cases hspeaks with
    | @invoke program' digits hprogram hdigits =>
        rw [ofTrimmed_invokeLine hprogram hdigits, Marker.depth] at h
        obtain ⟨n, hn⟩ := hdigits.exists_digits?
        rw [hn] at h
        split at h
        · cases h
        · injection h with h
          injection h with h
          injection h with hsame hdepth
          subst hsame hdepth
          exact ⟨digits, hprogram, hdigits, hn, htrim⟩
    | success hprogram =>
        rw [ofTrimmed_successLine hprogram] at h
        cases h
    | failed hprogram hreason =>
        rw [ofTrimmed_failedLine hprogram hreason] at h
        cases h
  · rw [ofTrimmed_of_not_speaks hspeaks] at h
    cases h

/-- A start that is read says its program and its depth. -/
theorem IsStart.ofLine_eq {line program : Text} {depth : Nat} (h : IsStart line program depth)
    {marker : Option Marker} (hread : ofLine line = .ok marker) :
    marker = some (.invoke program depth) := by
  obtain ⟨digits, hprogram, hdigits, hvalue, htrim⟩ := h
  rw [ofLine, htrim, ofTrimmed_invokeLine hprogram hdigits, Marker.depth, hvalue] at hread
  split at hread
  · cases hread
  · exact (Except.ok.inj hread).symm

end Marker

namespace Log

/-- The log whose lines are texts. -/
def ofLines (lines : List Text) : Log :=
  ofEntries (lines.map .text)

theorem ofLines_eq_of_forall {lines : List Text} {markers : List (Option Marker)}
    (h : List.Forall₂ (fun line marker => Marker.ofLine line = .ok marker) lines markers) :
    ofLines lines = { markers } := by
  induction h with
  | nil => rfl
  | @cons line marker lines markers hline _ ih =>
      rw [ofLines] at ih
      rw [ofLines, List.map_cons, ofEntries, Log.marker, hline]
      simp [ih]

/-- A log is read to its end where each line is. -/
theorem fault_ofLines_eq_none_iff {lines : List Text} :
    (ofLines lines).fault = none ↔ ∀ line ∈ lines, ∃ marker, Marker.ofLine line = .ok marker := by
  induction lines with
  | nil => simp [ofLines, ofEntries]
  | cons line rest ih =>
      rw [List.forall_mem_cons, ← ih, ofLines, ofLines, List.map_cons, ofEntries, Log.marker]
      cases hline : Marker.ofLine line with
      | error fault => simp
      | ok marker => simp

theorem forall₂_markers_ofLines {lines : List Text} (h : (ofLines lines).fault = none) :
    List.Forall₂ (fun line marker => Marker.ofLine line = .ok marker) lines
      (ofLines lines).markers := by
  induction lines with
  | nil => exact .nil
  | cons line rest ih =>
      rw [ofLines] at h ih ⊢
      rw [List.map_cons, ofEntries, Log.marker] at h ⊢
      cases hline : Marker.ofLine line with
      | error fault => simp [hline] at h
      | ok marker =>
          rw [hline] at h
          exact .cons hline (ih h)

end Log

end SolanaTx
