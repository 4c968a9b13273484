import SolanaTx.Proofs.Report.Drawing
import SolanaTx.Proofs.Transaction.Decoding
import SolanaTx.Transaction.Session

/-!
# Runs of a session

A session reports each transaction as if it were alone, under its number. It passes on the
reports of those that fail, and those of the others where all are asked for. A report that
cannot be had is passed over.
-/

namespace SolanaTx

open Fallible

/-- A transaction that is handed to a session, with snapshots where there are any. -/
structure Submission where
  transaction : Transaction
  pre : Option Snapshots := none
  post : Option Snapshots := none

namespace Submission

variable {style : Report.Style} {registry : Registry} {x : Submission} {number : Nat}
  {asked : Option Verbosity}

def isSuccess (x : Submission) : Bool :=
  x.transaction.status.isSuccess

/-- The report of a transaction alone: it is decoded and shown under a number. -/
def report (x : Submission) (style : Report.Style) (registry : Registry) (number : Nat)
    (asked : Option Verbosity) : Except Fault Text := do
  let log ← x.transaction.decode registry x.pre x.post
  Report.render style log (some (number : Int)) asked none

/-- Whether a report is to be passed on: it is not empty, and the transaction has failed or all
are asked for. -/
def IsDue (settings : Settings) (x : Submission) (text : Text) : Prop :=
  text ≠ [] ∧ (x.isSuccess = false ∨ settings.logEvents = true)

instance (settings : Settings) (x : Submission) (text : Text) :
    Decidable (x.IsDue settings text) :=
  inferInstanceAs (Decidable (text ≠ [] ∧ (x.isSuccess = false ∨ settings.logEvents = true)))

/-- What a receiver gets of a transaction. -/
def due? (settings : Settings) (hasReceiver : Bool) (x : Submission) (report : Except Fault Text) :
    Option Text :=
  match report with
  | .ok text => if hasReceiver ∧ x.IsDue settings text then some text else none
  | .error _ => none

theorem level_of_failed {log : DecodedTransaction} (h : log.source.status.isSuccess = false)
    (style : Report.Style) (asked : Option Verbosity) : style.level log asked = .full := by
  rw [Report.Style.level, h]
  rfl

theorem isSuccess_of_decode (h : x.isSuccess = false) {log : DecodedTransaction}
    (hlog : x.transaction.decode registry x.pre x.post = .ok log) :
    log.source.status.isSuccess = false := by
  rw [(Transaction.decode_eq_ok_iff.mp hlog).2.1]
  exact h

theorem report_eq_ok_iff {text : Text} : x.report style registry number asked = .ok text ↔
    ∃ log, x.transaction.decode registry x.pre x.post = .ok log ∧
      Report.render style log (some (number : Int)) asked none = .ok text :=
  bind_eq_ok

/-- A transaction that fails has the same report whatever verbosity is set or asked for. -/
theorem report_of_failed (h : x.isSuccess = false) (settings : Settings) (labels : PubkeyMap Text)
    (verbosity : Verbosity) (asked : Option Verbosity) :
    x.report ⟨{ settings with verbosity }, labels⟩ registry number asked =
      x.report ⟨settings, labels⟩ registry number none := by
  unfold report
  cases hlog : x.transaction.decode registry x.pre x.post with
  | error fault => rfl
  | ok log =>
      have hfailed := isSuccess_of_decode h hlog
      rw [ok_bind, ok_bind, Report.render, Report.render, level_of_failed hfailed,
        level_of_failed hfailed]
      rfl

theorem ne_nil_of_report (h : x.isSuccess = false) {text : Text}
    (htext : x.report style registry number asked = .ok text) : text ≠ [] := by
  obtain ⟨log, hlog, htext⟩ := report_eq_ok_iff.mp htext
  apply Report.ne_nil_of_render htext
  rw [level_of_failed (isSuccess_of_decode h hlog)]
  rintro ⟨⟩

/-- Where a transaction has a report. -/
theorem exists_report_iff : (∃ text, x.report style registry number asked = .ok text) ↔
    ∃ log, x.transaction.decode registry x.pre x.post = .ok log ∧
      (style.level log asked ≠ .quiet → Report.HasHeader x.transaction (some (number : Int)) ∧
        Tree.heightAll log.forest.trees ≤ Report.maxHeight ∧
          (style.level log asked = .full →
            ∀ n ∈ log.forest.walk, Report.IsDrawable style log.deltas n)) := by
  simp only [report_eq_ok_iff]
  rw [exists_comm]
  refine exists_congr fun log => ?_
  rw [exists_and_left]
  refine and_congr_right fun hlog => ?_
  rw [← (Transaction.decode_eq_ok_iff.mp hlog).2.1]
  exact Report.exists_render_iff

end Submission

namespace Session

variable {s : Session}

/-- The reports of transactions that are submitted one after the other, and the session behind
them. -/
def submitAll : Session → List Submission → List (Except Fault Text) × Session
  | s, [] => ([], s)
  | s, x :: rest =>
      let step := s.submit x.transaction x.pre x.post
      let run := step.2.submitAll rest
      (step.1 :: run.1, run.2)

/-- A submission gives the report under the next number, and does to the session no more than count
it and pass its report on. -/
theorem submit_eq (s : Session) (x : Submission) :
    s.submit x.transaction x.pre x.post =
      (x.report s.style s.registry (s.count + 1) none,
        { s with
          count := s.count + 1
          passedOn := s.passedOn ++ (x.due? s.style.settings s.hasReceiver
            (x.report s.style s.registry (s.count + 1) none)).toList }) := by
  have hreport : s.report (s.count + 1) x.transaction x.pre x.post =
      x.report s.style s.registry (s.count + 1) none := rfl
  rw [submit, hreport]
  cases x.report s.style s.registry (s.count + 1) none with
  | error fault => simp [Submission.due?]
  | ok text =>
      have hdue : s.passesOn x.transaction text = true ↔
          s.hasReceiver ∧ x.IsDue s.style.settings text := by
        simp only [passesOn, Submission.IsDue, Submission.isSuccess, Bool.and_eq_true,
          Bool.not_eq_true', List.isEmpty_eq_false_iff, Bool.or_eq_true, and_assoc,
          or_comm (a := s.style.settings.logEvents = true)]
      simp only [Submission.due?, ← hdue]
      split <;> simp

/-- Nothing is passed on of a transaction whose report cannot be had. -/
theorem passedOn_submit_of_error {x : Submission} {fault : Fault}
    (h : x.report s.style s.registry (s.count + 1) none = .error fault) :
    (s.submit x.transaction x.pre x.post).2.passedOn = s.passedOn := by
  rw [submit_eq, h]
  exact List.append_nil _

/-- A run gives each transaction its report alone, under the numbers from the next one on. -/
theorem submitAll_eq (s : Session) (xs : List Submission) :
    s.submitAll xs =
      let reports := (xs.zipIdx (s.count + 1)).map fun item =>
        item.1.report s.style s.registry item.2 none
      (reports,
        { s with
          count := s.count + xs.length
          passedOn := s.passedOn ++ (xs.zip reports).filterMap fun item =>
            item.1.due? s.style.settings s.hasReceiver item.2 }) := by
  -- the rest of a run starts from the session behind its first step
  induction xs generalizing s with
  | nil => simp [submitAll]
  | cons x rest ih =>
      rw [submitAll, submit_eq]
      dsimp only
      rw [ih]
      simp only [List.zipIdx_cons, List.map_cons, List.zip_cons_cons, List.filterMap_cons,
        List.length_cons]
      have hcount : s.count + 1 + rest.length = s.count + (rest.length + 1) := by omega
      rw [hcount]
      cases x.due? s.style.settings s.hasReceiver
          (x.report s.style s.registry (s.count + 1) none) with
      | none => simp
      | some text => simp

/-- A session that has just started counts the transactions that it is handed, and gives the report
of each alone under its number. Its receiver gets, one after the other, the reports that are not
empty of transactions that fail, or of all where they are asked for. A transaction that fails has
the same report whatever verbosity is set or asked for, and where it can be had it is passed on. -/
theorem submitAll_of_start (settings : Settings) (registry : Registry) (hasReceiver : Bool)
    (xs : List Submission) :
    let run := (Session.start settings registry hasReceiver).submitAll xs
    let style : Report.Style := ⟨settings, registry.labels⟩
    run.2.count = xs.length ∧ run.1.length = xs.length ∧
    (∀ (k : Nat) (x : Submission), xs[k]? = some x →
      run.1[k]? = some (x.report style registry (k + 1) none)) ∧
    run.2.passedOn = (xs.zip run.1).filterMap (fun item =>
      item.1.due? settings hasReceiver item.2) ∧
    ∀ x ∈ xs, ∀ number,
      ((∀ call ∈ x.transaction.inner, call.height.isUsable) →
        ((∃ log, x.transaction.decode registry x.pre x.post = .ok log) ↔
          x.transaction.IsDecodable registry)) ∧
      ((∃ text, x.report style registry number none = .ok text) ↔
        ∃ log, x.transaction.decode registry x.pre x.post = .ok log ∧
          (style.level log none ≠ .quiet →
            Report.HasHeader x.transaction (some (number : Int)) ∧
            Tree.heightAll log.forest.trees ≤ Report.maxHeight ∧
              (style.level log none = .full →
                ∀ n ∈ log.forest.walk, Report.IsDrawable style log.deltas n))) ∧
      (x.isSuccess = false →
        (∀ verbosity asked, x.report ⟨{ settings with verbosity }, registry.labels⟩ registry number
          asked = x.report style registry number none) ∧
        ∀ text, x.report style registry number none = .ok text →
          text ≠ [] ∧ x.due? settings true (.ok text) = some text) := by
  intro run style
  have hrun : run = _ := submitAll_eq (Session.start settings registry hasReceiver) xs
  refine ⟨?_, ?_, ?_, ?_, fun x _ number => ⟨Transaction.exists_decode_iff,
    Submission.exists_report_iff, fun hfailed => ⟨fun verbosity asked =>
      Submission.report_of_failed hfailed settings registry.labels verbosity asked, ?_⟩⟩⟩
  · rw [hrun]
    exact Nat.zero_add _
  · simp [hrun]
  · intro k x hx
    simp [hrun, hx, style, Session.start, Nat.add_comm]
  · rw [hrun]
    exact List.nil_append _
  · intro text htext
    have hne := Submission.ne_nil_of_report hfailed htext
    exact ⟨hne, if_pos ⟨rfl, hne, .inl hfailed⟩⟩

/-- A transaction that fails need not have a report, and then it does not reach the receiver. -/
theorem overlong_not_passed_on :
    Transaction.overlong.status.isSuccess = false ∧
      ((Session.start {} {}).submitAll [⟨.overlong, none, none⟩]).2.count = 1 ∧
        ((Session.start {} {}).submitAll [⟨.overlong, none, none⟩]).2.passedOn = [] := by
  have hreport : ∀ style number, ∃ fault,
      Submission.report ⟨.overlong, none, none⟩ style {} number none = .error fault := by
    intro style number
    cases hr : Submission.report ⟨.overlong, none, none⟩ style {} number none with
    | error fault => exact ⟨fault, rfl⟩
    | ok text =>
        obtain ⟨log, hlog, -⟩ := Submission.report_eq_ok_iff.mp hr
        exact absurd ⟨log, hlog⟩ Transaction.not_exists_decode_overlong
  obtain ⟨fault, hfault⟩ := hreport (Session.start {} {}).style 1
  have hrun : ∀ (s : Session) (x : Submission),
      (s.submitAll [x]).2 = (s.submit x.transaction x.pre x.post).2 := fun _ _ => rfl
  rw [hrun, passedOn_submit_of_error hfault]
  exact ⟨rfl, rfl, rfl⟩

end Session

end SolanaTx
