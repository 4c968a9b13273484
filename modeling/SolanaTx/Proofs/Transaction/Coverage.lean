import SolanaTx.Proofs.Account.Capture
import SolanaTx.Proofs.Report.AccountRows
import SolanaTx.Proofs.Transaction.Views

/-!
# Snapshots cover what is shown

Each node of a transaction shows one of its instructions or calls, so snapshots of all accounts
that these mention leave no row of a full report without a state, unless the account of the row
exists neither before nor after.
-/

namespace SolanaTx

namespace Transaction

variable {t : Transaction} {r : Registry} {pre post : Option Snapshots} {log : DecodedTransaction}

theorem instruction_mem_of_mem_walk (hlog : t.decode r pre post = .ok log) {n : Node}
    (hn : n ∈ log.forest.walk) :
    n.instruction ∈ t.instructions ++ t.inner.map (·.instruction) := by
  have hentry : ∀ e ∈ log.forest.walk.map Node.entry,
      e.2 ∈ t.instructions ++ t.inner.map (·.instruction) := by
    rw [map_entry_walk_of_decode hlog]
    apply (forall_mem_entries_iff (· ∈ t.instructions ++ t.inner.map (·.instruction))).mpr
    constructor
    · exact fun i hi => List.mem_append_left _ hi
    · exact fun call hcall _ => List.mem_append_right _ (List.mem_map_of_mem hcall)
  exact hentry n.entry (List.mem_map_of_mem hn)

/-- The accounts of a node are among those of its transaction, however its calls were listed. -/
theorem pubkey_mem_of_mem_walk {calls : List ListedCall}
    (hcalls : calls.map ListedCall.instruction = t.inner.map (·.instruction))
    (hlog : t.decode r pre post = .ok log) {n : Node} (hn : n ∈ log.forest.walk) {a : AccountMeta}
    (ha : a ∈ n.instruction.accounts) : a.pubkey ∈ accountsOfInterest t.instructions calls := by
  rw [accountsOfInterest, hcalls, (listsMentions_mentionedKeys _).mem_iff]
  exact ⟨n.instruction, instruction_mem_of_mem_walk hlog hn, .inr ⟨a, ha, rfl⟩⟩

end Transaction

namespace Report

variable {style : Style} {deltas : Deltas} {before after : Pubkey → Option Account} {n : Node}
  {block : List Text}

/-- Whether the block of a node has a row for each account, and in it four cells for the state of
the account, which say nothing exactly where the account exists neither before nor after. -/
def ShowsStates (style : Style) (deltas : Deltas) (before after : Pubkey → Option Account)
    (n : Node) (block : List Text) : Prop :=
  ∀ i a, n.instruction.accounts[i]? = some a → ∃ state line, block[i + 5]? = some line ∧
    IsAccountRow style (some deltas) n i a state line ∧ state.length = 4 ∧
    (state = noState ↔ before a.pubkey = none ∧ after a.pubkey = none)

/-- Whether a text is a report in which the forest of some nodes is drawn, and the block of each of
them shows the states of its accounts. -/
def ShowsAllStates (style : Style) (deltas : Deltas) (before after : Pubkey → Option Account)
    (nodes : List Node) (text : Text) : Prop :=
  ∃ parts, text = blockText parts ∧
    DecodedTransaction.IsDrawing (shownBody style (some deltas) true) parts nodes ∧
    ∀ n ∈ nodes, ∀ block, Draws (shownBody style (some deltas) true) n block →
      ShowsStates style deltas before after n block

theorem showsStates_of_draws (h : Draws (shownBody style (some deltas) true) n block)
    (hdeltas : ∀ a ∈ n.instruction.accounts,
      deltas.get? a.pubkey = none ↔ before a.pubkey = none ∧ after a.pubkey = none) :
    ShowsStates style deltas before after n block := by
  intro i a ha
  obtain ⟨state, line, hstate, hline, hrow⟩ := exists_isAccountRow_of_draws h ha
  refine ⟨state, line, hline, hrow, Nat.add_right_cancel (length_states hstate), ?_⟩
  rw [← hdeltas a (List.mem_of_getElem? ha)]
  exact stateCells_eq_noState_iff hstate

theorem showsAllStates_of_render {log : DecodedTransaction} {number : Option Int}
    {asked : Option Verbosity} {given : Option Deltas} {text : Text}
    (h : render style log number asked given = .ok text) (hfull : style.level log asked = .full)
    (hgiven : (given <|> log.deltas) = some deltas)
    (hdeltas : ∀ n ∈ log.forest.walk, ∀ a ∈ n.instruction.accounts,
      deltas.get? a.pubkey = none ↔ before a.pubkey = none ∧ after a.pubkey = none) :
    ShowsAllStates style deltas before after log.forest.walk text := by
  obtain ⟨hquiet, -⟩ | ⟨-, parts, hparts, htext⟩ := render_eq_ok_iff.mp h
  · rw [hfull] at hquiet
    cases hquiet
  · rw [hfull, hgiven] at hparts
    refine ⟨parts, htext, DecodedTransaction.isDrawing_of_sections hparts, ?_⟩
    intro n hn block hblock
    exact showsStates_of_draws hblock (hdeltas n hn)

end Report

/-- Of instructions and calls, however these are listed, the accounts of interest are all that they
mention, each once and in the order of first mention. Captured before and after, those of them that
exist on either side have a delta, and no others. So where these deltas are shown in a full report
of the transaction, each account of a node has its row, with the state of the account unless it
exists neither before nor after. -/
theorem Transaction.snapshots_cover :
    (∀ instructions calls, ListsMentions (accountsOfInterest instructions calls)
      (instructions ++ calls.map ListedCall.instruction)) ∧
    (∀ instructions calls before after key,
      ((Snapshots.capture (accountsOfInterest instructions calls) before).diff
        (Snapshots.capture (accountsOfInterest instructions calls) after)).contains key ↔
      (∃ i ∈ instructions ++ calls.map ListedCall.instruction,
        i.program = key ∨ ∃ a ∈ i.accounts, a.pubkey = key) ∧
      ((before key).isSome ∨ (after key).isSome)) ∧
    ∀ (t : Transaction) (calls : List ListedCall),
      calls.map ListedCall.instruction = t.inner.map (·.instruction) →
      ∀ (before after : Pubkey → Option Account) (deltas : Deltas),
        deltas = (Snapshots.capture (accountsOfInterest t.instructions calls) before).diff
          (Snapshots.capture (accountsOfInterest t.instructions calls) after) →
        ∀ r pre post log, t.decode r pre post = .ok log →
          ∀ style number asked given text, style.level log asked = .full →
            (given <|> log.deltas) = some deltas →
            Report.render style log number asked given = .ok text →
            Report.ShowsAllStates style deltas before after log.forest.walk text := by
  have hlists : ∀ instructions calls, ListsMentions (accountsOfInterest instructions calls)
      (instructions ++ calls.map ListedCall.instruction) :=
    fun instructions calls => listsMentions_mentionedKeys _
  refine ⟨hlists, ?_, ?_⟩
  · intro instructions calls before after key
    rw [Snapshots.contains_diff_capture_iff, (hlists instructions calls).mem_iff]
  · rintro t calls hcalls before after deltas rfl r pre post log hlog style number asked given text
      hfull hgiven hrender
    apply Report.showsAllStates_of_render hrender hfull hgiven
    intro n hn a ha
    apply Snapshots.get?_diff_capture_eq_none_iff
    exact Transaction.pubkey_mem_of_mem_walk hcalls hlog hn ha

namespace Transaction

/-- A failed transaction whose program takes lamports from an account, and calls itself with one
that does not exist. -/
def withdrawal : Transaction where
  signature := "5Nf"
  instructions := [⟨.zero, [], [⟨.computeBudget, true, true⟩]⟩]
  inner := [⟨0, ⟨.zero, [], [⟨.zero, false, false⟩]⟩, .unreported⟩]
  status := .failed none

/-- The call of the withdrawal, listed as an instruction alone. -/
def withdrawalCalls : List ListedCall :=
  [.bare ⟨.zero, [], [⟨.zero, false, false⟩]⟩]

/-- The accounts at a time at which only one of them exists. -/
def withdrawalAccounts (lamports : Int) (key : Pubkey) : Option Account :=
  if key = .computeBudget then some { lamports } else none

/-- The snapshots of the accounts that the withdrawal mentions. -/
def withdrawalSnapshots (lamports : Int) : Snapshots :=
  Snapshots.capture (accountsOfInterest withdrawal.instructions withdrawalCalls)
    (withdrawalAccounts lamports)

def withdrawalDeltas : Deltas :=
  (withdrawalSnapshots 5).diff (withdrawalSnapshots 3)

/-- The tree of the withdrawal, whose program has no decoder. -/
def withdrawalTree : Tree Node :=
  let shown (path : List Nat) (v : Invocation) : Node :=
    ⟨path, v, "System Program", some (.error (.unknownProgram .zero))⟩
  .node (shown [1] ⟨0, ⟨.zero, [], [⟨.computeBudget, true, true⟩]⟩, 0, 0, none, none⟩)
    [.leaf (shown [1, 1]
      ⟨1, ⟨.zero, [], [⟨.zero, false, false⟩]⟩, 1, 0, some .unreported, none⟩)]

theorem buildForest_withdrawal : buildForest withdrawal.instructions withdrawal.inner [] =
    ⟨[withdrawalTree.map Node.invocation], []⟩ := by
  have hparents : missingParents withdrawal.instructions.length withdrawal.inner = [] := by
    simp [missingParents, withdrawal]
  rw [buildForest, hparents]
  rfl

theorem decodeForest_withdrawal :
    decodeForest {} withdrawal.instructions withdrawal.inner (.ofEntries withdrawal.logs) =
      .ok ⟨[withdrawalTree], []⟩ := by
  have hheights : ∀ v ∈ (withdrawalTree.map Node.invocation).preorder,
      v.placedBy.all StackHeight.isUsable := by
    decide
  apply decodeForest_eq_ok_iff.mpr
  refine ⟨rfl, Forest.decode_eq_ok_iff.mpr ?_⟩
  rw [show Log.markers (.ofEntries withdrawal.logs) = [] from rfl, buildForest_withdrawal]
  refine ⟨fun v hv => ?_, List.forall_mem_nil _, rfl, rfl⟩
  apply (Invocation.exists_decode_iff (hheights v _)).mpr (Registry.answers_empty _)
  simpa [Forest.walk, Tree.preorderAll] using hv

theorem isDrawable_withdrawal : ∀ n ∈ withdrawalTree.preorder,
    Report.IsDrawable {} (some withdrawalDeltas) n := by
  have hnumbers : ∀ entry ∈ withdrawalDeltas.entries,
      entry.2.current.dataLength.all Decimal.isWritable ∧ Decimal.isWritable entry.2.lamports ∧
        Decimal.isWritable entry.2.change := by
    decide +kernel
  have hnames : ∀ n ∈ withdrawalTree.preorder, n.decoded? = none := by
    simp [withdrawalTree, Tree.preorder, Tree.preorderAll, Tree.leaf, Node.decoded?]
  intro n hn
  constructor
  case accounts =>
    intro item _
    rw [Report.accountName, hnames n hn]
    exact ⟨_, rfl⟩
  case fields =>
    intro d hd
    rw [hnames n hn] at hd
    cases hd
  case states =>
    rintro item _ known ⟨⟩ d hd
    obtain ⟨hlength, hlamports, hchange⟩ :=
      hnumbers _ (withdrawalDeltas.mem_entries_iff.mpr hd)
    exact ⟨fun length h => by simpa [h] using hlength, hlamports, hchange⟩

theorem snapshots_cover_withdrawal : ∃ log text,
    withdrawal.decode {} (some (withdrawalSnapshots 5)) (some (withdrawalSnapshots 3)) = .ok log ∧
    log.forest.walk.length = 2 ∧ Report.render {} log (some 1) none none = .ok text ∧
    Report.ShowsAllStates {} withdrawalDeltas (withdrawalAccounts 5) (withdrawalAccounts 3)
      log.forest.walk text := by
  let log : DecodedTransaction := ⟨withdrawal, ⟨[withdrawalTree], []⟩, some withdrawalDeltas⟩
  have hlog : withdrawal.decode {} (some (withdrawalSnapshots 5))
      (some (withdrawalSnapshots 3)) = .ok log :=
    decode_eq_ok_iff.mpr ⟨decodeForest_withdrawal, rfl, rfl⟩
  obtain ⟨text, htext⟩ : ∃ text, Report.render {} log (some 1) none none = .ok text := by
    have hheader : Report.HasHeader withdrawal (some 1) := by decide +kernel
    refine Report.exists_render_iff.mpr fun _ => ⟨hheader, by decide, fun _ n hn => ?_⟩
    apply isDrawable_withdrawal n
    simpa [log, Forest.walk, Tree.preorderAll] using hn
  refine ⟨log, text, hlog, rfl, htext, ?_⟩
  exact Transaction.snapshots_cover.2.2 withdrawal withdrawalCalls rfl _ _ _ rfl _ _ _ log hlog
    {} _ _ _ text rfl rfl htext

end Transaction

end SolanaTx
