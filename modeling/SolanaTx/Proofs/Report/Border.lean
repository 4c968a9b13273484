import SolanaTx.Proofs.Report.Drawing
import SolanaTx.Proofs.Transaction.Decoding

/-!
# The border of a report

A report is one bordered block where no text in it breaks a line: the border goes in front
of the lines of a report, and a line feed inside a text starts a line that has none.
-/

namespace SolanaTx.Report

open Fallible Text

/-! ## Lines inside the border -/

/-- Whether a line stands behind the border at the left, or parts two sections. -/
def IsInside (line : Text) : Prop :=
  line.head? = some (CodePoint.char '│') ∨ line.head? = some (CodePoint.char '├')

instance : DecidablePred IsInside := fun line =>
  inferInstanceAs (Decidable (line.head? = some (CodePoint.char '│') ∨
    line.head? = some (CodePoint.char '├')))

/-- Whether a text is one bordered block with a line feed behind it. -/
def IsBordered (text : Text) : Prop :=
  ∃ first middle last, text.lines = first :: middle ++ [last, []] ∧
    first.head? = some (CodePoint.char '┌') ∧ last.head? = some (CodePoint.char '└') ∧
      ∀ line ∈ middle, IsInside line

/-- Whether the lines that a text goes on with, behind its line feeds, look like lines inside the
border. White space at its end does not count. -/
def StaysInside (line : Text) : Prop :=
  ∀ rest ∈ (Text.trimEnd line).lines.tail, IsInside rest

instance : DecidablePred StaysInside := fun line =>
  inferInstanceAs (Decidable (∀ rest ∈ (Text.trimEnd line).lines.tail, IsInside rest))

theorem staysInside_of_oneLine {line : Text} (h : line.OneLine) : StaysInside line := by
  rw [StaysInside, lines_of_oneLine (oneLine_trimEnd h)]
  exact List.forall_mem_nil _

/-- The border stands in front of the first of the lines of a text only. -/
theorem forall_lines_borderedLine_iff {line : Text} :
    (∀ piece ∈ (borderedLine line).lines, IsInside piece) ↔ StaysInside line := by
  rw [borderedLine, trimEnd_append, StaysInside]
  split
  · next hblank =>
    -- of white space only the bar is left, which is one line on both sides
    rw [hblank]
    exact iff_of_true (by decide) (by decide)
  · obtain ⟨first, rest, hlines⟩ := List.exists_cons_of_ne_nil (lines_ne_nil (Text.trimEnd line))
    have hbordered : (Text.ofString "│ " ++ Text.trimEnd line).lines =
        (CodePoint.char '│' :: CodePoint.char ' ' :: first) :: rest := by
      rw [show Text.ofString "│ " ++ Text.trimEnd line =
        CodePoint.char '│' :: CodePoint.char ' ' :: Text.trimEnd line from rfl,
        lines_cons (by decide), lines_cons (by decide), hlines]
      rfl
    rw [hbordered, hlines, List.forall_mem_cons]
    exact and_iff_right (.inl rfl)

theorem oneLine_rule {corner : Text} (h : corner.OneLine) : (rule corner).OneLine :=
  oneLine_append h (oneLine_replicate (by decide) _)

/-- What holds of separators holds of all items where it holds of those between. -/
theorem forall_mem_intercalate_iff {α : Type} {p : α → Prop} {separator : List α}
    (h : ∀ a ∈ separator, p a) {parts : List (List α)} :
    (∀ a ∈ List.intercalate separator parts, p a) ↔ ∀ part ∈ parts, ∀ a ∈ part, p a := by
  induction parts with
  | nil => simp
  | cons part rest ih =>
      cases rest with
      | nil => simp
      | cons next rest =>
          rw [List.intercalate_cons_cons, List.forall_mem_append, List.forall_mem_append, ih,
            List.forall_mem_cons (l := next :: rest)]
          exact ⟨fun hall => ⟨hall.1.1, hall.2⟩, fun hall => ⟨⟨hall.1, h⟩, hall.2⟩⟩

/-- The lines of sections, and between them the lines that part them. -/
def innerLines (parts : List (List Text)) : List Text :=
  List.intercalate [rule "├"] (parts.map fun lines => lines.map borderedLine)

/-- The lines of a block, each of which may go over several. -/
theorem lines_block (parts : List (List Text)) :
    (blockText parts).lines =
      rule "┌" :: (innerLines parts).flatMap Text.lines ++ [rule "└", []] := by
  have hne : block parts ≠ [] := by simp [block]
  have hcorner : ∀ corner : String, (Text.ofString corner).OneLine →
      (rule corner).lines = [rule corner] := fun _ h => lines_of_oneLine (oneLine_rule h)
  have hend : (blockText parts).lines = Text.lines (Text.join "\n" (block parts)) ++ [[]] :=
    lines_append_break _ []
  rw [hend, lines_join hne, block, List.flatMap_append, List.flatMap_cons, List.flatMap_singleton,
    hcorner _ (by decide), hcorner _ (by decide), List.append_assoc]
  rfl

theorem forall_innerLines_iff {parts : List (List Text)} {p : Text → Prop} (h : p (rule "├")) :
    (∀ line ∈ innerLines parts, p line) ↔ ∀ part ∈ parts, ∀ line ∈ part, p (borderedLine line) := by
  rw [innerLines, forall_mem_intercalate_iff (by simpa using h)]
  simp only [List.forall_mem_map]

/-- A block is bordered where each of its lines stays inside. -/
theorem isBordered_block_iff {parts : List (List Text)} :
    IsBordered (blockText parts) ↔
      ∀ part ∈ parts, ∀ line ∈ part, StaysInside line := by
  have hinner : (∀ line ∈ (innerLines parts).flatMap Text.lines, IsInside line) ↔
      ∀ part ∈ parts, ∀ line ∈ part, StaysInside line := by
    have hrule : ∀ piece ∈ (rule "├").lines, IsInside piece := by
      rw [lines_of_oneLine (oneLine_rule (by decide))]
      exact List.forall_mem_singleton.mpr (.inr rfl)
    rw [List.forall_mem_flatMap, forall_innerLines_iff hrule]
    simp only [forall_lines_borderedLine_iff]
  rw [← hinner, IsBordered, lines_block]
  constructor
  · rintro ⟨first, middle, last, hlines, -, -, hmiddle⟩
    have hsame := List.append_inj_left' (List.cons.inj hlines).2 rfl
    rwa [hsame]
  · intro h
    exact ⟨_, _, _, rfl, rfl, rfl, h⟩

/-- Lines without line feeds are the lines of their block. -/
theorem lines_block_of_oneLine {parts : List (List Text)}
    (h : ∀ part ∈ parts, ∀ line ∈ part, Text.OneLine line) :
    (blockText parts).lines = block parts ++ [[]] := by
  have hinner : ∀ line ∈ innerLines parts, line.lines = [line] := by
    rw [forall_innerLines_iff (lines_of_oneLine (oneLine_rule (by decide)))]
    intro part hpart line hline
    apply lines_of_oneLine
    apply oneLine_trimEnd
    exact oneLine_append (by decide) (h part hpart line hline)
  rw [lines_block, List.flatMap_congr hinner, List.flatMap_singleton', block, List.append_assoc]
  rfl

end SolanaTx.Report

namespace SolanaTx

open Text

/-! ## Texts without line feeds -/

theorem Pubkey.oneLine_knownLabel? {key : Pubkey} {label : Text}
    (h : key.knownLabel? = some label) : label.OneLine := by
  have hknown : ∀ entry ∈ knownLabels, entry.2.OneLine := by decide
  obtain ⟨before, after, hlabels, -⟩ := List.lookup_eq_some_iff.mp h
  exact hknown (key, label) (hlabels ▸ List.mem_append_right before List.mem_cons_self)

/-- Whether no text that comes with a node has a line feed. -/
structure Node.Unbroken (n : Node) : Prop where
  label : n.label.OneLine
  name : ∀ d, n.decoded? = some d → d.name.OneLine
  accounts : ∀ d, n.decoded? = some d → ∀ name, Json.text name ∈ d.accounts → name.OneLine
  fields : ∀ d, n.decoded? = some d → ∀ f ∈ d.fields,
    (∀ name, f.name = .text name → name.OneLine) ∧ f.label.OneLine ∧ f.value.OneLine
  error : ∀ e, n.error? = some e → e.describe.OneLine
  reason : ∀ reason, n.invocation.ending = some (.failed reason) → reason.OneLine

/-- Whether no text that comes with a transaction has a line feed. -/
structure DecodedTransaction.Unbroken (t : DecodedTransaction) : Prop where
  signature : t.source.signature.plain.OneLine
  status : ∀ error, t.source.status.error? = some error → error.OneLine
  logs : ∀ entry ∈ t.source.logs, entry.plain.OneLine
  warnings : ∀ w ∈ t.forest.warnings, w.text.OneLine
  nodes : ∀ n ∈ t.forest.walk, n.Unbroken

namespace Report

open Fallible

/-- Whether no label in a style has a line feed. -/
def Style.Unbroken (style : Style) : Prop :=
  ∀ key label, style.labels.get? key = some label → label.OneLine

variable {style : Style} {deltas : Option Deltas} {n : Node}

theorem Style.Unbroken.label? (h : style.Unbroken) {key : Pubkey} {label : Text}
    (hlabel : style.label? key = some label) : label.OneLine := by
  unfold Style.label? at hlabel
  split at hlabel
  · next given hgiven =>
    split at hlabel
    · exact Pubkey.oneLine_knownLabel? hlabel
    · obtain rfl := Option.some.inj hlabel
      exact h key given hgiven
  · exact Pubkey.oneLine_knownLabel? hlabel

theorem oneLine_payloadName (h : n.Unbroken) : (payloadName n).OneLine := by
  unfold payloadName
  split
  · next d hd => exact h.name d (by rw [Node.decoded?, hd])
  · next e he =>
    have hreason : e.describe.OneLine := h.error e (by rw [Node.error?, he])
    exact oneLine_between (by decide) hreason (by decide)
  · decide

theorem oneLine_failureMark (h : n.Unbroken) : (failureMark n).OneLine := by
  unfold failureMark
  split
  · next reason hfailed =>
    have hreason : reason.OneLine := h.reason reason hfailed
    exact oneLine_append (by decide) (oneLine_append (by decide) hreason)
  · decide

theorem oneLine_title (h : n.Unbroken) : (title n).OneLine := by
  have hpath : n.pathText.OneLine := by
    apply oneLine_join (by decide)
    rw [List.forall_mem_map]
    exact fun i _ => Decimal.oneLine_ofNat i
  simp only [title, List.append_assoc, oneLine_append_iff]
  exact ⟨by decide, hpath, by decide, h.label, by decide, oneLine_payloadName h,
    oneLine_failureMark h⟩

theorem oneLine_getD {label : Option Text} {other : Text} (h : ∀ t, label = some t → t.OneLine)
    (hother : other.OneLine) : (label.getD other).OneLine := by
  cases label with
  | none => exact hother
  | some t => exact h t rfl

theorem oneLine_changeText {d : AccountDelta} {change : Text} (h : d.changeText = .ok change) :
    change.OneLine := by
  have htag : d.tag.OneLine := by
    unfold AccountDelta.tag
    split <;> decide
  obtain ⟨-, rfl⟩ := AccountDelta.changeText_eq_ok_iff.mp h
  have hamount := @Decimal.not_mem_changeDigits d.change '\n' (by decide) (by decide)
  exact oneLine_append (oneLine_ofChars_iff.mpr hamount) htag

theorem oneLine_ownerName (hstyle : style.Unbroken) (owner : Option Pubkey) :
    (ownerName style owner).OneLine := by
  cases owner with
  | none => exact oneLine_ofChars_iff.mpr (by decide)
  | some owner => exact oneLine_getD (fun _ => hstyle.label?) owner.oneLine_text

theorem oneLine_lengthText {length? : Option Int} {text : Text}
    (h : lengthText length? = .ok text) :
    text.OneLine := by
  cases length? with
  | none =>
      obtain rfl := Except.ok.inj h
      decide
  | some length =>
      obtain ⟨-, rfl⟩ := Decimal.written_eq_ok_iff.mp h
      exact Decimal.oneLine_grouped length

theorem oneLine_states (hstyle : style.Unbroken) {key : Pubkey} {cells : List Text}
    (h : states style deltas key = .ok cells) : ∀ cell ∈ cells, Text.OneLine cell := by
  cases deltas with
  | none =>
      obtain rfl := Except.ok.inj h
      exact List.forall_mem_nil _
  | some known =>
      simp only [states] at h
      cases hd : known.get? key with
      | none =>
          rw [hd] at h
          obtain rfl := Except.ok.inj h
          decide
      | some d =>
          rw [hd] at h
          obtain ⟨-, length, change, hlength, hchange, rfl⟩ := stateCells_eq_ok_iff.mp h
          simp only [List.forall_mem_cons]
          exact ⟨oneLine_ownerName hstyle _, oneLine_lengthText hlength, Decimal.oneLine_grouped _,
            oneLine_changeText hchange, List.forall_mem_nil _⟩

theorem oneLine_accountName (hstyle : style.Unbroken) (hn : n.Unbroken) {i : Nat} {key : Pubkey}
    {name : Text} (h : accountName style n i key = .text name) : name.OneLine := by
  unfold accountName at h
  split at h
  · next given hgiven =>
    obtain ⟨accounts, haccounts, hget⟩ := Option.bind_eq_some_iff.mp hgiven
    obtain ⟨d, hd, rfl⟩ := Option.map_eq_some_iff.mp haccounts
    exact hn.accounts d hd name (h ▸ List.mem_of_getElem? hget)
  · obtain rfl := Json.text.inj h
    exact oneLine_getD (fun _ => hstyle.label?) (by decide)

theorem oneLine_flags (a : AccountMeta) : (flags a).OneLine := by
  unfold flags
  split <;> split <;> decide

theorem oneLine_accountRow (hstyle : style.Unbroken) (hn : n.Unbroken) {item : AccountMeta × Nat}
    {row : List Json} (h : accountRow style n deltas item = .ok row) :
    ∀ t, Json.text t ∈ row → t.OneLine := by
  obtain ⟨cells, hcells, rfl⟩ := map_eq_ok.mp h
  intro t ht
  rcases List.mem_append.mp ht with ht | ht
  · simp only [List.mem_cons, Json.text.injEq, List.not_mem_nil, or_false] at ht
    rcases ht with rfl | rfl | rfl | ht
    · exact Decimal.oneLine_ofNat item.2
    · exact item.1.pubkey.oneLine_text
    · exact oneLine_flags item.1
    · exact oneLine_accountName hstyle hn ht.symm
  · obtain ⟨cell, hcell, hsame⟩ := List.mem_map.mp ht
    exact Json.text.inj hsame ▸ oneLine_states hstyle hcells cell hcell

theorem oneLine_accountLines (hstyle : style.Unbroken) (hn : n.Unbroken) {lines : List Text}
    (h : accountLines style deltas n = .ok lines) : ∀ line ∈ lines, Text.OneLine line := by
  simp only [accountLines] at h
  split at h
  · obtain rfl := Except.ok.inj h
    exact List.forall_mem_nil _
  · obtain ⟨table, htable, rfl⟩ := map_eq_ok.mp h
    obtain ⟨rows, hrows, htable⟩ := bind_eq_ok.mp htable
    have hheading : Text.OneLine ("Accounts (" ++ Decimal.ofNat n.instruction.accounts.length ++
        ")") :=
      oneLine_between (by decide) (Decimal.oneLine_ofNat _) (by decide)
    have hheaders : ∀ header ∈ accountHeaders deltas, header.OneLine := by
      cases deltas with
      | none => decide
      | some known =>
          rw [accountHeaders]
          decide
    refine List.forall_mem_cons.mpr ⟨hheading,
      Table.oneLine_of_mem_ofCells htable hheaders fun row hrow => ?_⟩
    obtain ⟨item, -, hitem⟩ := exists_of_mem_mapM hrows row hrow
    exact oneLine_accountRow hstyle hn hitem

theorem oneLine_fieldTable {fields : List DecodedField} (hfields : ∀ f ∈ fields,
      (∀ name, f.name = .text name → name.OneLine) ∧ f.label.OneLine ∧ f.value.OneLine)
    {lines : List Text} (h : fieldTable fields = .ok lines) :
    ∀ line ∈ lines, Text.OneLine line := by
  have htable : Table.ofCells ((["Field", "Type", "Value"] : List Text).map .text)
    (fields.map fun f => [f.name, .text f.label, .text f.value]) [] = .ok lines := h
  refine Table.oneLine_of_mem_ofCells htable (by decide) ?_
  rw [List.forall_mem_map]
  intro f hf t ht
  obtain ⟨hname, hlabel, hvalue⟩ := hfields f hf
  simp only [List.mem_cons, Json.text.injEq, List.not_mem_nil, or_false] at ht
  rcases ht with ht | rfl | rfl
  · exact hname t ht.symm
  · exact hlabel
  · exact hvalue

theorem oneLine_rawData (hn : n.Unbroken) : ∀ line ∈ rawData style n, Text.OneLine line := by
  have hreason : ((n.error?.map DecodeError.describe).getD "not decoded").OneLine := by
    refine oneLine_getD (fun t ht => ?_) (by decide)
    obtain ⟨e, he, rfl⟩ := Option.map_eq_some_iff.mp ht
    exact hn.error e he
  simp only [rawData, List.forall_mem_cons, List.forall_mem_append, List.cons_append,
    List.forall_mem_map]
  refine ⟨oneLine_between (oneLine_between (by decide) (Decimal.oneLine_ofNat _) (by decide))
    hreason (by decide), fun row _ => oneLine_append (by decide) row.oneLine_toHex, ?_⟩
  split
  · exact List.forall_mem_nil _
  · rw [List.forall_mem_singleton]
    exact oneLine_between (by decide) (Decimal.oneLine_ofNat _) (by decide)

theorem oneLine_payloadLines (hn : n.Unbroken) {lines : List Text}
    (h : payloadLines style n = .ok lines) : ∀ line ∈ lines, Text.OneLine line := by
  unfold payloadLines at h
  split at h
  · next d hd =>
    split at h
    · obtain rfl := Except.ok.inj h
      exact List.forall_mem_nil _
    · obtain ⟨table, htable, rfl⟩ := map_eq_ok.mp h
      exact List.forall_mem_cons.mpr ⟨by decide, oneLine_fieldTable (hn.fields d hd) htable⟩
  · obtain rfl := Except.ok.inj h
    exact oneLine_rawData hn

theorem oneLine_body (hstyle : style.Unbroken) (hn : n.Unbroken) {lines : List Text}
    (h : body style deltas n = .ok lines) : ∀ line ∈ lines, Text.OneLine line := by
  obtain ⟨accounts, payload, haccounts, hpayload, rfl⟩ := body_eq_ok_iff.mp h
  exact List.forall_mem_append.mpr
    ⟨oneLine_accountLines hstyle hn haccounts, oneLine_payloadLines hn hpayload⟩

theorem oneLine_solText {lamports places : Int} {t : Text}
    (h : Amount.solText lamports places = .ok t) : t.OneLine := by
  unfold Amount.solText at h
  split at h
  · cases h
  · split at h
    · obtain rfl := Except.ok.inj h
      rw [oneLine_ofChars_iff, List.mem_append, not_or]
      exact ⟨Decimal.not_mem_sign _, Decimal.not_mem_pointed _ _⟩
    · cases h

theorem oneLine_status {status : TransactionStatus}
    (h : ∀ error, status.error? = some error → error.OneLine) : status.text.OneLine := by
  match status with
  | .success => decide
  | .failed none => decide
  | .failed (some error) =>
      rw [TransactionStatus.text]
      split
      · decide
      · exact oneLine_append (by decide) (h error rfl)

theorem oneLine_reportName {number : Option Int} {name : Text} (h : reportName number = .ok name) :
    name.OneLine := by
  cases number with
  | none =>
      obtain rfl := Except.ok.inj h
      decide
  | some n =>
      rw [reportName] at h
      obtain ⟨written, hwritten, rfl⟩ := map_eq_ok.mp h
      obtain ⟨-, rfl⟩ := Decimal.written_eq_ok_iff.mp hwritten
      exact oneLine_append (by decide) (Decimal.oneLine_ofInt n)

theorem oneLine_header {t : DecodedTransaction} (ht : t.Unbroken) {number : Option Int}
    {head : List Text} (h : header t number = .ok head) : ∀ line ∈ head, Text.OneLine line := by
  obtain ⟨-, -, -, name, fee, hname, hfee, rfl⟩ := header_eq_ok_iff.mp h
  simp only [List.forall_mem_cons, List.append_assoc, oneLine_append_iff]
  refine ⟨?_, ?_, List.forall_mem_nil _⟩
  · exact ⟨oneLine_reportName hname, by decide, ht.signature, by decide, Decimal.oneLine_ofInt _,
      by decide, oneLine_status ht.status⟩
  · exact ⟨by decide, oneLine_solText hfee, by decide, Decimal.oneLine_grouped _, by decide,
      Decimal.oneLine_grouped _, by decide⟩

theorem oneLine_of_isLead {lead : Text} (h : IsLead lead) : lead.OneLine :=
  oneLine_of_forall h (by decide)

theorem Draws.oneLine (hstyle : style.Unbroken) (hn : n.Unbroken) {full : Bool}
    {lines : List Text} (h : Draws (shownBody style deltas full) n lines) :
    ∀ line ∈ lines, Text.OneLine line := by
  obtain ⟨lead, mark, below, hlead, hmark, -, hbelow, rfl⟩ := h
  have hsaid : ∀ line ∈ below, Text.OneLine line := by
    cases full with
    | false =>
        obtain rfl := Except.ok.inj hbelow
        exact List.forall_mem_nil _
    | true => exact oneLine_body hstyle hn hbelow
  rw [List.forall_mem_cons, List.forall_mem_map]
  exact ⟨oneLine_append (oneLine_of_isLead hlead) (oneLine_title hn), fun line hline =>
    oneLine_append (oneLine_of_isLead hmark) (hsaid line hline)⟩

theorem oneLine_forestLines (hstyle : style.Unbroken) {trees : List (Tree Node)} {full : Bool}
    (hn : ∀ n ∈ Tree.preorderAll trees, n.Unbroken) {lines : List Text}
    (h : forestLines (shownBody style deltas full) trees = .ok lines) :
    ∀ line ∈ lines, Text.OneLine line := by
  obtain ⟨blocks, hblocks, hdraws⟩ := draws_of_forestLines h
  -- the blocks are all lines but the empty ones between trees
  have hdrawn : ∀ line ∈ blocks.flatten, Text.OneLine line := by
    generalize Tree.preorderAll trees = nodes at hn hdraws
    clear hblocks
    induction hdraws with
    | nil => exact List.forall_mem_nil _
    | cons hdraw _ ih =>
        rw [List.forall_mem_cons] at hn
        exact List.forall_mem_append.mpr ⟨hdraw.oneLine hstyle hn.1, ih hn.2⟩
  intro line hline
  by_cases hempty : line = []
  · rw [hempty]
    exact oneLine_nil
  · exact hdrawn line (hblocks ▸ List.mem_filter.mpr ⟨hline, by simpa using hempty⟩)

theorem oneLine_sections (hstyle : style.Unbroken) {t : DecodedTransaction} (ht : t.Unbroken)
    {number : Option Int} {full : Bool} {parts : List (List Text)}
    (h : sections style t number full deltas = .ok parts) :
    ∀ part ∈ parts, ∀ line ∈ part, Text.OneLine line := by
  obtain ⟨head, tree, hhead, htree, rfl⟩ := sections_eq_ok_iff.mp h
  have hcount : Text.OneLine ("Instructions (" ++ Decimal.ofNat t.forest.trees.length ++ ")") :=
    oneLine_between (by decide) (Decimal.oneLine_ofNat _) (by decide)
  have hwarnings : ∀ part ∈ warningSection t, ∀ line ∈ part, Text.OneLine line := by
    unfold warningSection
    split
    · exact List.forall_mem_nil _
    · rw [List.forall_mem_singleton, List.forall_mem_cons, List.forall_mem_map]
      exact ⟨by decide, fun w hw => oneLine_append (by decide) (ht.warnings w hw)⟩
  have hlog : ∀ part ∈ logSection style t full, ∀ line ∈ part, Text.OneLine line := by
    unfold logSection
    split
    · rw [List.forall_mem_singleton, List.forall_mem_cons, List.forall_mem_map]
      exact ⟨oneLine_between (by decide) (Decimal.oneLine_ofNat _) (by decide), ht.logs⟩
    · exact List.forall_mem_nil _
  simp only [List.forall_mem_append, List.forall_mem_cons]
  exact ⟨⟨⟨oneLine_header ht hhead, ⟨hcount, oneLine_forestLines hstyle ht.nodes htree⟩,
    List.forall_mem_nil _⟩, hwarnings⟩, hlog⟩

/-! ## Reports -/

/-- A report that is not empty is bordered where each line of its sections stays inside. This is so
where no text that it shows has a line feed, and then its lines are those of its block. -/
theorem isBordered_render {style : Style} {t : DecodedTransaction} {number : Option Int}
    {asked : Option Verbosity} {deltas : Option Deltas} {text : Text}
    (h : render style t number asked deltas = .ok text) (hne : text ≠ []) :
    ∃ parts, sections style t number (style.level t asked == .full) (deltas <|> t.deltas) =
        .ok parts ∧
      (IsBordered text ↔ ∀ part ∈ parts, ∀ line ∈ part, StaysInside line) ∧
      (style.Unbroken → t.Unbroken → text.lines = block parts ++ [[]] ∧ IsBordered text) := by
  rcases render_eq_ok_iff.mp h with ⟨-, hempty⟩ | ⟨-, parts, hparts, rfl⟩
  · exact absurd hempty hne
  refine ⟨parts, hparts, isBordered_block_iff, fun hstyle ht => ?_⟩
  have hlines := oneLine_sections hstyle ht hparts
  refine ⟨lines_block_of_oneLine hlines, isBordered_block_iff.mpr fun part hpart line hline => ?_⟩
  exact staysInside_of_oneLine (hlines part hpart line hline)

/-- The node of a memo. -/
def memoNode : Node where
  path := [1]
  label := "Memo Program"
  invocation := { id := 0, instruction := ⟨Pubkey.zero, [], []⟩, depth := 0, top := 0 }
  outcome := some (.ok ⟨"Memo Program", "memo", [⟨"text", "string", "paid"⟩], []⟩)

/-- A transaction that has failed after a memo. -/
def memoTransaction : DecodedTransaction :=
  ⟨{ signature := "5Nf", logs := ["Program log: paid"], status := .failed none },
    ⟨[.leaf memoNode], []⟩, none⟩

theorem isBordered_render_memo : ∃ text, render {} memoTransaction (some 1) none none = .ok text ∧
    text ≠ [] ∧ memoTransaction.Unbroken ∧ IsBordered text := by
  have hdrawable : IsDrawable {} none memoNode :=
    ⟨List.forall_mem_nil _, List.forall_mem_nil _, by rintro d ⟨⟩; simp⟩
  have hnode : memoNode.Unbroken :=
    ⟨by decide, by rintro d ⟨⟩; decide, by rintro d ⟨⟩ name ⟨⟩,
      by rintro d ⟨⟩; simp; decide, by rintro e ⟨⟩, by rintro reason ⟨⟩⟩
  have hheader : HasHeader memoTransaction.source (some 1) := by decide +kernel
  obtain ⟨text, htext⟩ : ∃ text, render {} memoTransaction (some 1) none none = .ok text :=
    exists_render_iff.mpr fun _ =>
      ⟨hheader, by decide, fun _ => List.forall_mem_singleton.mpr hdrawable⟩
  have hne : text ≠ [] := ne_nil_of_render htext (by decide)
  have hstyle : Style.Unbroken {} := by
    rintro key label ⟨⟩
  have ht : memoTransaction.Unbroken :=
    ⟨by decide, by rintro error ⟨⟩, by decide, by decide, List.forall_mem_singleton.mpr hnode⟩
  obtain ⟨parts, -, -, hbordered⟩ := isBordered_render htext hne
  exact ⟨text, htext, hne, ht, (hbordered hstyle ht).2⟩

/-- A transaction without instructions, with a line feed in its log. -/
def brokenTransaction : Transaction :=
  { signature := "5Nf", logs := ["Program log: a\nb"] }

/-- A line feed in a log line breaks the border. -/
theorem not_isBordered_broken_log : ∃ log text, brokenTransaction.decode {} none none = .ok log ∧
    render {} log (some 1) (some .full) none = .ok text ∧ text ≠ [] ∧ ¬ IsBordered text := by
  have hreadable : ∃ marker, Marker.ofLine "Program log: a\nb" = .ok marker := ⟨none, rfl⟩
  have hentries : ∀ entry ∈ brokenTransaction.logs,
      ∃ line, entry = .text line ∧ ¬ Marker.IsOverlong line :=
    List.forall_mem_singleton.mpr ⟨_, rfl, Marker.exists_ofLine_iff.mp hreadable⟩
  obtain ⟨log, hlog⟩ : ∃ log, brokenTransaction.decode {} none none = .ok log :=
    (Transaction.exists_decode_iff (List.forall_mem_nil _)).mpr
      ⟨hentries, List.forall_mem_nil _, List.forall_mem_nil _, List.forall_mem_nil _⟩
  obtain ⟨hforest, hsource, -⟩ := Transaction.decode_eq_ok_iff.mp hlog
  have htrees : log.forest.trees = [] :=
    List.map_eq_nil_iff.mp (preorder_tree_of_decodeForest hforest)
  obtain ⟨source, ⟨trees, warnings⟩, deltas⟩ := log
  obtain rfl : source = brokenTransaction := hsource
  obtain rfl : trees = [] := htrees
  have hheader : HasHeader brokenTransaction (some 1) := by decide +kernel
  obtain ⟨text, htext⟩ : ∃ text, render {} ⟨brokenTransaction, ⟨[], warnings⟩, deltas⟩ (some 1)
      (some .full) none = .ok text :=
    exists_render_iff.mpr fun _ => ⟨hheader, Nat.zero_le _, fun _ => List.forall_mem_nil _⟩
  refine ⟨_, text, hlog, htext, ne_nil_of_render htext (by rintro ⟨⟩), ?_⟩
  rcases render_eq_ok_iff.mp htext with ⟨hquiet, -⟩ | ⟨-, parts, hparts, rfl⟩
  · cases hquiet
  · obtain ⟨head, tree, -, -, rfl⟩ := sections_eq_ok_iff.mp hparts
    rw [isBordered_block_iff]
    intro h
    have hbroken : ¬ StaysInside "Program log: a\nb" := by decide
    refine hbroken (h _ (List.mem_append_right _ List.mem_cons_self) _ ?_)
    exact List.mem_cons_of_mem _ List.mem_cons_self

end Report

end SolanaTx
