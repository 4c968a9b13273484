import Mathlib.Data.List.Basic
import SolanaTx.Proofs.Text.Word
import SolanaTx.Report.Render

/-!
# Raw data of a report

The payload of a node that was not decoded is shown in hexadecimal, in lines of 32 bytes. Whoever
copies these lines has the first bytes of the payload again, and what is left out is counted.
-/

namespace SolanaTx

namespace Bytes

/-! ## Rows -/

variable {size count : Nat} {data : Bytes}

/-- Rows that have room for all bytes are these bytes. -/
theorem flatten_rows (hroom : data.length ≤ count * size) :
    (rows size count data).flatten = data := by
  induction count generalizing data with
  | zero =>
      rw [Nat.zero_mul, Nat.le_zero_eq, List.length_eq_zero_iff] at hroom
      rw [hroom]
      rfl
  | succ count ih =>
      rw [Nat.succ_mul] at hroom
      have hrest : (data.drop size).length ≤ count * size := by
        rw [List.length_drop]
        omega
      rw [rows, List.flatten_cons, ih hrest, List.take_append_drop]

/-- Where no row is superfluous, all but the last are full, and the last is not empty. -/
theorem length_of_rows (hsize : 0 < size) (hneeded : count * size < data.length + size) :
    (∀ row ∈ (rows size count data).dropLast, row.length = size) ∧
      ∀ row ∈ (rows size count data).getLast?, 1 ≤ row.length ∧ row.length ≤ size := by
  induction count generalizing data with
  | zero => exact ⟨List.forall_mem_nil _, nofun⟩
  | succ count ih =>
      rw [Nat.succ_mul] at hneeded
      have hfirst : (data.take size).length = min size data.length := List.length_take
      cases count with
      | zero =>
          refine ⟨List.forall_mem_nil _, ?_⟩
          intro row hrow
          obtain rfl : data.take size = row := Option.some.inj hrow
          omega
      | succ count =>
          rw [Nat.succ_mul] at hneeded
          have hrest : (count + 1) * size < (data.drop size).length + size := by
            rw [Nat.succ_mul, List.length_drop]
            omega
          obtain ⟨hfull, hlast⟩ := ih hrest
          refine ⟨?_, hlast⟩
          rw [rows, rows, List.dropLast_cons_cons, List.forall_mem_cons]
          exact ⟨by omega, hfull⟩

theorem rows_eq_nil_iff : rows size count data = [] ↔ count = 0 := by
  cases count with
  | zero => exact ⟨fun _ => rfl, fun _ => rfl⟩
  | succ count => exact ⟨nofun, nofun⟩

/-! ## Hexadecimal text -/

theorem ofHex?_toHex (data : Bytes) : ofHex? (toHex data) = some data := by
  rw [ofHex?, toHex, Text.chars?_ofChars, Option.bind_some, ofHexDigits?_hexDigits]

theorem toHex_append (data more : Bytes) : toHex (data ++ more) = toHex data ++ toHex more := by
  induction data with
  | nil => rfl
  | cons b rest ih =>
      rw [toHex, toHex, Text.ofChars, Text.ofChars] at ih
      rw [List.cons_append, toHex, toHex, Text.ofChars, Text.ofChars, hexDigits, hexDigits]
      simp only [List.map_cons, List.cons_append, ih]

theorem flatten_map_toHex (parts : List Bytes) :
    (parts.map toHex).flatten = toHex parts.flatten := by
  induction parts with
  | nil => rfl
  | cons part rest ih => rw [List.map_cons, List.flatten_cons, List.flatten_cons, toHex_append, ih]

/-- What starts with another character than a digit is no hexadecimal text. -/
theorem ofHex?_eq_none_of_head {c : Char} (hc : hexValue? c = none) (rest : Text) :
    ofHex? (.char c :: rest) = none := by
  rw [ofHex?, Text.chars?, List.mapM_cons]
  cases hrest : rest.mapM CodePoint.char? with
  | none => rfl
  | some cs =>
      change ofHexDigits? (c :: cs) = none
      cases cs with
      | nil => rfl
      | cons d cs => rw [ofHexDigits?, hc]

end Bytes

namespace Report

open Bytes

/-! ## Lines of raw data -/

/-- The first line, which says how many bytes there are. -/
def headLine (length : Nat) (reason : Text) : Text :=
  "Raw data (" ++ Decimal.ofNat length ++ " bytes, " ++ reason ++ ")"

/-- A line that shows bytes. -/
def hexLine (row : Bytes) : Text :=
  Text.ofString "  " ++ row.toHex

/-- The line that says how many bytes are not shown. -/
def moreLine (hidden : Nat) : Text :=
  "  … " ++ Decimal.ofNat hidden ++ " more bytes"

/-- The digits of a line that shows bytes, as they stand behind two blanks. -/
def hexPart? (line : Text) : Option Text :=
  if line.take 2 = Text.ofString "  " ∧ (ofHex? (line.drop 2)).isSome then some (line.drop 2)
  else none

/-- The digits of all lines that show bytes. -/
def hexParts (lines : List Text) : List Text :=
  lines.filterMap hexPart?

/-- How many bytes a hexadecimal text writes. -/
def byteCount? (t : Text) : Option Nat :=
  (ofHex? t).map List.length

/-- How many bytes of a payload are shown: all of them where the limit is 0. -/
def shownLength (limit : Int) (length : Nat) : Nat :=
  if limit = 0 then length else min limit.toNat length

/-- Whether lines show the first bytes of a payload in hexadecimal, 32 in a line, and say how many
bytes there are and how many are left out. -/
structure ShowsData (data : Bytes) (shown : Nat) (lines : List Text) : Prop where
  head : ∃ reason, lines.head? = some (headLine data.length reason)
  joined : ofHex? (hexParts lines).flatten = some (data.take shown)
  full : ∀ part ∈ (hexParts lines).dropLast, byteCount? part = some 32
  last : ∀ part ∈ (hexParts lines).getLast?, ∃ size, byteCount? part = some size ∧
    1 ≤ size ∧ size ≤ 32
  none_iff : hexParts lines = [] ↔ shown = 0
  more_iff : ∀ hidden, moreLine hidden ∈ lines ↔ 0 < hidden ∧ hidden = data.length - shown

theorem byteCount?_toHex (row : Bytes) : byteCount? row.toHex = some row.length := by
  rw [byteCount?, ofHex?_toHex, Option.map_some]

theorem hexPart?_hexLine (row : Bytes) : hexPart? (hexLine row) = some row.toHex := by
  have hdrop : (hexLine row).drop 2 = row.toHex := rfl
  rw [hexPart?, hdrop, ofHex?_toHex]
  exact if_pos ⟨rfl, rfl⟩

theorem hexPart?_headLine (length : Nat) (reason : Text) :
    hexPart? (headLine length reason) = none := by
  refine if_neg ?_
  rintro ⟨hblanks, -⟩
  have hletters : (headLine length reason).take 2 = Text.ofString "Ra" := rfl
  rw [hletters] at hblanks
  exact absurd hblanks (by decide)

theorem hexPart?_moreLine (hidden : Nat) : hexPart? (moreLine hidden) = none := by
  refine if_neg ?_
  rintro ⟨-, hhex⟩
  have hdots : (moreLine hidden).drop 2 = .char '…' ::
      (Text.ofString " " ++ Decimal.ofNat hidden ++ Text.ofString " more bytes") := rfl
  rw [hdots, ofHex?_eq_none_of_head (by decide)] at hhex
  cases hhex

theorem moreLine_injective {m n : Nat} (h : moreLine m = moreLine n) : m = n := by
  have hnumerals := List.append_cancel_right h
  exact Text.ofNat_injective (List.append_cancel_left hnumerals)

/-! ## What they say -/

/-- The lines of some bytes that are shown and a number of others. -/
def dataLines (length : Nat) (reason : Text) (rows : List Bytes) (hidden : Nat) : List Text :=
  headLine length reason :: rows.map hexLine ++ if hidden = 0 then [] else [moreLine hidden]

theorem hexParts_dataLines (length : Nat) (reason : Text) (rows : List Bytes) (hidden : Nat) :
    hexParts (dataLines length reason rows hidden) = rows.map toHex := by
  have hrows : (rows.map hexLine).filterMap hexPart? = rows.map toHex := by
    rw [List.filterMap_map, List.filterMap_eq_map_iff_forall_eq_some]
    exact fun row _ => hexPart?_hexLine row
  rw [hexParts, dataLines, List.cons_append, List.filterMap_cons_none (hexPart?_headLine _ _),
    List.filterMap_append, hrows]
  split
  · rw [List.filterMap_nil, List.append_nil]
  · rw [List.filterMap_cons_none (hexPart?_moreLine _), List.filterMap_nil, List.append_nil]

/-- A line of digits says nothing of bytes that are not shown, and neither does the first line. -/
theorem moreLine_mem_dataLines {length : Nat} {reason : Text} {rows : List Bytes} {m hidden : Nat} :
    moreLine m ∈ dataLines length reason rows hidden ↔ 0 < m ∧ m = hidden := by
  have hhead : moreLine m ≠ headLine length reason := by
    intro heq
    have hfirst : some (CodePoint.char ' ') = some (CodePoint.char 'R') := congrArg List.head? heq
    exact absurd hfirst (by decide)
  have hrows : moreLine m ∉ rows.map hexLine := by
    intro hmem
    obtain ⟨row, -, heq⟩ := List.mem_map.mp hmem
    have hpart := hexPart?_moreLine m
    rw [← heq, hexPart?_hexLine] at hpart
    cases hpart
  rw [dataLines, List.cons_append, List.mem_cons, List.mem_append]
  simp only [hhead, hrows, false_or]
  split
  · next hzero =>
    refine ⟨nofun, ?_⟩
    rintro ⟨hpos, rfl⟩
    omega
  · next hpos =>
    rw [List.mem_singleton]
    constructor
    · intro heq
      obtain rfl := moreLine_injective heq
      exact ⟨Nat.pos_of_ne_zero hpos, rfl⟩
    · rintro ⟨-, rfl⟩
      rfl

theorem showsData_dataLines {data : Bytes} {shown : Nat} (reason : Text)
    (hshown : shown ≤ data.length) :
    ShowsData data shown (dataLines data.length reason
      (rows bytesPerLine ((shown + bytesPerLine - 1) / bytesPerLine) (data.take shown))
      (data.length - shown)) := by
  have hlength : (data.take shown).length = shown := List.length_take_of_le hshown
  have hneeded : (shown + bytesPerLine - 1) / bytesPerLine * bytesPerLine <
      (data.take shown).length + bytesPerLine := by
    rw [hlength, bytesPerLine]
    omega
  obtain ⟨hfull, hlast⟩ := length_of_rows (by decide) hneeded
  constructor
  · exact ⟨reason, rfl⟩
  · rw [hexParts_dataLines, flatten_map_toHex, ofHex?_toHex, flatten_rows]
    rw [hlength, bytesPerLine]
    omega
  · rw [hexParts_dataLines, ← List.map_dropLast, List.forall_mem_map]
    intro row hrow
    rw [byteCount?_toHex, hfull row hrow]
    rfl
  · rw [hexParts_dataLines, List.getLast?_map]
    intro part hpart
    obtain ⟨row, hrow, rfl⟩ := Option.map_eq_some_iff.mp hpart
    exact ⟨_, byteCount?_toHex row, hlast row hrow⟩
  · rw [hexParts_dataLines, List.map_eq_nil_iff, rows_eq_nil_iff, bytesPerLine]
    omega
  · intro hidden
    exact moreLine_mem_dataLines

/-! ## Nodes that were not decoded -/

variable {style : Style} {n : Node}

theorem shownBytes_eq {limit : Int} (hlimit : 0 ≤ limit) (data : Bytes) :
    shownBytes limit data = data.take (shownLength limit data.length) := by
  unfold shownBytes shownLength
  split
  · exact List.take_length.symm
  · rw [before, position, if_neg (by omega)]

theorem shownLength_le (limit : Int) (length : Nat) : shownLength limit length ≤ length := by
  unfold shownLength
  split
  · exact Nat.le_refl _
  · exact Nat.min_le_right _ _

/-- The report of a node that was not decoded shows as many of its first bytes as the limit lets it,
from which they can be read back, and says how many there are and how many more. -/
theorem payloadLines_shows_bytes (hundecoded : n.decoded? = none)
    (hlimit : 0 ≤ style.settings.maxDataBytes) :
    ∃ lines, payloadLines style n = .ok lines ∧
      ShowsData n.instruction.data
        (shownLength style.settings.maxDataBytes n.instruction.data.length) lines := by
  obtain ⟨data, hdata⟩ : ∃ data, n.instruction.data = data := ⟨_, rfl⟩
  have hle := shownLength_le style.settings.maxDataBytes data.length
  have hlines : ∃ reason, rawData style n = dataLines data.length reason
      (rows bytesPerLine
        ((shownLength style.settings.maxDataBytes data.length + bytesPerLine - 1) / bytesPerLine)
        (data.take (shownLength style.settings.maxDataBytes data.length)))
      (data.length - shownLength style.settings.maxDataBytes data.length) := by
    refine ⟨(n.error?.map DecodeError.describe).getD "not decoded", ?_⟩
    rw [rawData, hdata, shownBytes_eq hlimit, List.length_take_of_le hle]
    rfl
  obtain ⟨reason, hlines⟩ := hlines
  refine ⟨rawData style n, ?_, ?_⟩
  · rw [payloadLines, hundecoded]
  · rw [hlines, hdata]
    exact showsData_dataLines reason hle

/-- A payload of 65 bytes that no decoder is registered for. -/
def unknownNode : Node where
  path := [1]
  label := "Unknown Program"
  invocation :=
    { id := 0, instruction := ⟨Pubkey.zero, List.replicate 65 0xAB, []⟩, depth := 0, top := 0 }
  outcome := some (.error (.unknownProgram Pubkey.zero))

/-- With a limit of 40 bytes there are a full line, one of eight bytes and 25 more bytes. -/
theorem payloadLines_shows_bytes_cut :
    ∃ (style : Style) (lines : List Text), style.settings.maxDataBytes = 40 ∧
      unknownNode.decoded? = none ∧ payloadLines style unknownNode = .ok lines ∧
      ShowsData (List.replicate 65 0xAB) 40 lines ∧ moreLine 25 ∈ lines := by
  obtain ⟨style, hstyle⟩ : ∃ style : Style, style.settings.maxDataBytes = 40 :=
    ⟨{ settings := { maxDataBytes := 40 } }, rfl⟩
  have hundecoded : unknownNode.decoded? = none := rfl
  have hlimit : 0 ≤ style.settings.maxDataBytes := by omega
  obtain ⟨lines, hlines, hshows⟩ := payloadLines_shows_bytes hundecoded hlimit
  rw [hstyle] at hshows
  exact ⟨style, lines, hstyle, hundecoded, hlines, hshows, (hshows.more_iff 25).mpr (by decide)⟩

end Report

end SolanaTx
