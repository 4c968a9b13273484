import SolanaTx.Proofs.Invocation.Conservation
import SolanaTx.Transaction.Basic

/-!
# Decoding transactions

A transaction is decoded where its log can be read, each of its payloads has an outcome, and
the parents of its orphans can be written.
-/

namespace SolanaTx

open Fallible

/-- A log is read to its end where each entry is a text that is no overlong start. -/
theorem Log.fault_ofEntries_eq_none_iff {entries : List Json} :
    (ofEntries entries).fault = none ↔
      ∀ entry ∈ entries, ∃ line, entry = .text line ∧ ¬ Marker.IsOverlong line := by
  induction entries with
  | nil => simp [ofEntries]
  | cons entry rest ih =>
      have hentry : (∃ m, Log.marker entry = .ok m) ↔
          ∃ line, entry = .text line ∧ ¬ Marker.IsOverlong line := by
        cases entry with
        | text line => simp [Log.marker, Marker.exists_ofLine_iff]
        | null | bool | int | real | list | object => simp [Log.marker]
      rw [List.forall_mem_cons, ← ih, ← hentry, ofEntries]
      cases Log.marker entry with
      | error fault => simp
      | ok m => simp

namespace Transaction

variable {t : Transaction} {r : Registry} {pre post : Option Snapshots} {log : DecodedTransaction}

/-- What a transaction needs so that it can be decoded. -/
structure IsDecodable (t : Transaction) (r : Registry) : Prop where
  readable : ∀ entry ∈ t.logs, ∃ line, entry = .text line ∧ ¬ Marker.IsOverlong line
  instructions : ∀ instruction ∈ t.instructions, r.Answers instruction
  calls : ∀ call ∈ t.inner, ¬ call.IsOrphan t.instructions.length → r.Answers call.instruction
  orphans : ∀ call ∈ t.inner, call.IsOrphan t.instructions.length →
    Decimal.isWritable (call.parent + 1)

theorem decode_eq_ok_iff :
    t.decode r pre post = .ok log ↔
      decodeForest r t.instructions t.inner (.ofEntries t.logs) = .ok log.forest ∧
        log.source = t ∧ log.deltas = pre.bind fun pre => post.map fun post => pre.diff post := by
  obtain ⟨source, forest, deltas⟩ := log
  simp only [decode, bind_eq_ok, pure_eq_ok, DecodedTransaction.mk.injEq]
  constructor
  · rintro ⟨_, hforest, rfl, rfl, rfl⟩
    exact ⟨hforest, rfl, rfl⟩
  · rintro ⟨hforest, rfl, rfl⟩
    exact ⟨forest, hforest, rfl, rfl, rfl⟩

theorem exists_decode_iff (hheights : ∀ call ∈ t.inner, call.height.isUsable) :
    (∃ log, t.decode r pre post = .ok log) ↔ t.IsDecodable r := by
  have hforest : (∃ log, t.decode r pre post = .ok log) ↔
      ∃ f, decodeForest r t.instructions t.inner (.ofEntries t.logs) = .ok f := by
    simp only [decode_eq_ok_iff]
    exact ⟨fun ⟨log, hlog, _⟩ => ⟨log.forest, hlog⟩, fun ⟨f, hf⟩ => ⟨⟨t, f, _⟩, hf, rfl, rfl⟩⟩
  simp only [hforest, decodeForest_eq_ok_iff, exists_and_left, Forest.exists_decode_iff]
  rw [Log.fault_ofEntries_eq_none_iff, forall_walk_decode_iff hheights, forall_isWritable_iff]
  exact ⟨fun ⟨hlog, ⟨hinstructions, hcalls⟩, horphans⟩ =>
    ⟨hlog, hinstructions, hcalls, horphans⟩,
    fun h => ⟨h.readable, ⟨h.instructions, h.calls⟩, h.orphans⟩⟩

/-- What the walk over a decoded transaction lists: each instruction, and the calls of it. -/
theorem map_entry_walk_of_decode (h : t.decode r pre post = .ok log) :
    log.forest.walk.map Node.entry =
      t.instructions.zipIdx.flatMap fun item => entriesOf t.inner item.2 item.1 :=
  map_entry_walk_of_decodeForest (decode_eq_ok_iff.mp h).1

/-- A failed transaction whose program has logged what looks like a start at a depth of 4301
digits. -/
def overlong : Transaction where
  signature := "5Nf"
  instructions := [⟨Pubkey.zero, [], []⟩]
  logs := [.text (Marker.invokeLine "log:" (List.replicate 4301 '1'))]
  status := .failed none

theorem not_exists_decode_overlong : ¬ ∃ log, overlong.decode {} none none = .ok log := by
  rw [exists_decode_iff (List.forall_mem_nil _)]
  intro h
  obtain ⟨line, hline, hreadable⟩ := h.readable _ List.mem_cons_self
  obtain rfl := Json.text.inj hline
  exact hreadable (Marker.isOverlong_invokeLine_replicate ⟨by decide, by decide⟩ (by decide))

end Transaction

end SolanaTx
