import SolanaTx.Proofs.Bytes.Base58
import SolanaTx.Proofs.Bytes.Base64
import SolanaTx.Rpc.Payload

/-!
# Payloads read back

A payload is read as the bytes that were written in base 58, or in base 64 with the encoding beside
it. Some texts write bytes in both. On its own such a text is base 58.
-/

namespace SolanaTx.Rpc

open Bytes

variable {data : Bytes}

/-- No blank is taken from the end of a text without blanks. -/
theorem payload_text {t : Text} (ht : ∀ c ∈ t, Text.isBlank c = false) :
    payload (.text t) =
      if t.isEmpty then .ok [] else readOrFail ((ofBase58? t).or (ofBase64? true t)) := by
  rw [payload, plainPayload, payloadOfText?, Text.trimEnd_eq_self ht]
  · cases ofBase58? t <;> rfl
  · intro data encoding h
    cases h

theorem payload_toBase58 (data : Bytes) : payload (.text (toBase58 data)) = .ok data := by
  have hread := ofBase58?_toBase58 data
  rw [payload_text fun c hc => isBlank_of_mem_toBase58 hc, hread]
  split
  · next hempty =>
    rw [List.isEmpty_iff.mp hempty] at hread
    rw [← Option.some.inj hread]
    rfl
  · rfl

/-- With the encoding beside it, a text in base 64 is taken for nothing else. -/
theorem payload_pair (data : Bytes) :
    payload (.list [.text (toBase64 data), .text "base64"]) = .ok data := by
  simp [payload, ofBase64?_toBase64, readOrFail]

theorem payload_toBase64_of_none (h : ofBase58? (toBase64 data) = none) :
    payload (.text (toBase64 data)) = .ok data := by
  rw [payload_text fun c hc => isBlank_of_mem_toBase64 hc, h, ofBase64?_toBase64, if_neg]
  · rfl
  · -- the empty text is base 58
    intro hempty
    rw [List.isEmpty_iff.mp hempty] at h
    cases h

/-- On its own, a text in base 64 is read back unless it writes other bytes in base 58. -/
theorem payload_toBase64_eq_ok_iff : payload (.text (toBase64 data)) = .ok data ↔
    ∀ other, toBase64 data = toBase58 other → other = data := by
  constructor
  · intro h other hother
    rw [hother, payload_toBase58] at h
    exact Except.ok.inj h
  · intro h
    cases hread : ofBase58? (toBase64 data) with
    | none => exact payload_toBase64_of_none hread
    | some other =>
        have htext := ofBase58?_eq_some_iff.mp hread
        obtain rfl := h other htext
        rw [htext, payload_toBase58]

theorem payload_toBase64_of_mem {c : Char} (hc : c ∈ base64Digits data)
    (hvalue : base58Value? c = none) : payload (.text (toBase64 data)) = .ok data := by
  apply payload_toBase64_of_none
  rw [toBase64]
  exact ofBase58?_eq_none_of_mem hc hvalue

/-- Bytes are read back from their text in base 58, and from that in base 64 with the encoding
beside it. The text in base 64 on its own is read back unless it is also the text of other bytes in
base 58. So it is where a character of it is no digit in base 58, and where the bytes do not come in
threes. -/
theorem payload_reads_back (data : Bytes) :
    payload (.text (toBase58 data)) = .ok data ∧
    payload (.list [.text (toBase64 data), .text "base64"]) = .ok data ∧
    (payload (.text (toBase64 data)) = .ok data ↔
      ∀ other, toBase64 data = toBase58 other → other = data) ∧
    ((∃ c ∈ base64Digits data, base58Value? c = none) →
      payload (.text (toBase64 data)) = .ok data) ∧
    (data.length % 3 ≠ 0 → payload (.text (toBase64 data)) = .ok data) := by
  refine ⟨payload_toBase58 data, payload_pair data, payload_toBase64_eq_ok_iff, ?_, ?_⟩
  · rintro ⟨c, hc, hvalue⟩
    exact payload_toBase64_of_mem hc hvalue
  · intro h
    exact payload_toBase64_of_mem (pad_mem_base64Digits h) (by decide)

/-- Two bytes are padded, and `++++` has no digit in base 58. -/
theorem payload_reads_back_no_base58 :
    payload (.text (toBase64 [0x4D, 0x61])) = .ok [0x4D, 0x61] ∧
    payload (.text (toBase64 [0xFB, 0xEF, 0xBE])) = .ok [0xFB, 0xEF, 0xBE] := by
  obtain ⟨-, -, -, -, hpadded⟩ := payload_reads_back [0x4D, 0x61]
  obtain ⟨-, -, -, hmarked, -⟩ := payload_reads_back [0xFB, 0xEF, 0xBE]
  exact ⟨hpadded (by decide), hmarked ⟨'+', by decide, by decide⟩⟩

/-- The text `TWFu` writes three bytes in base 64 and three others in base 58, so that no reading of
texts gives back both. It is read as base 58. -/
theorem payload_of_two_encodings :
    toBase64 [0x4D, 0x61, 0x6E] = toBase58 [0x4E, 0xE8, 0x84] ∧
    payload (.text (toBase64 [0x4D, 0x61, 0x6E])) = .ok [0x4E, 0xE8, 0x84] ∧
    payload (.text (toBase64 [0x4D, 0x61, 0x6E])) ≠ .ok [0x4D, 0x61, 0x6E] ∧
    ∀ read : Json → Except Fault Bytes, ¬ ∀ data,
      read (.text (toBase58 data)) = .ok data ∧ read (.text (toBase64 data)) = .ok data := by
  have htext : toBase64 [0x4D, 0x61, 0x6E] = toBase58 [0x4E, 0xE8, 0x84] := by decide +kernel
  refine ⟨htext, ?_, ?_, ?_⟩
  · rw [htext, payload_toBase58]
  · simp [htext, payload_toBase58]
  · intro read h
    have hboth := (h [0x4D, 0x61, 0x6E]).2
    rw [htext, (h [0x4E, 0xE8, 0x84]).1] at hboth
    exact absurd (Except.ok.inj hboth) (by decide)

end SolanaTx.Rpc
