import Mathlib.Data.Finset.Card
import Mathlib.Data.Finset.Dedup
import SolanaTx.Program.Builtin
import SolanaTx.Proofs.Program.Classification
import SolanaTx.Proofs.PubkeyMap

/-!
# Rows of registrations

Of several decoders that are registered for a program the last one counts, and the
first one gives the program its place. A registration touches one program only, so
decoders of different programs may be registered in any order.
-/

namespace SolanaTx

namespace Registry

/-- The registry after further decoders are registered, one after the other. -/
def registerAll (r : Registry) (ds : List Decoder) : Registry :=
  ds.foldl register r

/-- The last decoder for a program. -/
def lastFor? (ds : List Decoder) (program : Pubkey) : Option Decoder :=
  ds.reverse.find? fun d => program = d.program

/-- Programs in the order in which the first decoder for each came. -/
def programsOf (ds : List Decoder) : List Pubkey :=
  (ds.map Decoder.program).eraseDups

theorem registerAll_ofDecoders (first ds : List Decoder) :
    (ofDecoders first).registerAll ds = ofDecoders (first ++ ds) :=
  (List.foldl_append ..).symm

/-! ## The last decoder for a program -/

theorem lastFor?_eq_some_iff {ds : List Decoder} {program : Pubkey} {d : Decoder} :
    lastFor? ds program = some d ↔ ∃ before after, ds = before ++ d :: after ∧
      d.program = program ∧ ∀ later ∈ after, later.program ≠ program := by
  simp only [lastFor?, List.find?_eq_some_iff_append, decide_eq_true_eq, Bool.not_eq_eq_eq_not,
    Bool.not_true, decide_eq_false_iff_not]
  constructor
  · rintro ⟨hprogram, after, before, hds, hlater⟩
    refine ⟨before.reverse, after.reverse, ?_, hprogram.symm, ?_⟩
    · rw [← ds.reverse_reverse, hds, List.reverse_append, List.reverse_cons, List.append_assoc]
      rfl
    · exact fun later hmem => Ne.symm (hlater later (List.mem_reverse.mp hmem))
  · rintro ⟨before, after, rfl, hprogram, hlater⟩
    refine ⟨hprogram.symm, after.reverse, before.reverse, ?_, ?_⟩
    · rw [List.reverse_append, List.reverse_cons, List.append_assoc]
      rfl
    · exact fun later hmem => Ne.symm (hlater later (List.mem_reverse.mp hmem))

theorem lastFor?_append (first ds : List Decoder) (program : Pubkey) :
    lastFor? (first ++ ds) program = (lastFor? ds program).or (lastFor? first program) := by
  rw [lastFor?, List.reverse_append, List.find?_append]
  rfl

/-- Among decoders of different programs the last one for a program is the only one. -/
theorem lastFor?_eq_some_iff_mem {ds : List Decoder} (hnodup : (ds.map Decoder.program).Nodup)
    {program : Pubkey} {d : Decoder} :
    lastFor? ds program = some d ↔ d ∈ ds ∧ d.program = program := by
  rw [lastFor?_eq_some_iff]
  constructor
  · rintro ⟨before, after, rfl, hprogram, -⟩
    exact ⟨by simp, hprogram⟩
  · rintro ⟨hmem, rfl⟩
    obtain ⟨before, after, rfl⟩ := List.append_of_mem hmem
    refine ⟨before, after, rfl, rfl, ?_⟩
    intro later hlater heq
    rw [List.map_append, List.map_cons] at hnodup
    have hafter := (List.nodup_cons.mp (List.nodup_append.mp hnodup).2.1).1
    exact hafter (heq ▸ List.mem_map_of_mem hlater)

theorem lastFor?_perm {ds ds' : List Decoder} (hperm : ds.Perm ds')
    (hnodup : (ds.map Decoder.program).Nodup) (program : Pubkey) :
    lastFor? ds program = lastFor? ds' program := by
  have hnodup' : (ds'.map Decoder.program).Nodup := (hperm.map _).nodup_iff.mp hnodup
  apply Option.ext
  intro d
  rw [lastFor?_eq_some_iff_mem hnodup, lastFor?_eq_some_iff_mem hnodup', hperm.mem_iff]

/-! ## What registrations leave -/

/-- Whether two registries say the same about a program. -/
structure AgreesAt (program : Pubkey) (r r' : Registry) : Prop where
  get? : r.get? program = r'.get? program
  contains : r.contains program = r'.contains program
  label? : r.label? program = r'.label? program
  decode : ∀ data accounts, r.decode program data accounts = r'.decode program data accounts

/-- All that a registry says about a program rests on its decoder. -/
theorem AgreesAt.of_get? {program : Pubkey} {r r' : Registry}
    (h : r.get? program = r'.get? program) : AgreesAt program r r' where
  get? := h
  contains := by rw [PubkeyMap.contains, PubkeyMap.contains, h]
  label? := by rw [Registry.label?, Registry.label?, h]
  decode _ _ := by rw [Registry.decode, Registry.decode, h]

/-- A registration changes nothing for other programs. -/
theorem agreesAt_register (r : Registry) {d : Decoder} {program : Pubkey}
    (h : program ≠ d.program) : AgreesAt program (r.register d) r := by
  apply AgreesAt.of_get?
  rw [register, PubkeyMap.get?_insert, if_neg h]

/-- Whether a registry is what a row of registrations leaves: for each program the last decoder
counts, and programs stand in the order of their first decoders. -/
structure Reflects (r : Registry) (ds : List Decoder) : Prop where
  get? : ∀ program, r.get? program = lastFor? ds program
  contains_iff : ∀ program, r.contains program = true ↔ ∃ d ∈ ds, d.program = program
  label? : ∀ program, r.label? program = (lastFor? ds program).map Decoder.label
  decode : ∀ program data accounts, r.decode program data accounts =
    match lastFor? ds program with
    | some d => d.decode data accounts
    | none => .ok (.error (.unknownProgram program))
  size : r.size = (ds.map Decoder.program).toFinset.card
  values : r.values = (programsOf ds).filterMap (lastFor? ds)
  labels : r.labels.entries = (programsOf ds).filterMap fun program =>
    (lastFor? ds program).map fun d => (program, d.label)

theorem keys_ofDecoders (ds : List Decoder) : (ofDecoders ds).keys = programsOf ds := by
  -- from the back, since the last registration finds the keys of all others
  induction ds using List.reverseRecOn with
  | nil => rfl
  | append_singleton ds d ih =>
      rw [← registerAll_ofDecoders, registerAll, List.foldl_cons, List.foldl_nil, register,
        PubkeyMap.keys_insert, ih, programsOf, programsOf, List.map_append, List.map_singleton,
        List.eraseDups_append, List.removeAll]
      by_cases h : d.program ∈ ds.map Decoder.program
      · rw [if_pos (List.mem_eraseDups.mpr h), List.filter_cons_of_neg (by simpa using h)]
        exact (List.append_nil _).symm
      · rw [if_neg (mt List.mem_eraseDups.mp h), List.filter_cons_of_pos (by simpa using h)]
        rfl

theorem reflects_ofDecoders (ds : List Decoder) : (ofDecoders ds).Reflects ds := by
  have hget : ∀ program, (ofDecoders ds).get? program = lastFor? ds program :=
    get?_ofDecoders ds
  have hfound : (ofDecoders ds).get? = lastFor? ds := funext hget
  have hkeys := keys_ofDecoders ds
  constructor
  · exact hget
  · intro program
    rw [PubkeyMap.contains_iff_mem_keys, hkeys, programsOf, List.mem_eraseDups, List.mem_map]
  · intro program
    rw [label?, hget]
  · intro program data accounts
    rw [Registry.decode, hget]
    cases lastFor? ds program <;> rfl
  · calc (ofDecoders ds).size
      _ = (ofDecoders ds).keys.length := (List.length_map _).symm
      _ = (ofDecoders ds).keys.toFinset.card :=
          (List.toFinset_card_of_nodup (ofDecoders ds).nodup_keys).symm
      _ = (ds.map Decoder.program).toFinset.card := by
          congr 1
          ext program
          rw [List.mem_toFinset, List.mem_toFinset, hkeys, programsOf, List.mem_eraseDups]
  · rw [PubkeyMap.values_eq_filterMap, hkeys, hfound]
  · show (ofDecoders ds).entries.map (fun entry => (entry.1, entry.2.label)) = _
    rw [PubkeyMap.entries_eq_filterMap, List.map_filterMap, hkeys, hfound]
    congr 1
    funext program
    rw [Option.map_map]
    rfl

/-- A registry that is empty at first, or that of the native programs, reflects the decoders that
were registered after each of its registrations. One registration changes nothing for other
programs, and decoders of different programs may come in any order. -/
theorem reflects_registerAll (ds : List Decoder) :
    (registerAll {} ds).Reflects ds ∧
    (registerAll (withBuiltins []) ds).Reflects (builtinDecoders ++ ds) ∧
    (∀ (r : Registry) (d : Decoder) (program : Pubkey), program ≠ d.program →
      AgreesAt program (r.register d) r) ∧
    ∀ (first ds' : List Decoder), ds.Perm ds' → (ds.map Decoder.program).Nodup →
      ∀ program data accounts,
        ((ofDecoders first).registerAll ds).decode program data accounts =
          ((ofDecoders first).registerAll ds').decode program data accounts := by
  have hnative : withBuiltins [] = ofDecoders builtinDecoders := rfl
  refine ⟨reflects_ofDecoders ds, ?_, fun r d program => agreesAt_register r, ?_⟩
  · rw [hnative, registerAll_ofDecoders]
    exact reflects_ofDecoders (builtinDecoders ++ ds)
  · intro first ds' hperm hnodup program data accounts
    rw [registerAll_ofDecoders, registerAll_ofDecoders, (reflects_ofDecoders _).decode,
      (reflects_ofDecoders _).decode, lastFor?_append, lastFor?_append, lastFor?_perm hperm hnodup]

/-- The decoder of the System Program is replaced and keeps its place, and one for another program
comes behind, in either order. -/
theorem reflects_registerAll_replacement :
    ∃ (system market : Decoder) (other : Pubkey), other ≠ system.program ∧
      [system, market].Perm [market, system] ∧
      ([system, market].map Decoder.program).Nodup ∧
      ((withBuiltins []).registerAll [system, market]).size = 5 ∧
      ((withBuiltins []).registerAll [system, market]).labels.entries.map Prod.snd =
        ["Transfers", "Compute Budget", "Token Program", "Token 2022", "Market"] ∧
      (((withBuiltins []).registerAll [system]).register market).AgreesAt .systemProgram
        ((withBuiltins []).registerAll [system]) ∧
      ∀ data accounts,
        ((withBuiltins []).registerAll [system, market]).decode other data accounts =
          ((withBuiltins []).registerAll [market, system]).decode other data accounts := by
  let other : Pubkey := ⟨List.replicate 32 9, rfl⟩
  let system : Decoder := .foreign ⟨.systemProgram, "Transfers", none, fun _ _ => .nothing⟩
  let market : Decoder := .foreign ⟨other, "Market", none, fun _ _ => .nothing⟩
  have hperm : [system, market].Perm [market, system] := List.Perm.swap market system []
  have hnodup : ([system, market].map Decoder.program).Nodup := by decide
  obtain ⟨-, hreflects, hother, horder⟩ := reflects_registerAll [system, market]
  refine ⟨system, market, other, by decide, hperm, hnodup, ?_, ?_, ?_, ?_⟩
  · rw [hreflects.size]
    decide
  · rw [hreflects.labels]
    decide
  · exact hother _ market .systemProgram (by decide)
  · exact horder builtinDecoders [market, system] hperm hnodup other

end Registry

end SolanaTx
