import SolanaTx.Idl.Table
import SolanaTx.Proofs.Fallible
import SolanaTx.Proofs.Json.Access

/-!
# Types in proper form

The type of an argument may be any value. It is read, or it is unsupported, where its arrays,
references and declarations have their proper form and do not stand too deep inside one another.
Any other type breaks off the reading of the whole description.
-/

namespace SolanaTx.Idl

open Fallible

mutual

/-- Whether a type has its proper form down to a depth: an array has a type and a whole size, and a
reference has a name. What has no known shape is in proper form too, as an unsupported type. -/
def Orderly (ds : Declarations) : Nat → Json → Prop
  | 0, _ => False
  | depth + 1, spec =>
      match spec with
      | .object [(shape, inner)] =>
          (shape = "vec" ∨ shape = "option" ∨ shape = "coption" → Orderly ds depth inner) ∧
          (shape = "array" → ∃ element size n, inner.elements = .ok [element, size] ∧
            Orderly ds depth element ∧ size.toWhole = .ok n) ∧
          (shape = "defined" → ∃ name, declaredName inner = .ok name ∧ name.isKey = true ∧
            ∀ declaration, declaration? ds name = some declaration →
              OrderlyDeclaration ds depth declaration)
      | _ => True

/-- Whether the body of a declaration is an object, with fields, named variants or a type in proper
form where its kind asks for them. -/
def OrderlyDeclaration (ds : Declarations) : Nat → Json → Prop
  | 0, _ => False
  | depth + 1, declaration =>
      ∃ body, declaration.fieldOr "type" (.object []) = .ok (.object body) ∧
        (Json.lookup "kind" body = some "struct" →
          ∃ raw, (Json.object body).fieldOr "fields" (.list []) = .ok raw ∧
            OrderlyFields ds depth raw) ∧
        (Json.lookup "kind" body = some "enum" →
          ∃ raw variants, (Json.object body).fieldOr "variants" (.list []) = .ok raw ∧
            raw.elements = .ok variants ∧
            ∀ variant ∈ variants, ∃ name, variant.get? "name" = some name ∧
              ∀ fields, variant.get? "fields" = some fields → fields.isGiven = true →
                OrderlyFields ds depth fields) ∧
        (Json.lookup "kind" body = some "alias" →
          ∀ spec, Json.lookup "value" body = some spec → Orderly ds depth spec)

/-- Whether fields are types in proper form, beside a name or on their own. -/
def OrderlyFields (ds : Declarations) : Nat → Json → Prop
  | 0, _ => False
  | depth + 1, raw =>
      ∃ items, raw.elements = .ok items ∧ ∀ item ∈ items,
        match item.get? "name" with
        | some _ => ∃ spec, item.get? "type" = some spec ∧ Orderly ds depth spec
        | none => Orderly ds depth item

end

/-- Whether a fault says that a type has no reader. -/
def IsUnsupported (fault : Fault) : Prop :=
  ∃ tag, fault = .payload (.unsupportedType tag)

variable {ds : Declarations} {depth : Nat}

theorem failsOnly_unsupported {α : Type} (tag : Json) :
    FailsOnly IsUnsupported (unsupported tag : Except Fault α) :=
  failsOnly_error ⟨tag, rfl⟩

theorem failsOnly_scalarLayout (tag : Text) : FailsOnly IsUnsupported (scalarLayout tag) := by
  unfold scalarLayout
  split
  · exact failsOnly_ok _
  · exact failsOnly_unsupported _

/-- What holds down to a depth of types in proper form, and of declarations and fields with them. -/
structure SettledUpTo (ds : Declarations) (depth : Nat) : Prop where
  spec : ∀ spec, Orderly ds depth spec → FailsOnly IsUnsupported (specLayout ds depth spec)
  declaration : ∀ declaration, OrderlyDeclaration ds depth declaration →
    FailsOnly IsUnsupported (declarationLayout ds depth declaration)
  fields : ∀ raw, OrderlyFields ds depth raw → FailsOnly IsUnsupported (fieldList ds depth raw)

theorem SettledUpTo.specLayout_succ (h : SettledUpTo ds depth) {spec : Json}
    (hspec : Orderly ds (depth + 1) spec) :
    FailsOnly IsUnsupported (specLayout ds (depth + 1) spec) := by
  unfold specLayout
  split
  · exact failsOnly_scalarLayout _
  · next shape inner =>
    obtain ⟨hwrapped, harray, hdefined⟩ := hspec
    split
    · next hshape => exact (h.spec _ (hwrapped (.inl hshape))).map _
    · split
      · next hshape => exact (h.spec _ (hwrapped (.inr hshape))).map _
      · split
        · next hshape =>
          obtain ⟨element, size, n, hitems, helement, hsize⟩ := harray hshape
          rw [hitems, ok_bind]
          refine (h.spec _ helement).bind fun layout _ => ?_
          rw [arrayLayout, hsize, ok_bind]
          exact failsOnly_pure _
        · split
          · next hshape =>
            obtain ⟨name, hname, hkey, hdeclaration⟩ := hdefined hshape
            have hnot : ¬ (!name.isKey) = true := by simp [hkey]
            rw [hname, ok_bind, if_neg hnot]
            dsimp only
            split
            · next declaration hfound => exact h.declaration _ (hdeclaration _ hfound)
            · exact failsOnly_unsupported _
          · exact failsOnly_unsupported _
  · exact failsOnly_unsupported _

theorem SettledUpTo.fieldList_succ (h : SettledUpTo ds depth) {raw : Json}
    (hraw : OrderlyFields ds (depth + 1) raw) :
    FailsOnly IsUnsupported (fieldList ds (depth + 1) raw) := by
  obtain ⟨items, hitems, horderly⟩ := hraw
  unfold fieldList
  rw [hitems, ok_bind]
  apply failsOnly_mapM
  rintro ⟨item, i⟩ hitem
  have horder := horderly item (List.fst_mem_of_mem_zipIdx hitem)
  dsimp only
  cases hname : item.get? "name" with
  | some name =>
      rw [hname] at horder
      obtain ⟨spec, htype, hspec⟩ := horder
      dsimp only
      rw [Json.need_of_get? htype, ok_bind]
      exact (h.spec _ hspec).bind fun _ _ => failsOnly_pure _
  | none =>
      rw [hname] at horder
      exact (h.spec _ horder).bind fun _ _ => failsOnly_pure _

/-- A declaration of an unknown kind is unsupported as a whole. -/
theorem failsOnly_unknown {declaration body : Json}
    (h : declaration.fieldOr "type" (.object []) = .ok body) :
    FailsOnly IsUnsupported
      (declaration.fieldD "name" declaration >>= fun tag =>
        (unsupported tag : Except Fault Layout)) := by
  cases declaration with
  | object fields => exact failsOnly_unsupported _
  | null | bool | int | real | text | list => cases h

theorem SettledUpTo.declarationLayout_succ (h : SettledUpTo ds depth) {declaration : Json}
    (hdeclaration : OrderlyDeclaration ds (depth + 1) declaration) :
    FailsOnly IsUnsupported (declarationLayout ds (depth + 1) declaration) := by
  obtain ⟨body, hbody, hstruct, henum, halias⟩ := hdeclaration
  have hunknown := failsOnly_unknown hbody
  unfold declarationLayout
  rw [hbody, ok_bind, Json.fieldD_object, ok_bind]
  split
  · next kind hkind =>
    -- `kind` is the field itself, since the usual value `null` is no text
    have hkind : ∀ name : Text, kind = name → Json.lookup "kind" body = some (.text name) := by
      rintro name rfl
      cases hfound : Json.lookup "kind" body with
      | none => simp [hfound] at hkind
      | some found => rw [hfound, Option.getD_some] at hkind; rw [hkind]
    split
    · next hname =>
      obtain ⟨raw, hraw, hfields⟩ := hstruct (hkind _ hname)
      rw [hraw, ok_bind]
      exact (h.fields _ hfields).bind fun _ _ => failsOnly_pure _
    · split
      · next hname =>
        obtain ⟨raw, variants, hraw, helements, hvariants⟩ := henum (hkind _ hname)
        rw [hraw, ok_bind, helements, ok_bind]
        refine (failsOnly_mapM fun variant hvariant => ?_).map _
        obtain ⟨name, hget, hfields⟩ := hvariants variant hvariant
        obtain ⟨entries, rfl⟩ := Json.exists_object_of_get? hget
        rw [Json.fieldD_object, ok_bind, Json.need_of_get? hget, ok_bind]
        split
        · next hgiven =>
          cases hfound : Json.lookup "fields" entries with
          | none =>
              rw [hfound] at hgiven
              cases hgiven
          | some fields =>
              rw [hfound, Option.getD_some] at hgiven
              exact (h.fields _ (hfields _ hfound hgiven)).bind fun _ _ => failsOnly_pure _
        · exact failsOnly_pure _
      · split
        · next hname =>
          split
          · next spec hvalue => exact h.spec _ (halias (hkind _ hname) spec hvalue)
          · exact hunknown
        · exact hunknown
  · exact hunknown

theorem settledUpTo (ds : Declarations) (depth : Nat) : SettledUpTo ds depth := by
  -- types, declarations and fields lead into one another, each one level further down
  induction depth with
  | zero => exact ⟨fun _ h => h.elim, fun _ h => h.elim, fun _ h => h.elim⟩
  | succ depth ih =>
      exact ⟨fun _ => ih.specLayout_succ, fun _ => ih.declarationLayout_succ,
        fun _ => ih.fieldList_succ⟩

end SolanaTx.Idl
