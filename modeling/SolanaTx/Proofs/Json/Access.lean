import Mathlib.Data.Set.List
import SolanaTx.Json.Access
import SolanaTx.Proofs.Fallible

/-!
# Fields of objects

What a look-up finds among fields, and how documents write lists, objects and numbers that may be
left out.
-/

namespace SolanaTx.Json

variable {j value other : Json} {key key' : Text} {fields : Fields}

theorem lookup_put (key key' : Text) (value : Json) (fields : Fields) :
    lookup key' (put key value fields) = if key' = key then some value else lookup key' fields := by
  induction fields with
  | nil =>
      by_cases h : key' = key
      · simp [put, lookup, h]
      · simp [put, lookup, List.lookup_cons, h, beq_false_of_ne h]
  | cons field rest ih =>
      obtain ⟨first, old⟩ := field
      simp only [lookup] at ih
      by_cases hfirst : first = key
      · by_cases h : key' = key
        · simp [put, lookup, hfirst, h]
        · simp [put, lookup, List.lookup_cons, hfirst, h, beq_false_of_ne h]
      · by_cases h : key' = first
        · simp [put, lookup, hfirst, h]
        · simpa [put, lookup, List.lookup_cons, hfirst, beq_false_of_ne h] using ih

/-- Texts come of values that all are texts. -/
theorem texts_eq_ok_iff {items : List Json} {ts : List Text} :
    texts items = .ok ts ↔ items = ts.map .text := by
  induction items generalizing ts with
  | nil => cases ts <;> simp [texts]
  | cons item rest ih =>
      cases item with
      | text t =>
          cases hrest : texts rest with
          | error fault => cases ts <;> simp_all [texts, Except.map]
          | ok others => cases ts <;> simp_all [texts, Except.map]
      | null | bool | int | real | list | object => cases ts <;> simp [texts]

theorem texts_map_text (ts : List Text) : texts (ts.map .text) = .ok ts :=
  texts_eq_ok_iff.mpr rfl

theorem exists_map_text_iff {items : List Json} :
    (∃ ts : List Text, items = ts.map .text) ↔ ∀ item ∈ items, ∃ t, item = .text t := by
  simp only [eq_comm (b := Json.text _), eq_comm (a := items)]
  exact Set.ext_iff.mp (Set.range_list_map Json.text) items

/-! ## Fields that are there -/

theorem fieldD_object (fields : Fields) (key : Text) (default : Json) :
    (Json.object fields).fieldD key default = .ok ((lookup key fields).getD default) := rfl

theorem fieldOr_object (fields : Fields) (key : Text) (other : Json) :
    (Json.object fields).fieldOr key other =
      .ok (((lookup key fields).getD .null).orElse other) := rfl

theorem exists_object_of_get? (h : j.get? key = some value) : ∃ fields, j = .object fields := by
  cases j with
  | object fields => exact ⟨fields, rfl⟩
  | null | bool | int | real | text | list => cases h

theorem need_of_get? (h : j.get? key = some value) : j.need key = .ok value := by
  obtain ⟨fields, rfl⟩ := exists_object_of_get? h
  rw [get?] at h
  rw [need, h]

theorem fieldD_of_get? (default : Json) (h : j.get? key = some value) :
    j.fieldD key default = .ok value := by
  obtain ⟨fields, rfl⟩ := exists_object_of_get? h
  rw [get?] at h
  rw [fieldD_object, h, Option.getD_some]

theorem fieldOr_of_get? (other : Json) (h : j.get? key = some value) :
    j.fieldOr key other = .ok (value.orElse other) := by
  obtain ⟨fields, rfl⟩ := exists_object_of_get? h
  rw [get?] at h
  rw [fieldOr_object, h, Option.getD_some]

theorem get?_of_need (h : j.need key = .ok value) : j.get? key = some value := by
  cases j with
  | object fields =>
      rw [need] at h
      split at h
      · next found hfound =>
        cases h
        exact hfound
      · cases h
  | null | bool | int | real | text | list => cases h

theorem isGiven_of_get? (h : j.get? key = some value) : j.isGiven = true := by
  obtain ⟨fields, rfl⟩ := exists_object_of_get? h
  cases fields with
  | nil => cases h
  | cons field rest => rfl

theorem orElse_of_get? (other : Json) (h : j.get? key = some value) : j.orElse other = j := by
  rw [orElse, if_pos (isGiven_of_get? h)]

/-! ## Fields of values that are objects -/

theorem failsOnly_fieldD {p : Fault → Prop} (hj : ∃ fields, j = .object fields) (key : Text)
    (default : Json) : Fallible.FailsOnly p (j.fieldD key default) := by
  obtain ⟨fields, rfl⟩ := hj
  exact Fallible.failsOnly_ok _

theorem failsOnly_fieldOr {p : Fault → Prop} (hj : ∃ fields, j = .object fields) (key : Text)
    (other : Json) : Fallible.FailsOnly p (j.fieldOr key other) := by
  obtain ⟨fields, rfl⟩ := hj
  exact Fallible.failsOnly_ok _

/-! ## Fields that may be left out -/

/-- Whether the value of a field, where it counts as given, has a property. -/
def GivenHas (j : Json) (key : Text) (p : Json → Prop) : Prop :=
  ∀ value, j.get? key = some value → value.isGiven = true → p value

theorem GivenHas.of_fieldD {p : Json → Prop} (h : j.GivenHas key p)
    (hvalue : j.fieldD key .null = .ok value) (hgiven : value.isGiven = true) : p value := by
  cases j with
  | object fields =>
      rw [fieldD_object, Except.ok.injEq] at hvalue
      subst hvalue
      cases hfound : lookup key fields with
      | none =>
          rw [hfound] at hgiven
          cases hgiven
      | some found =>
          rw [hfound] at hgiven
          exact h found hfound hgiven
  | null | bool | int | real | text | list => cases hvalue

/-- What is read of a field is its value, where this counts as given, or the other one. -/
theorem GivenHas.of_fieldOr {p : Json → Prop} (h : j.GivenHas key p) (hother : p other)
    (hvalue : j.fieldOr key other = .ok value) : p value := by
  obtain ⟨found, hfound, rfl⟩ := Fallible.map_eq_ok.mp hvalue
  rw [orElse]
  split
  · next hgiven => exact h.of_fieldD hfound hgiven
  · exact hother

theorem givenHas_of_fieldOr {p : Json → Prop} (hvalue : j.fieldOr key other = .ok value)
    (h : p value) : j.GivenHas key p := by
  intro found hfound hgiven
  rw [fieldOr_of_get? _ hfound, orElse, if_pos hgiven] at hvalue
  rw [Except.ok.inj hvalue]
  exact h

/-- Whether an object has a value in a field, which may be left out where it is the usual one. -/
def Holds (j : Json) (key : Text) (usual value : Json) : Prop :=
  j.get? key = some value ∨
    value = usual ∧ (∃ fields, j = .object fields) ∧ (j.get? key).getD .null = .null

theorem Holds.fieldOr_eq {usual : Json} (h : j.Holds key usual value)
    (hvalue : value.orElse usual = value) : j.fieldOr key usual = .ok value := by
  rcases h with h | ⟨rfl, ⟨fields, rfl⟩, hnot⟩
  · rw [fieldOr_of_get? _ h, hvalue]
  · rw [get?] at hnot
    rw [fieldOr_object, hnot]
    rfl

/-- Whether an object has a list in a field; an empty one may be left out. -/
def HasList (j : Json) (key : Text) (items : List Json) : Prop :=
  j.Holds key (.list []) (.list items)

/-- Whether an object has an object in a field; an empty one may be left out. -/
def HasObject (j : Json) (key : Text) (fields : Fields) : Prop :=
  j.Holds key (.object []) (.object fields)

/-- Whether an object has a whole number in a field; zero may be left out. -/
def HasNumber (j : Json) (key : Text) (n : Int) : Prop :=
  j.Holds key (.int 0) (.int n)

theorem HasList.fieldOr_eq {items : List Json} (h : j.HasList key items) :
    j.fieldOr key (.list []) = .ok (.list items) := by
  refine Holds.fieldOr_eq h ?_
  cases items <;> rfl

theorem HasObject.fieldOr_eq (h : j.HasObject key fields) :
    j.fieldOr key (.object []) = .ok (.object fields) := by
  refine Holds.fieldOr_eq h ?_
  cases fields <;> rfl

theorem HasNumber.fieldOr_eq {n : Int} (h : j.HasNumber key n) :
    j.fieldOr key (.int 0) = .ok (.int n) := by
  refine Holds.fieldOr_eq h ?_
  by_cases hn : n = 0 <;> simp [orElse, isGiven, hn]

end SolanaTx.Json
