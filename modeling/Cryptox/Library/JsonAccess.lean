import Cryptox.Library.Json
import Mathlib.Data.List.Forall2

/-!
# Reading a JSON value whose shape is not known

Of several fields of one key the last one counts. What is not there, or of another kind, is not read.
-/
namespace Cryptox.Library.JsonValue

variable {ν : Type}

def field? (key : String) : JsonValue ν → Option (JsonValue ν)
  | object fields => (fields.reverse.find? fun entry => entry.1 == key.toList).map Prod.snd
  | _ => none

def text? : JsonValue ν → Option String
  | text value => some (String.ofList value)
  | _ => none

def bool? : JsonValue ν → Option Bool
  | bool value => some value
  | _ => none

def number? : JsonValue ν → Option ν
  | number value => some value
  | _ => none

def array? : JsonValue ν → Option (List (JsonValue ν))
  | array items => some items
  | _ => none

@[simp] theorem text?_text (value : String) : (text value.toList : JsonValue ν).text? = some value :=
  congrArg some String.ofList_toList

@[simp] theorem bool?_bool (value : Bool) : (bool value : JsonValue ν).bool? = some value := rfl

@[simp] theorem number?_number (value : ν) : (number value).number? = some value := rfl

@[simp] theorem array?_array (items : List (JsonValue ν)) : (array items).array? = some items := rfl

end Cryptox.Library.JsonValue

namespace Cryptox.Library

variable {α β : Type} {f : α → Option β}

/-- Items are read one by one. -/
theorem mapM_eq_some {items : List α} {values : List β} :
    items.mapM f = some values ↔ List.Forall₂ (fun item value => f item = some value) items values := by
  induction items generalizing values with
  | nil =>
    rw [List.mapM_nil, List.forall₂_nil_left_iff]
    exact ⟨fun h => (Option.some.inj h).symm, fun h => congrArg some h.symm⟩
  | cons item items ih =>
    rw [List.mapM_cons]
    constructor
    · intro h
      obtain ⟨value, hvalue, h⟩ := Option.bind_eq_some_iff.mp h
      obtain ⟨rest, hrest, h⟩ := Option.bind_eq_some_iff.mp h
      cases h
      exact .cons hvalue (ih.mp hrest)
    · rintro (_ | ⟨hvalue, hrest⟩)
      rw [hvalue, ih.mpr hrest]
      rfl

/-- Every value was read from an item. -/
theorem exists_of_mem_read {items : List α} {values : List β}
    (h : List.Forall₂ (fun item value => f item = some value) items values) {value : β}
    (hvalue : value ∈ values) : ∃ item ∈ items, f item = some value := by
  induction h with
  | nil => cases hvalue
  | cons hhead _ ih =>
    rcases List.mem_cons.mp hvalue with rfl | htail
    · exact ⟨_, List.mem_cons_self, hhead⟩
    · obtain ⟨item, hitem, hread⟩ := ih htail
      exact ⟨item, List.mem_cons_of_mem _ hitem, hread⟩

end Cryptox.Library
