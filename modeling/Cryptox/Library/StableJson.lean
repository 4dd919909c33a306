import Cryptox.Library.Comparators
import Cryptox.Library.Json

/-!
# Texts that do not depend on the order of keys

A value is written with the fields of every object sorted by their keys. Two values have one such
text exactly if they are the same once sorted.
-/
namespace Cryptox.Library.JsonValue

variable {ν : Type} (cmp : List Char → List Char → Ordering)

mutual

def sortKeys : JsonValue ν → JsonValue ν
  | .array items => .array (sortItems items)
  | .object fields => .object (sortWith (fun left right => cmp left.1 right.1) (sortFields fields))
  | .null => .null
  | .bool value => .bool value
  | .number value => .number value
  | .text value => .text value

def sortItems : List (JsonValue ν) → List (JsonValue ν)
  | [] => []
  | item :: items => sortKeys item :: sortItems items

def sortFields : List (List Char × JsonValue ν) → List (List Char × JsonValue ν)
  | [] => []
  | (key, value) :: fields => (key, sortKeys value) :: sortFields fields

end

def stableText (format : NumberFormat ν) (value : JsonValue ν) : List Char :=
  print format (sortKeys cmp value)

theorem stableText_eq_iff {format : NumberFormat ν} {first second : JsonValue ν} :
    stableText cmp format first = stableText cmp format second ↔
      sortKeys cmp first = sortKeys cmp second :=
  ⟨fun h => print_inj format h, fun h => congrArg (print format) h⟩

theorem sortItems_eq_map (items : List (JsonValue ν)) :
    sortItems cmp items = items.map (sortKeys cmp) := by
  induction items with
  | nil => rfl
  | cons item items ih => rw [sortItems, ih, List.map_cons]

theorem sortFields_eq_map (fields : List (List Char × JsonValue ν)) :
    sortFields cmp fields = fields.map fun field => (field.1, sortKeys cmp field.2) := by
  induction fields with
  | nil => rfl
  | cons field fields ih => rw [sortFields, ih, List.map_cons]

theorem keys_sortFields (fields : List (List Char × JsonValue ν)) :
    (sortFields cmp fields).map (·.1) = fields.map (·.1) := by
  rw [sortFields_eq_map, List.map_map]
  rfl

/-- Sorted objects that are the same had the same fields. -/
theorem perm_of_sortKeys_eq {first second : List (List Char × JsonValue ν)}
    (h : sortKeys cmp (.object first) = sortKeys cmp (.object second)) :
    (sortFields cmp first).Perm (sortFields cmp second) := by
  rw [sortKeys, sortKeys, JsonValue.object.injEq] at h
  have hfirst := sortWith_perm (fun left right : List Char × JsonValue ν => cmp left.1 right.1)
    (sortFields cmp first)
  rw [h] at hfirst
  exact hfirst.symm.trans (sortWith_perm _ _)

/-- Objects with the same keys in one order are the same sorted if their fields are. -/
theorem sortKeys_object_eq_iff {first second : List (List Char × JsonValue ν)}
    (hkeys : first.map (·.1) = second.map (·.1)) (hnodup : (first.map (·.1)).Nodup) :
    sortKeys cmp (.object first) = sortKeys cmp (.object second) ↔
      sortFields cmp first = sortFields cmp second := by
  constructor
  · intro h
    refine eq_of_perm_of_keys (perm_of_sortKeys_eq cmp h) ?_ ?_
    · rw [keys_sortFields, keys_sortFields, hkeys]
    · rw [keys_sortFields]
      exact hnodup
  · intro h
    rw [sortKeys, sortKeys, h]

end Cryptox.Library.JsonValue
