import ScreenPilot.Json.Value
import Std.Data.ExtTreeMap.Lemmas

/-!
# Objects as tables

Every object of a document is the list of a table (`Json.ofFields_eq_ofTable`): its keys ascend
and none occurs twice. Statements about all documents are about all tables. In a table a key has
one value or none, whatever is done to the other keys: a key can be removed, and a table can be
laid over another one.
-/

set_option autoImplicit false

namespace ScreenPilot

namespace Json

/-- Values under their keys. -/
abbrev Table : Type := Std.ExtTreeMap String Json

/-- The object with the entries of a table. -/
def ofTable (table : Table) : Json := .object table.toList

/-- The objects that are read are those of tables. -/
theorem ofFields_eq_ofTable (fields : List (String × Json)) :
    ofFields fields = ofTable (Std.ExtTreeMap.ofList fields) := rfl

/-- A list has nothing under what is none of its keys. -/
theorem lookup_eq_none {entries : List (String × Json)} {key : String}
    (absent : key ∉ entries.map Prod.fst) : entries.lookup key = none := by
  rw [List.lookup_eq_none_iff]
  intro entry member
  simp only [bne_iff_ne]
  rintro rfl
  exact absent (List.mem_map.mpr ⟨entry, member, rfl⟩)

theorem lookup_cons_of_ne {entries : List (String × Json)} {key other : String} {value : Json}
    (differs : other ≠ key) : ((key, value) :: entries).lookup other = entries.lookup other := by
  rw [List.lookup_cons, beq_false_of_ne differs]

namespace Table

variable {table : Table} {key : String} {value : Json}

theorem mem_toList_iff : (key, value) ∈ table.toList ↔ table[key]? = some value :=
  Std.ExtTreeMap.mem_toList_iff_getElem?_eq_some

/-- The keys ascend. -/
theorem ascending (table : Table) : table.toList.Pairwise fun entry later => entry.1 < later.1 := by
  have ordered : table.toList.Pairwise fun entry later => compare entry.1 later.1 = .lt :=
    Std.ExtTreeMap.ordered_keys_toList
  exact ordered.imp fun less => compareOfLessAndEq_eq_lt.mp less

/-- No key occurs twice. -/
theorem nodup_keys (table : Table) : (table.toList.map Prod.fst).Nodup := by
  rw [Std.ExtTreeMap.map_fst_toList_eq_keys]
  exact Std.ExtTreeMap.nodup_keys

/-- What stands first under a key of a list stands in the table. -/
theorem lookup_toList (table : Table) (key : String) : table.toList.lookup key = table[key]? := by
  cases found : table.toList.lookup key with
  | none =>
    rw [List.lookup_eq_none_iff] at found
    cases here : table[key]? with
    | none => rfl
    | some value => simpa using found _ (mem_toList_iff.mpr here)
  | some value =>
    obtain ⟨before, after, split, -⟩ := List.lookup_eq_some_iff.mp found
    have member : (key, value) ∈ table.toList := by simp [split]
    exact (mem_toList_iff.mp member).symm

/-- A key of the table that is laid over another one has its value there. -/
theorem getElem?_union (base patch : Table) (key : String) :
    (base ∪ patch)[key]? = patch[key]?.or base[key]? :=
  Std.ExtTreeMap.getElem?_union

/-! ## Tables laid over tables -/

/-- Tables laid over one another, each over those before it. -/
def overlaid (tables : List Table) : Table := tables.foldr (· ∪ ·) ∅

theorem union_assoc (first second third : Table) :
    first ∪ second ∪ third = first ∪ (second ∪ third) := by
  apply Std.ExtTreeMap.ext_getElem?
  intro key
  simp only [getElem?_union, Option.or_assoc]

theorem empty_union (table : Table) : ∅ ∪ table = table := by
  apply Std.ExtTreeMap.ext_getElem?
  intro key
  simp [getElem?_union]

theorem overlaid_cons (table : Table) (tables : List Table) :
    overlaid (table :: tables) = table ∪ overlaid tables := rfl

theorem overlaid_append (tables more : List Table) :
    overlaid (tables ++ more) = overlaid tables ∪ overlaid more := by
  induction tables with
  | nil => exact (empty_union _).symm
  | cons table tables ih => rw [List.cons_append, overlaid_cons, overlaid_cons, ih, union_assoc]

/-- **Tables may be laid over one another in groups.** -/
theorem overlaid_flatten (groups : List (List Table)) :
    overlaid groups.flatten = overlaid (groups.map overlaid) := by
  induction groups with
  | nil => rfl
  | cons group groups ih =>
    rw [List.flatten_cons, overlaid_append, ih, List.map_cons, overlaid_cons]

end Table

end Json

end ScreenPilot
