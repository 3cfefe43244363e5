import Repartee.Table

/-!
# Entries of tables

The names in a table are those under which there is something, each once (`Table.nodup_names`).

Of entries that are put into a table one after the other, the last one of a name counts. So what is
under a name afterwards depends on these entries alone, unless there is none of this name
(`Table.get?_insertMany`).
-/

namespace Repartee

namespace Table

variable {α : Type} {es : List (String × α)} {name : String}

theorem mem_entries_iff {t : Table α} {value : α} :
    (name, value) ∈ t.entries ↔ t.get? name = some value := by
  obtain ⟨es, hes⟩ := t
  show (name, value) ∈ es ↔ es.lookup name = some value
  induction es with
  | nil => simp
  | cons e es ih =>
    obtain ⟨he, hes⟩ := List.pairwise_cons.mp hes
    rw [lookup_cons, List.mem_cons]
    split
    · rename_i heq
      have hlater : (name, value) ∉ es := fun h => String.lt_irrefl _ (heq ▸ he _ h)
      rw [or_iff_left hlater, Option.some_inj]
      exact ⟨fun h => h ▸ rfl, fun h => Prod.ext heq h.symm⟩
    · rename_i hne
      rw [or_iff_right fun h => hne (congrArg Prod.fst h), ih hes]

theorem mem_names_iff {t : Table α} : name ∈ t.names ↔ t.contains name = true := by
  rw [names, contains, Option.isSome_iff_exists, List.mem_map]
  constructor
  · rintro ⟨⟨_, value⟩, he, rfl⟩
    exact ⟨value, mem_entries_iff.mp he⟩
  · rintro ⟨value, hvalue⟩
    exact ⟨(name, value), mem_entries_iff.mpr hvalue, rfl⟩

theorem nodup_names (t : Table α) : t.names.Nodup := by
  refine List.pairwise_map.mpr (t.ordered.imp fun hlt heq => ?_)
  exact String.lt_irrefl _ (heq ▸ hlt)

theorem contains_insert (t : Table α) (name other : String) (value : α) :
    (t.insert name value).contains other = true ↔ other = name ∨ t.contains other = true := by
  unfold contains
  rw [get?_insert]
  split <;> simp [*]

theorem get?_insertMany (t : Table α) (es : List (String × α)) (name : String) :
    (t.insertMany es).get? name = ((ofList es).get? name).or (t.get? name) := by
  have hcons : ∀ (t : Table α) e es, t.insertMany (e :: es) = (t.insert e.1 e.2).insertMany es :=
    fun _ _ _ => rfl
  induction es generalizing t with
  | nil => rfl
  | cons e es ih =>
    rw [ofList, hcons, hcons, ih, ih (empty.insert e.1 e.2), get?_insert, get?_insert]
    split
    · rw [Option.or_assoc, Option.some_or]
    · rw [get?_empty, Option.or_none]

theorem contains_insertMany (t : Table α) :
    (t.insertMany es).contains name = true ↔
      name ∈ es.map Prod.fst ∨ t.contains name = true := by
  induction es generalizing t with
  | nil => simp [insertMany]
  | cons e es ih =>
    show ((t.insert e.1 e.2).insertMany es).contains name = true ↔ _
    rw [ih, contains_insert, List.map_cons, List.mem_cons, or_left_comm, or_assoc]

theorem contains_ofList : (ofList es).contains name = true ↔ name ∈ es.map Prod.fst :=
  (contains_insertMany empty).trans (or_iff_left fun h => by cases h)

theorem mem_of_get?_ofList {value : α} (h : (ofList es).get? name = some value) :
    (name, value) ∈ es := by
  induction es with
  | nil => cases h
  | cons e es ih =>
    have hcons : ofList (e :: es) = (empty.insert e.1 e.2).insertMany es := rfl
    rw [hcons, get?_insertMany, get?_insert] at h
    rcases Option.or_eq_some_iff.mp h with hlater | ⟨-, hfirst⟩
    · exact List.mem_cons_of_mem e (ih hlater)
    · split at hfirst
      · rename_i heq
        rw [heq, ← Option.some.inj hfirst]
        exact List.mem_cons_self
      · cases hfirst

theorem get?_ofList_of_last {value : α} (front : List (String × α))
    (hlast : name ∉ es.map Prod.fst) :
    (ofList (front ++ (name, value) :: es)).get? name = some value := by
  have hnone : (ofList es).get? name = none :=
    Option.not_isSome_iff_eq_none.mp (mt contains_ofList.mp hlast)
  have hsplit : ofList (front ++ (name, value) :: es) =
      ((ofList front).insert name value).insertMany es := List.foldl_append
  rw [hsplit, get?_insertMany, hnone, Option.none_or, get?_insert, if_pos rfl]

/-- What is put in under a name is there afterwards, whatever there was before. -/
theorem get?_insertMany_of_mem (h : name ∈ es.map Prod.fst) (t t' : Table α) :
    (t.insertMany es).get? name = (t'.insertMany es).get? name := by
  obtain ⟨value, hvalue⟩ := Option.isSome_iff_exists.mp (contains_ofList.mpr h)
  rw [get?_insertMany, get?_insertMany, hvalue, Option.some_or, Option.some_or]

end Table
end Repartee
