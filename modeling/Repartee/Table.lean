/-!
# Tables

Finite maps from names to values, kept as a list of entries in the order of their names. Since
each name stands at most once and the order is fixed, two tables with the same look-ups are equal
(`Table.ext_get?`), and `get?_insert` and `get?_erase` say what a change does to every look-up.
-/

namespace Repartee

/-- Puts `value` under `name` into entries that are ordered by name, replacing an entry of that
name. -/
def putEntry {α : Type} (name : String) (value : α) : List (String × α) → List (String × α)
  | [] => [(name, value)]
  | e :: es =>
    if name < e.1 then (name, value) :: e :: es
    else if name = e.1 then (name, value) :: es
    else e :: putEntry name value es

theorem mem_putEntry {α : Type} {name : String} {value : α} {es : List (String × α)}
    {e : String × α} (h : e ∈ putEntry name value es) : e = (name, value) ∨ e ∈ es := by
  induction es with
  | nil => exact Or.inl (by simpa [putEntry] using h)
  | cons d ds ih =>
    simp only [putEntry] at h
    split at h
    · simpa using h
    · split at h
      · rcases List.mem_cons.mp h with rfl | h
        · exact Or.inl rfl
        · exact Or.inr (List.mem_cons_of_mem _ h)
      · rcases List.mem_cons.mp h with rfl | h
        · exact Or.inr List.mem_cons_self
        · exact (ih h).imp_right (List.mem_cons_of_mem _)

theorem pairwise_putEntry {α : Type} (name : String) (value : α) {es : List (String × α)}
    (h : es.Pairwise fun d e => d.1 < e.1) :
    (putEntry name value es).Pairwise fun d e => d.1 < e.1 := by
  induction es with
  | nil => simp [putEntry]
  | cons d ds ih =>
    obtain ⟨hd, hds⟩ := List.pairwise_cons.mp h
    simp only [putEntry]
    split
    · rename_i hlt
      refine List.pairwise_cons.mpr ⟨fun e he => ?_, h⟩
      rcases List.mem_cons.mp he with rfl | he
      · exact hlt
      · exact String.lt_trans hlt (hd e he)
    · split
      · rename_i heq
        exact List.pairwise_cons.mpr ⟨fun e he => heq ▸ hd e he, hds⟩
      · rename_i hge hne
        refine List.pairwise_cons.mpr ⟨fun e he => ?_, ih hds⟩
        rcases mem_putEntry he with rfl | he
        · exact Std.lt_of_le_of_ne (Std.not_lt.mp hge) (fun h => hne h.symm)
        · exact hd e he

/-- A finite map from names to values. -/
structure Table (α : Type) where
  entries : List (String × α)
  ordered : entries.Pairwise fun d e => d.1 < e.1

namespace Table

variable {α : Type}

def empty : Table α :=
  ⟨[], List.Pairwise.nil⟩

instance : EmptyCollection (Table α) :=
  ⟨empty⟩

instance : Inhabited (Table α) :=
  ⟨empty⟩

def get? (t : Table α) (name : String) : Option α :=
  t.entries.lookup name

def contains (t : Table α) (name : String) : Bool :=
  (t.get? name).isSome

/-- The table with `value` under `name`, whatever stood there before. -/
def insert (t : Table α) (name : String) (value : α) : Table α :=
  ⟨putEntry name value t.entries, pairwise_putEntry name value t.ordered⟩

def erase (t : Table α) (name : String) : Table α :=
  ⟨t.entries.filter fun e => e.1 != name, t.ordered.filter _⟩

/-- The table with each of the entries put in, one after the other. -/
def insertMany (t : Table α) (es : List (String × α)) : Table α :=
  es.foldl (fun t e => t.insert e.1 e.2) t

/-- The table of the entries, of which a later one wins over an earlier one of the same name. -/
def ofList (es : List (String × α)) : Table α :=
  empty.insertMany es

def names (t : Table α) : List String :=
  t.entries.map Prod.fst

/-- The values, in the order of their names. -/
def values (t : Table α) : List α :=
  t.entries.map Prod.snd

/-- The table with every value replaced by its image. -/
def mapValues {β : Type} (t : Table α) (f : α → β) : Table β :=
  ⟨t.entries.map fun e => (e.1, f e.2), List.pairwise_map.mpr t.ordered⟩

/-! ## Look-ups after a change -/

theorem lookup_cons (name : String) (e : String × α) (es : List (String × α)) :
    (e :: es).lookup name = if name = e.1 then some e.2 else es.lookup name := by
  obtain ⟨key, value⟩ := e
  rw [List.lookup_cons]
  by_cases h : name = key
  · simp [h]
  · have hne : (name == key) = false := by simpa using h
    simp [hne, h]

theorem lookup_putEntry (name other : String) (value : α) (es : List (String × α)) :
    (putEntry name value es).lookup other =
      if other = name then some value else es.lookup other := by
  induction es with
  | nil => simp [putEntry, lookup_cons]
  | cons e es ih =>
    simp only [putEntry]
    split
    · rw [lookup_cons]
    · split
      · rename_i heq
        simp only [lookup_cons, heq]
        split <;> rfl
      · rename_i hne
        simp only [lookup_cons, ih]
        by_cases h : other = name
        · simp [h, hne]
        · simp [h]

theorem get?_insert (t : Table α) (name other : String) (value : α) :
    (t.insert name value).get? other = if other = name then some value else t.get? other :=
  lookup_putEntry name other value t.entries

theorem get?_erase (t : Table α) (name other : String) :
    (t.erase name).get? other = if other = name then none else t.get? other := by
  simp only [get?, erase]
  induction t.entries with
  | nil => simp
  | cons e es ih =>
    by_cases he : e.1 = name
    · simp only [List.filter_cons, he, bne_self_eq_false, Bool.false_eq_true, if_false, ih,
        lookup_cons]
      split <;> rfl
    · simp only [List.filter_cons, bne_iff_ne, ne_eq, he, not_false_eq_true, if_true, lookup_cons,
        ih]
      by_cases h : other = e.1
      · simp [h, he]
      · simp [h]

@[simp] theorem get?_empty (name : String) : (empty : Table α).get? name = none := rfl

theorem lookup_eq_none_of_lt {es : List (String × α)} {name : String}
    (h : ∀ e ∈ es, name < e.1) : es.lookup name = none := by
  refine List.lookup_eq_none_iff.mpr fun e he => ?_
  have hlt := h e he
  have hne : name ≠ e.1 := fun heq => String.lt_irrefl _ (heq ▸ hlt)
  simpa using hne

theorem first_name_eq {e d : String × α} {es ds : List (String × α)}
    (he : ∀ x ∈ es, e.1 < x.1) (hd : ∀ x ∈ ds, d.1 < x.1)
    (h : ∀ name, (e :: es).lookup name = (d :: ds).lookup name) : e.1 = d.1 := by
  have absent {a b : String × α} {xs : List (String × α)} (hb : ∀ x ∈ xs, b.1 < x.1)
      (hab : a.1 < b.1) : (b :: xs).lookup a.1 = none := by
    refine lookup_eq_none_of_lt fun x hx => ?_
    rcases List.mem_cons.mp hx with rfl | hx
    · exact hab
    · exact String.lt_trans hab (hb x hx)
  refine Classical.byContradiction fun hne => ?_
  rcases Classical.em (e.1 < d.1) with hlt | hge
  · have := h e.1
    rw [absent hd hlt, lookup_cons, if_pos rfl] at this
    cases this
  · have hgt : d.1 < e.1 := Std.lt_of_le_of_ne (Std.not_lt.mp hge) (Ne.symm hne)
    have := h d.1
    rw [absent he hgt, lookup_cons, if_pos rfl] at this
    cases this

theorem entries_eq_of_lookup_eq {es ds : List (String × α)}
    (hes : es.Pairwise fun d e => d.1 < e.1) (hds : ds.Pairwise fun d e => d.1 < e.1)
    (h : ∀ name, es.lookup name = ds.lookup name) : es = ds := by
  induction es generalizing ds with
  | nil =>
    cases ds with
    | nil => rfl
    | cons d ds => simpa [lookup_cons] using h d.1
  | cons e es ih =>
    cases ds with
    | nil => simpa [lookup_cons] using h e.1
    | cons d ds =>
      obtain ⟨he, hes⟩ := List.pairwise_cons.mp hes
      obtain ⟨hd, hds⟩ := List.pairwise_cons.mp hds
      have same_name : e.1 = d.1 := first_name_eq he hd h
      have same_value : e.2 = d.2 := by
        simpa [lookup_cons, same_name] using h e.1
      rw [show e = d from Prod.ext same_name same_value, ih hes hds fun name => ?_]
      by_cases hn : name = e.1
      · rw [hn, lookup_eq_none_of_lt he, lookup_eq_none_of_lt fun x hx => same_name ▸ hd x hx]
      · simpa [lookup_cons, hn, ← same_name] using h name

/-- Tables are determined by their look-ups. -/
@[ext] theorem ext_get? {t u : Table α} (h : ∀ name, t.get? name = u.get? name) : t = u := by
  obtain ⟨es, hes⟩ := t
  obtain ⟨ds, hds⟩ := u
  have : es = ds := entries_eq_of_lookup_eq hes hds h
  subst this
  rfl

end Table
end Repartee
