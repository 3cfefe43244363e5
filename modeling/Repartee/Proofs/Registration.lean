import Repartee.Proofs.Engine.Loading

/-!
# Topics after any operations

Rules are registered with a topic, substitutions are added to it and its rules are sorted, in any
order (`Topic.Operation`). Then its rules are the first ones of each key, it counts as sorted unless
a rule has been accepted since, and what it tries are the rules that were there when it was last
sorted to some effect (`Topic.LastSort`), in the order of their ranks.

A registry is such a topic with its keys in a set, and with the places of the rules in the order in
which they are tried in the place of these rules. It represents the topic after any operations
(`Registry.represents_after`): rules only ever arrive behind those that are there, so the places
stay valid also while the registry is not sorted (`map_getElem?_append`).
-/

namespace Repartee

namespace Topic

/-! ## Operations -/

inductive Operation where
  | insert (r : Rule)
  | sort
  | addSubstitution (s : Substitution)

def perform (t : Topic) : Operation → Topic
  | .insert r => t.insert r
  | .sort => t.sort
  | .addSubstitution s => t.addSubstitution s

/-- The topic of this name after the operations, which begin when there is nothing in it. -/
def after (name : String) (ops : List Operation) : Topic :=
  ops.foldl perform { name }

/-- The rule that the operation is to register. -/
def Operation.rule? : Operation → Option Rule
  | insert r => some r
  | sort => none
  | addSubstitution _ => none

/-- The rules that are registered, accepted or not. -/
def inserted (ops : List Operation) : List Rule :=
  ops.filterMap Operation.rule?

variable {name : String} {ops : List Operation}

theorem after_concat (name : String) (ops : List Operation) (op : Operation) :
    after name (ops ++ [op]) = (after name ops).perform op :=
  List.foldl_concat ..

@[simp] theorem inserted_concat_insert (ops : List Operation) (r : Rule) :
    inserted (ops ++ [.insert r]) = inserted ops ++ [r] := by
  simp [inserted, Operation.rule?]

@[simp] theorem inserted_concat_sort (ops : List Operation) :
    inserted (ops ++ [.sort]) = inserted ops := by
  simp [inserted, Operation.rule?]

@[simp] theorem inserted_concat_addSubstitution (ops : List Operation) (s : Substitution) :
    inserted (ops ++ [.addSubstitution s]) = inserted ops := by
  simp [inserted, Operation.rule?]

theorem built_after (name : String) (ops : List Operation) : (after name ops).Built := by
  induction ops using List.reverseRecOn with
  | nil => exact .new name
  | append_singleton ops op ih =>
    rw [after_concat]
    cases op with
    | insert r => exact ih.insert r
    | sort => exact ih.sort
    | addSubstitution s => exact ih.addSubstitution s

/-! ## Rules and keys -/

theorem rules_after (name : String) (ops : List Operation) :
    (after name ops).rules = firsts (inserted ops) := by
  induction ops using List.reverseRecOn with
  | nil => rfl
  | append_singleton ops op ih =>
    rw [after_concat]
    cases op with
    | insert r =>
      rw [inserted_concat_insert]
      exact rules_foldl_insert_of_firsts ih [r]
    | sort =>
      rw [inserted_concat_sort, ← ih]
      exact rules_sort _
    | addSubstitution s =>
      rw [inserted_concat_addSubstitution, ← ih]
      rfl

theorem hasKey_after_iff {key : String × String} :
    (after name ops).hasKey key = true ↔ ∃ s ∈ inserted ops, s.key = key := by
  induction ops using List.reverseRecOn with
  | nil => simp [after, inserted, hasKey]
  | append_singleton ops op ih =>
    rw [after_concat]
    cases op with
    | insert r =>
      rw [perform, hasKey_insert, Bool.or_eq_true, ih]
      simp [or_and_right, exists_or]
    | sort =>
      rw [inserted_concat_sort, ← ih, hasKey, perform, rules_sort]
      rfl
    | addSubstitution s =>
      rw [inserted_concat_addSubstitution, ← ih]
      rfl

theorem insert_of_hasKey {t : Topic} {r : Rule} (h : t.hasKey r.key = true) : t.insert r = t :=
  if_pos h

theorem sorted_insert (t : Topic) (r : Rule) : (t.insert r).sorted = t.sorted := by
  unfold insert
  split <;> rfl

theorem isSorted_insert {t : Topic} {r : Rule} :
    (t.insert r).isSorted = true ↔ t.isSorted = true ∧ t.hasKey r.key = true := by
  unfold insert
  split <;> simp [*]

/-! ## When a topic is sorted -/

/-- Where a list that ends with `x` is divided at `y`, this is the end, or the end is behind it. -/
theorem concat_eq_append_cons_iff {α : Type} {l front back : List α} {x y : α} :
    l ++ [x] = front ++ y :: back ↔ (l = front ∧ x = y ∧ back = []) ∨
      ∃ back', l = front ++ y :: back' ∧ back = back' ++ [x] := by
  rcases List.eq_nil_or_concat' back with rfl | ⟨back, z, rfl⟩
  · simp
  · constructor
    · intro h
      rw [← List.cons_append, ← List.append_assoc] at h
      obtain ⟨hl, hx⟩ := List.append_inj' h rfl
      exact .inr ⟨back, hl, congrArg (back ++ ·) hx.symm⟩
    · rintro (⟨-, -, h⟩ | ⟨back', rfl, h⟩)
      · exact absurd h (List.append_ne_nil_of_right_ne_nil back (List.cons_ne_nil z []))
      · rw [h, List.append_assoc, List.cons_append]

/-- No rule has been accepted since the last sorting: whatever is registered behind it has the key
of an earlier one. -/
def NoneAccepted (ops : List Operation) : Prop :=
  ∀ front r back, ops = front ++ .insert r :: back → .sort ∉ back →
    ∃ s ∈ inserted front, s.key = r.key

theorem noneAccepted_concat_sort (ops : List Operation) : NoneAccepted (ops ++ [.sort]) := by
  intro front r back heq hback
  rcases concat_eq_append_cons_iff.mp heq with ⟨-, hop, -⟩ | ⟨back', -, rfl⟩
  · cases hop
  · exact absurd (List.mem_append_right back' List.mem_cons_self) hback

theorem noneAccepted_concat_iff {op : Operation} (hop : op ≠ .sort) :
    NoneAccepted (ops ++ [op]) ↔
      NoneAccepted ops ∧ ∀ r, op = .insert r → ∃ s ∈ inserted ops, s.key = r.key := by
  unfold NoneAccepted
  simp only [concat_eq_append_cons_iff]
  constructor
  · intro h
    refine ⟨fun front r back heq hback => ?_, fun r hr => h ops r [] (.inl ⟨rfl, hr, rfl⟩) ?_⟩
    · refine h front r (back ++ [op]) (.inr ⟨back, heq, rfl⟩) fun hmem => ?_
      rcases List.mem_append.mp hmem with hmem | hmem
      · exact hback hmem
      · exact hop (List.mem_singleton.mp hmem).symm
    · exact List.not_mem_nil
  · rintro ⟨hops, hlast⟩ front r back (⟨rfl, hr, rfl⟩ | ⟨back', heq, rfl⟩) hback
    · exact hlast r hr
    · exact hops front r back' heq fun hmem => hback (List.mem_append_left _ hmem)

theorem isSorted_after_iff : (after name ops).isSorted = true ↔ NoneAccepted ops := by
  induction ops using List.reverseRecOn with
  | nil => simp [after, NoneAccepted]
  | append_singleton ops op ih =>
    rw [after_concat]
    cases op with
    | insert r =>
      rw [noneAccepted_concat_iff (by simp), perform, isSorted_insert, hasKey_after_iff, ih]
      exact and_congr_right fun _ => ⟨fun h r' hr => by cases hr; exact h, fun h => h r rfl⟩
    | sort => exact iff_of_true (isSorted_sort _) (noneAccepted_concat_sort ops)
    | addSubstitution s =>
      rw [noneAccepted_concat_iff (by simp)]
      exact ⟨fun h => ⟨ih.mp h, fun r hr => absurd hr (by simp)⟩, fun h => ih.mpr h.1⟩

/-! ## What is tried -/

/-- The last sorting that had any effect is the one between `front` and `back`. -/
structure LastSort (name : String) (ops front back : List Operation) : Prop where
  split : ops = front ++ .sort :: back
  unsorted : (after name front).isSorted = false
  last : ∀ front' back', back = front' ++ .sort :: back' →
    (after name (front ++ .sort :: front')).isSorted = true

/-- No sorting had any effect. -/
def NeverSorted (name : String) (ops : List Operation) : Prop :=
  ∀ front back, ops = front ++ .sort :: back → (after name front).isSorted = true

/-- These rules were there when the topic was sorted to some effect for the last time. -/
def Ranked (name : String) (ops : List Operation) (rules : List Rule) : Prop :=
  (NeverSorted name ops ∧ rules = []) ∨
    ∃ front back, LastSort name ops front back ∧ rules = firsts (inserted front)

section Idle

variable {op : Operation} (idle : op = .sort → (after name ops).isSorted = true)

include idle

theorem LastSort.concat {front back : List Operation} (h : LastSort name ops front back) :
    LastSort name (ops ++ [op]) front (back ++ [op]) where
  split := by rw [h.split, List.append_assoc, List.cons_append]
  unsorted := h.unsorted
  last front' back' heq := by
    rcases concat_eq_append_cons_iff.mp heq with ⟨rfl, hop, -⟩ | ⟨back'', heq, -⟩
    · rw [← h.split]
      exact idle hop
    · exact h.last front' back'' heq

theorem NeverSorted.concat (h : NeverSorted name ops) : NeverSorted name (ops ++ [op]) := by
  intro front back heq
  rcases concat_eq_append_cons_iff.mp heq with ⟨rfl, hop, -⟩ | ⟨back', heq, -⟩
  · exact idle hop
  · exact h front back' heq

theorem Ranked.concat {rules : List Rule} (h : Ranked name ops rules) :
    Ranked name (ops ++ [op]) rules := by
  rcases h with ⟨hnever, rfl⟩ | ⟨front, back, hlast, rfl⟩
  · exact .inl ⟨hnever.concat idle, rfl⟩
  · exact .inr ⟨front, back ++ [op], hlast.concat idle, rfl⟩

end Idle

theorem lastSort_concat_sort (h : (after name ops).isSorted = false) :
    LastSort name (ops ++ [.sort]) ops [] where
  split := rfl
  unsorted := h
  last front back heq := absurd heq.symm (by simp)

/-- What is tried are the rules that were ranked last. -/
theorem exists_sorted_after (name : String) (ops : List Operation) :
    ∃ rules, Ranked name ops rules ∧ (after name ops).sorted = byRank rules := by
  induction ops using List.reverseRecOn with
  | nil => exact ⟨[], .inl ⟨fun front back heq => absurd heq.symm (by simp), rfl⟩,
      by simp [after, byRank]⟩
  | append_singleton ops op ih =>
    obtain ⟨rules, hranked, hsorted⟩ := ih
    rw [after_concat]
    cases op with
    | insert r =>
      refine ⟨rules, hranked.concat fun hop => absurd hop (by simp), ?_⟩
      rw [← hsorted]
      exact sorted_insert _ r
    | sort =>
      cases h : (after name ops).isSorted with
      | true =>
        refine ⟨rules, hranked.concat fun _ => h, ?_⟩
        rw [← hsorted, perform, sort, if_pos h]
      | false =>
        refine ⟨firsts (inserted ops), .inr ⟨ops, [], lastSort_concat_sort h, rfl⟩, ?_⟩
        rw [perform, sort, if_neg (by rw [h]; exact Bool.false_ne_true), rules_after]
    | addSubstitution s =>
      exact ⟨rules, hranked.concat fun hop => absurd hop (by simp), hsorted⟩

end Topic

/-! ## Registries -/

/-- A topic with its keys in a set, and with places instead of rules in the order in which these are
tried. -/
structure Registry where
  name : String
  /-- The rules in the order of registration. -/
  rules : List Rule := []
  keys : List (String × String) := []
  /-- The places of the rules in the order in which they are tried, as of the last sorting. -/
  order : List Nat := []
  /-- A rule has arrived since the last sorting. -/
  isDirty : Bool := false
  substitutions : List Substitution := []

namespace Registry

open Topic

/-- Registers a rule, and tells whether it has been accepted. -/
def insert (g : Registry) (r : Rule) : Bool × Registry :=
  if r.key ∈ g.keys then (false, g)
  else (true, { g with rules := g.rules ++ [r], keys := r.key :: g.keys, isDirty := true })

/-- The first one of two rules is not ranked below the second one. -/
def isAbove : Option Rule → Option Rule → Bool
  | some r, some s => (r.compare s).isGE
  | _, _ => false

/-- The places of the rules from the highest rank down. -/
def places (rules : List Rule) : List Nat :=
  (List.range rules.length).mergeSort fun i j => isAbove rules[i]? rules[j]?

/-- Sorts the places of the rules, if a rule has arrived. -/
def sort (g : Registry) : Registry :=
  if g.isDirty then { g with order := places g.rules, isDirty := false } else g

theorem accepts_iff (g : Registry) (r : Rule) : (g.insert r).1 = true ↔ r.key ∉ g.keys := by
  unfold insert
  split <;> simp [*]

theorem eq_of_refused {g : Registry} {r : Rule} (h : (g.insert r).1 = false) :
    (g.insert r).2 = g := by
  unfold insert at h ⊢
  split
  · rfl
  · rename_i hnew
    rw [if_neg hnew] at h
    cases h

def addSubstitution (g : Registry) (s : Substitution) : Registry :=
  { g with substitutions := g.substitutions ++ [s] }

def perform (g : Registry) : Operation → Registry
  | .insert r => (g.insert r).2
  | .sort => g.sort
  | .addSubstitution s => g.addSubstitution s

def after (name : String) (ops : List Operation) : Registry :=
  ops.foldl perform { name }

/-- The registry holds what the topic holds. In particular there is a rule at every place in its
order. -/
structure Represents (g : Registry) (t : Topic) : Prop where
  name : g.name = t.name
  rules : g.rules = t.rules
  keys : ∀ key, key ∈ g.keys ↔ t.hasKey key = true
  order : (g.order.map fun i => g.rules[i]?) = t.sorted.map some
  isDirty : g.isDirty = !t.isSorted
  substitutions : g.substitutions = t.substitutions

/-- A place stays valid when rules arrive behind those that are there. -/
theorem map_getElem?_append {rules sorted : List Rule} {order : List Nat}
    (h : (order.map fun i => rules[i]?) = sorted.map some) (more : List Rule) :
    (order.map fun i => (rules ++ more)[i]?) = sorted.map some := by
  rw [← h]
  refine List.map_congr_left fun i hi => ?_
  have hthere : rules[i]? ∈ sorted.map some := by
    rw [← h]
    exact List.mem_map_of_mem hi
  obtain ⟨r, -, hr⟩ := List.mem_map.mp hthere
  obtain ⟨hlt, -⟩ := List.getElem?_eq_some_iff.mp hr.symm
  exact List.getElem?_append_left hlt

/-- The rules at the sorted places are the sorted rules. -/
theorem map_places (rules : List Rule) :
    ((places rules).map fun i => rules[i]?) = (byRank rules).map some := by
  have hrange : ((List.range rules.length).map fun i => rules[i]?) = rules.map some := by
    refine List.ext_getElem? fun i => ?_
    rw [List.getElem?_map, List.getElem?_map]
    by_cases hi : i < rules.length
    · rw [List.getElem?_range hi]
      simp [hi]
    · simp [hi]
  calc ((places rules).map fun i => rules[i]?)
      = ((List.range rules.length).map fun i => rules[i]?).mergeSort isAbove :=
        List.map_mergeSort fun i _ j _ => rfl
    _ = (rules.map some).mergeSort isAbove := by rw [hrange]
    _ = (byRank rules).map some :=
        (@List.map_mergeSort _ _ _ isAbove some rules fun r _ s _ => rfl).symm

section Represents

variable {g : Registry} {t : Topic} (h : g.Represents t)

include h

theorem Represents.insert (r : Rule) : (g.insert r).2.Represents (t.insert r) := by
  unfold Registry.insert Topic.insert
  by_cases hkey : t.hasKey r.key = true
  · rw [if_pos hkey, if_pos ((h.keys _).mpr hkey)]
    exact h
  · rw [if_neg hkey, if_neg (mt (h.keys _).mp hkey)]
    exact {
      name := h.name
      rules := congrArg (· ++ [r]) h.rules
      keys := fun key => by
        simp only [List.mem_cons, h.keys, hasKey, List.any_append, List.any_cons, List.any_nil,
          Bool.or_false, Bool.or_eq_true, beq_iff_eq]
        rw [or_comm, @eq_comm _ key]
      order := map_getElem?_append h.order [r]
      isDirty := rfl
      substitutions := h.substitutions }

theorem Represents.sort : g.sort.Represents t.sort := by
  unfold Registry.sort Topic.sort
  rw [h.isDirty]
  cases t.isSorted with
  | true => exact h
  | false =>
    exact {
      name := h.name
      rules := h.rules
      keys := h.keys
      order := by rw [← h.rules]; exact map_places g.rules
      isDirty := rfl
      substitutions := h.substitutions }

theorem Represents.addSubstitution (s : Substitution) :
    (g.addSubstitution s).Represents (t.addSubstitution s) :=
  { h with substitutions := congrArg (· ++ [s]) h.substitutions }

theorem Represents.perform (op : Operation) : (g.perform op).Represents (t.perform op) := by
  cases op with
  | insert r => exact h.insert r
  | sort => exact h.sort
  | addSubstitution s => exact h.addSubstitution s

end Represents

theorem represents_after (name : String) (ops : List Operation) :
    (after name ops).Represents (Topic.after name ops) := by
  induction ops using List.reverseRecOn with
  | nil => exact ⟨rfl, rfl, fun key => by simp [after, Topic.after, hasKey], rfl, rfl, rfl⟩
  | append_singleton ops op ih =>
    rw [Topic.after_concat, after, List.foldl_concat]
    exact ih.perform op

end Registry

/-! ## Any run of operations -/

namespace Topic

theorem sorted_after_concat_sort (name : String) (ops : List Operation) :
    (after name (ops ++ [.sort])).sorted = byRank (firsts (inserted ops)) := by
  rw [after_concat, perform, (built_after name ops).sorted_sort, rules_sort, rules_after]

/-- After any operations, a topic and the registry that represents it hold the first rule of each
key, and another rule is accepted if its key is new and changes nothing if not. They count as sorted
unless a rule has been accepted since the last sorting. What is tried is an arrangement of the rules
that were there at the last sorting with an effect, in which each rule is ahead of those behind it.
So after a final sorting it is determined by the rules that were registered, in their order. -/
theorem operations_in_step (name : String) (ops : List Operation) :
    let t := after name ops
    let g := Registry.after name ops
    g.Represents t ∧
    t.rules = firsts (inserted ops) ∧
    (∀ r, ((g.insert r).1 = true ↔ ∀ s ∈ inserted ops, s.key ≠ r.key) ∧
      ((g.insert r).1 = false → (g.insert r).2 = g ∧ t.insert r = t)) ∧
    (t.isSorted = true ↔ NoneAccepted ops) ∧
    (∃ rules, ∃ ranked : List (Rule × Nat), Ranked name ops rules ∧
      t.sorted = ranked.map Prod.fst ∧ ranked.Perm rules.zipIdx ∧ ranked.Pairwise Rule.Ahead) ∧
    ∀ other ops', inserted ops' = inserted ops →
      (after other (ops' ++ [.sort])).sorted = (after name (ops ++ [.sort])).sorted := by
  intro t g
  have hrepresents : g.Represents t := Registry.represents_after name ops
  refine ⟨hrepresents, rules_after name ops, fun r => ?_, isSorted_after_iff, ?_,
    fun other ops' hsame => ?_⟩
  · have haccepts : (g.insert r).1 = true ↔ ∀ s ∈ inserted ops, s.key ≠ r.key := by
      rw [Registry.accepts_iff, hrepresents.keys, hasKey_after_iff]
      push Not
      rfl
    refine ⟨haccepts, fun hrefused => ⟨Registry.eq_of_refused hrefused, insert_of_hasKey ?_⟩⟩
    rw [← hrepresents.keys, ← not_not (a := r.key ∈ g.keys), ← Registry.accepts_iff, hrefused]
    exact Bool.false_ne_true
  · obtain ⟨rules, hranked, hsorted⟩ := exists_sorted_after name ops
    obtain ⟨ranked, hrank, hperm, hahead⟩ := exists_ranked rules
    exact ⟨rules, ranked, hranked, hsorted.trans hrank, hperm, hahead⟩
  · rw [sorted_after_concat_sort, sorted_after_concat_sort, hsame]

end Topic

end Repartee
