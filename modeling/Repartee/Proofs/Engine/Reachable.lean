import Repartee.Engine.Basic
import Repartee.Proofs.Except
import Repartee.Proofs.Ranking

/-!
# Engines that can come about

`Engine.Reachable` holds of the engines that loading, conversations and edits of the variables and
the users can lead to, in any order. All of their topics are built by adding and sorting alone
(`Reachable.built`), so that after the sorting with which every conversation begins the rules of
every topic are ranked (`Database.Built.sorted_eq`).
-/

namespace Repartee

theorem Table.get?_mapValues {α β : Type} (t : Table α) (f : α → β) (name : String) :
    (t.mapValues f).get? name = (t.get? name).map f := by
  unfold Table.get? Table.mapValues
  simp only
  induction t.entries with
  | nil => rfl
  | cons e es ih =>
    rw [List.map_cons, Table.lookup_cons, Table.lookup_cons, ih]
    split <;> rfl

/-! ## Databases -/

namespace Database

/-- All topics are built by adding and sorting. -/
def Built (d : Database) : Prop :=
  ∀ name t, d.topics.get? name = some t → t.Built

theorem built_empty : Built empty := by
  intro name t h
  rw [empty, Table.get?_insert] at h
  split at h
  · exact Option.some.inj h ▸ .new defaultTopic
  · cases h

theorem Built.topicNamed {d : Database} (h : d.Built) (name : String) :
    (d.topicNamed name).Built := by
  unfold Database.topicNamed
  cases ht : d.topics.get? name with
  | none => exact .new name
  | some t => exact h name t ht

theorem Built.topicOrDefault {d : Database} (h : d.Built) (name : String) :
    (d.topicOrDefault name).Built := by
  unfold Database.topicOrDefault
  cases ht : d.topics.get? name with
  | none => exact h.topicNamed defaultTopic
  | some t => exact h name t ht

theorem Built.sort {d : Database} (h : d.Built) : d.sort.Built := by
  intro name t ht
  rw [Database.sort, Table.get?_mapValues] at ht
  obtain ⟨u, hu, rfl⟩ := Option.map_eq_some_iff.mp ht
  exact (h name u hu).sort

theorem topicNamed_sort (d : Database) (name : String) :
    d.sort.topicNamed name = (d.topicNamed name).sort := by
  unfold topicNamed sort
  rw [Table.get?_mapValues]
  cases d.topics.get? name <;> rfl

theorem topicOrDefault_sort (d : Database) (name : String) :
    d.sort.topicOrDefault name = (d.topicOrDefault name).sort := by
  unfold topicOrDefault topicNamed sort
  rw [Table.get?_mapValues, Table.get?_mapValues]
  cases d.topics.get? name with
  | some t => rfl
  | none =>
    cases d.topics.get? defaultTopic with
    | some t => rfl
    | none => rfl

theorem sort_sort (d : Database) : d.sort.sort = d.sort := by
  have htopics : d.sort.sort.topics = d.sort.topics := by
    refine Table.ext_get? fun name => ?_
    show ((d.topics.mapValues Topic.sort).mapValues Topic.sort).get? name =
      (d.topics.mapValues Topic.sort).get? name
    simp only [Table.get?_mapValues, Option.map_map, Function.comp_def, Topic.sort_sort]
  exact congrArg (Database.mk · d.scripts) htopics

/-- In a sorted database the rules of every topic are ranked. -/
theorem Built.sorted_eq {d : Database} (h : d.Built) (name : String) :
    (d.sort.topicOrDefault name).sorted = Topic.byRank (d.sort.topicOrDefault name).rules := by
  rw [topicOrDefault_sort]
  exact (h.topicOrDefault name).sorted_sort

theorem built_foldl_insert {t : Topic} (h : t.Built) (rules : List Rule) :
    (rules.foldl Topic.insert t).Built := by
  induction rules generalizing t with
  | nil => exact h
  | cons r rules ih => exact ih (h.insert r)

theorem built_foldl_addSubstitution {t : Topic} (h : t.Built) (substitutions : List Substitution) :
    (substitutions.foldl Topic.addSubstitution t).Built := by
  induction substitutions generalizing t with
  | nil => exact h
  | cons s substitutions ih => exact ih (h.addSubstitution s)

theorem Built.insert {d : Database} (h : d.Built) {t : Topic} (ht : t.Built) (name : String) :
    Built { d with topics := d.topics.insert name t } := by
  intro other u hu
  rw [Table.get?_insert] at hu
  split at hu
  · exact Option.some.inj hu ▸ ht
  · exact h other u hu

variable [Pattern.SizeLimit]

/-- A script that is added registers rules with its topic, each of them compiled from a rule that it
declares, and adds its substitutions. -/
theorem exists_of_addScript {d d' : Database} {bot : Variables} {s : Script}
    (h : addScript bot d s = .ok d') : ∃ alternates rules name,
      (s.declarations.rules.mapM fun r => Rule.compile? (s.ruleName r) r alternates bot) =
        .ok rules ∧
      d' = { d with
        topics := d.topics.insert name (s.declarations.substitutions.foldl Topic.addSubstitution
          (rules.foldl Topic.insert (d.topicNamed name))) } := by
  obtain ⟨alternates, -, h⟩ := Except.bind_eq_ok_iff.mp h
  obtain ⟨rules, hrules, h⟩ := Except.bind_eq_ok_iff.mp h
  exact ⟨alternates, rules, _, hrules, (Except.ok.inj h).symm⟩

theorem Built.addScript {d d' : Database} (h : d.Built) {bot : Variables} {s : Script}
    (hadd : Database.addScript bot d s = .ok d') : d'.Built := by
  obtain ⟨alternates, rules, name, -, rfl⟩ := exists_of_addScript hadd
  exact h.insert (built_foldl_addSubstitution (built_foldl_insert (h.topicNamed name) rules) _) name

/-- What holds of a database without rules, and is kept when a script is added and when the rules
are sorted, holds of every database that scripts are built into. -/
theorem holds_of_build {p : Database → Prop} {scripts : List Script} {candidates : Nat}
    {bot : Variables} (hstart : p { empty with scripts })
    (hadd : ∀ d d' s, s ∈ scripts → p d → addScript bot d s = .ok d' → p d')
    (hsort : ∀ d, p d → p d.sort) {d : Database} (h : build scripts candidates bot = .ok d) :
    p d := by
  have hfold : ∀ (front : List Script) d₁ d₂, front ⊆ scripts → p d₁ →
      front.foldlM (addScript bot) d₁ = .ok d₂ → p d₂ := by
    intro front
    induction front with
    | nil =>
      intro d₁ d₂ _ hd h
      exact Except.ok.inj h ▸ hd
    | cons s front ih =>
      intro d₁ d₂ hsub hd h
      obtain ⟨hs, hfront⟩ := List.cons_subset.mp hsub
      obtain ⟨d', hfirst, hrest⟩ := Except.bind_eq_ok_iff.mp h
      exact ih d' d₂ hfront (hadd d₁ d' s hs hd hfirst) hrest
  obtain ⟨d₁, hscripts, h⟩ := Except.bind_eq_ok_iff.mp h
  have hd₁ := hfold scripts _ d₁ (List.Subset.refl _) hstart hscripts
  split at h
  · cases h
  · obtain rfl := Except.ok.inj h
    exact hsort d₁ hd₁

theorem built_of_build {scripts : List Script} {candidates : Nat} {bot : Variables} {d : Database}
    (h : build scripts candidates bot = .ok d) : d.Built := by
  have hstart : Built { empty with scripts } := built_empty
  exact holds_of_build hstart (fun _ _ _ _ hd => hd.addScript) (fun _ hd => hd.sort) h

end Database

/-! ## Engines -/

namespace Engine

variable [Pattern.SizeLimit]

/-- The engines that can come about: rules are loaded and dropped, messages are answered, users are
forgotten, and the variables of the bot and what is kept of the users are changed from outside. -/
inductive Reachable : Engine → Prop
  | ofOptions [Random.Source] (options : Options) (entropy : UInt64) :
      Reachable (ofOptions options entropy)
  | load {e} (before : Reachable e) (scripts : List Script) : Reachable (e.load scripts).2
  | reload {e} (before : Reachable e) : Reachable e.reload.2
  | clearRules {e} (before : Reachable e) : Reachable e.clearRules
  | run {e} (before : Reachable e) (userId message : String) (trace : Option (List Step)) :
      Reachable (e.run userId message trace).2
  | clearUser {e} (before : Reachable e) (userId : String) : Reachable (e.clearUser userId).2
  | edit {e} (before : Reachable e) (bot : Variables) (users : Table User) :
      Reachable { e with bot, users }

/-- A load leaves a database that the scripts are built into, or one without rules. -/
theorem holds_of_load {p : Database → Prop} (hempty : p .empty) (e : Engine)
    (scripts : List Script)
    (hbuild : ∀ bot d,
      Database.build (Script.startAll (scripts.filter fun s => s.topic.isSome) e.bot).1
        scripts.length bot = .ok d → p d) : p (e.load scripts).2.database := by
  unfold Engine.load Database.load
  simp only
  split
  · rename_i hload
    exact hbuild _ _ (Prod.mk.inj hload).1
  · exact hempty

theorem database_run (e : Engine) (userId message : String) (trace : Option (List Step)) :
    (e.run userId message trace).2.database = e.database.sort := by
  unfold Engine.run
  simp only
  split
  · rfl
  · split <;> rfl

/-- What holds of a database without rules and of those that scripts are built into, and is kept
when the rules are sorted, holds of the database of every reachable engine. -/
theorem Reachable.holds {p : Database → Prop} (hempty : p .empty)
    (hbuild : ∀ scripts candidates bot d, Database.build scripts candidates bot = .ok d → p d)
    (hsort : ∀ d, p d → p d.sort) {e : Engine} (h : e.Reachable) : p e.database := by
  induction h with
  | ofOptions options entropy => exact hempty
  | load before scripts ih => exact holds_of_load hempty _ scripts fun _ _ => hbuild _ _ _ _
  | reload before ih => exact holds_of_load hempty _ _ fun _ _ => hbuild _ _ _ _
  | clearRules before ih => exact hempty
  | run before userId message trace ih =>
    rw [database_run]
    exact hsort _ ih
  | clearUser before userId ih => exact ih
  | edit before bot users ih => exact ih

/-- All topics of a reachable engine are built by adding and sorting. -/
theorem Reachable.built {e : Engine} (h : e.Reachable) : e.database.Built :=
  h.holds Database.built_empty (fun _ _ _ _ => Database.built_of_build) fun _ hd => hd.sort

end Engine
end Repartee
