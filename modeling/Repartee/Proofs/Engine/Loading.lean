import Mathlib.Data.List.Induction
import Repartee.Proofs.Engine.Topics
import Repartee.Proofs.Table

/-!
# What a load produces

The scripts that have a topic say what there will be under each name: of the rules that are known by
the same key the first one, and all substitutions (`Script.rulesFor`, `Script.substitutionsFor`).
Adding one script after the other comes to this (`Database.gathers_filled`), provided that nothing
is refused, and otherwise to the first failure (`Database.build_eq`). A load leaves a database that
is described in this way, or one without rules, and nothing of the engine is changed beside it but
the variables of the bot (`Engine.load_outcome`).
-/

namespace Repartee

/-! ## Topics that are filled -/

/-- The rules are known by the same key. -/
def Rule.sameKey (r s : Rule) : Bool :=
  r.key == s.key

namespace Topic

/-- Of the rules that are known by the same key, the first one. -/
def firsts (rules : List Rule) : List Rule :=
  rules.eraseDupsBy Rule.sameKey

theorem firsts_eq_nil_iff {rules : List Rule} : firsts rules = [] ↔ rules = [] := by
  cases rules with
  | nil => exact ⟨fun _ => rfl, fun _ => rfl⟩
  | cons r rules => simp [firsts, List.eraseDupsBy_cons]

theorem hasKey_insert (t : Topic) (r : Rule) (key : String × String) :
    (t.insert r).hasKey key = (t.hasKey key || r.key == key) := by
  unfold insert
  split
  · rename_i hthere
    by_cases hkey : r.key = key
    · rw [← hkey, hthere, Bool.true_or]
    · rw [beq_false_of_ne hkey, Bool.or_false]
  · simp [hasKey]

/-- Of the rules that are registered with a topic, the first of each key is kept, if there was none
of this key before. -/
theorem rules_foldl_insert (t : Topic) (rules : List Rule) :
    (rules.foldl insert t).rules = t.rules ++ firsts (rules.filter fun r => !t.hasKey r.key) := by
  induction rules generalizing t with
  | nil => exact (List.append_nil t.rules).symm
  | cons r rules ih =>
    rw [List.foldl_cons, ih]
    by_cases hthere : t.hasKey r.key = true
    · rw [List.filter_cons_of_neg (by simp [hthere]), insert, if_pos hthere]
    · have hrules : (t.insert r).rules = t.rules ++ [r] := by rw [insert, if_neg hthere]
      have hrest : (rules.filter fun s => !(t.insert r).hasKey s.key) =
          (rules.filter fun s => !t.hasKey s.key).filter fun s => s.sameKey r = false := by
        rw [List.filter_filter]
        refine List.filter_congr fun s _ => ?_
        rw [hasKey_insert, Rule.sameKey, BEq.comm (a := r.key)]
        cases t.hasKey s.key <;> cases s.key == r.key <;> rfl
      rw [List.filter_cons_of_pos (by simp [hthere]), hrules, hrest, firsts, firsts,
        List.eraseDupsBy_cons, List.append_assoc]
      rfl

theorem rules_foldl_insert_new (name : String) (rules : List Rule) :
    (rules.foldl insert { name }).rules = firsts rules := by
  have hnone : (rules.filter fun r => !hasKey { name } r.key) = rules :=
    List.filter_eq_self.mpr fun r _ => rfl
  rw [rules_foldl_insert, hnone]
  rfl

theorem rules_foldl_insert_of_firsts {t : Topic} {earlier : List Rule}
    (h : t.rules = firsts earlier) (later : List Rule) :
    (later.foldl insert t).rules = firsts (earlier ++ later) := by
  have hsame : (earlier.foldl insert { name := t.name }).rules = t.rules :=
    (rules_foldl_insert_new _ _).trans h.symm
  rw [← rules_foldl_insert_new t.name, List.foldl_append, rules_foldl_insert, rules_foldl_insert]
  unfold hasKey
  rw [hsame]

theorem substitutions_foldl_insert (t : Topic) (rules : List Rule) :
    (rules.foldl insert t).substitutions = t.substitutions := by
  induction rules generalizing t with
  | nil => rfl
  | cons r rules ih =>
    rw [List.foldl_cons, ih]
    unfold insert
    split <;> rfl

theorem totalSize_eq_zero_iff {ts : List Topic} :
    totalSize ts = 0 ↔ ∀ t ∈ ts, t.rules = [] := by
  induction ts with
  | nil => simp [totalSize]
  | cons t ts ih =>
    rw [totalSize, Nat.add_eq_zero_iff, ih, List.forall_mem_cons]
    exact and_congr_left fun _ => List.length_eq_zero_iff

end Topic

/-! ## What scripts declare -/

namespace Script

/-- The script when it has prepared the variables of the bot once more. -/
def started (s : Script) : Script :=
  { s with setups := s.setups + 1 }

/-- The script when it has prepared the variables of the bot so many times more. -/
def restarted (times : Nat) (s : Script) : Script :=
  { s with setups := s.setups + times }

/-- The variables of the bot when all of the scripts have prepared them, one after the other. -/
def setUp (scripts : List Script) (bot : Variables) : Variables :=
  scripts.foldl (fun bot s => s.setup (s.setups + 1) bot) bot

theorem startAll_eq (scripts : List Script) (bot : Variables) :
    startAll scripts bot = (scripts.map started, setUp scripts bot) := by
  induction scripts generalizing bot with
  | nil => rfl
  | cons s rest ih =>
    unfold startAll start
    simp only [ih]
    rfl

variable [Pattern.SizeLimit]

/-- The name of an alternate, in lowercase, and what it stands for, in canonical form. -/
def alternate? (entry : String × String) : Option (String × Value) :=
  (Pattern.simple? entry.2).toOption.map fun pattern =>
    (Text.lower entry.1, .text pattern.canonical)

/-- What the patterns of the script may refer to. Of alternates of the same name, the last one
counts. -/
def alternateTable (s : Script) : Variables :=
  Table.ofList (s.declarations.alternates.filterMap alternate?)

def alternateFailure? (s : Script) (entry : String × String) : Option Error :=
  (Pattern.simple? entry.2).error?.map (.alternate s.name entry.1)

section Compile

variable (s : Script) (bot : Variables)

def compileRule? (definition : RuleDefinition) : Except Error Rule :=
  Rule.compile? (s.ruleName definition) definition s.alternateTable bot

/-- The rules of the script that are not refused. -/
def compiled : List Rule :=
  s.declarations.rules.filterMap fun definition => (s.compileRule? bot definition).toOption

/-- All that is refused in the script: first the alternates, then the rules. -/
def failures : List Error :=
  s.declarations.alternates.filterMap s.alternateFailure? ++
    s.declarations.rules.filterMap fun definition => (s.compileRule? bot definition).error?

/-- Nothing in the script is refused. -/
structure Compiles : Prop where
  alternates : ∀ entry ∈ s.declarations.alternates, ∃ pattern, Pattern.simple? entry.2 = .ok pattern
  rules : ∀ definition ∈ s.declarations.rules, ∃ r, s.compileRule? bot definition = .ok r

variable {s bot}

theorem failures_eq_nil_iff : s.failures bot = [] ↔ s.Compiles bot := by
  unfold failures alternateFailure?
  rw [List.append_eq_nil_iff, List.filterMap_eq_nil_iff, List.filterMap_eq_nil_iff]
  simp only [Option.map_eq_none_iff, Except.error?_eq_none_iff]
  exact ⟨fun h => ⟨h.1, h.2⟩, fun h => ⟨h.alternates, h.rules⟩⟩

theorem Compiles.compiled_eq_nil_iff (h : s.Compiles bot) :
    s.compiled bot = [] ↔ s.declarations.rules = [] := by
  rw [compiled, List.filterMap_eq_nil_iff]
  constructor
  · intro hnone
    refine List.eq_nil_iff_forall_not_mem.mpr fun definition hmem => ?_
    obtain ⟨r, hr⟩ := h.rules definition hmem
    have hrefused := hnone definition hmem
    rw [hr] at hrefused
    cases hrefused
  · intro hnil definition hmem
    rw [hnil] at hmem
    exact (List.not_mem_nil hmem).elim

end Compile

theorem alternates?_eq (s : Script) : s.alternates? =
    .ofFailures (s.declarations.alternates.filterMap s.alternateFailure?) s.alternateTable := by
  have hadd : ∀ table entry, s.addAlternate table entry =
      .ofFailures (s.alternateFailure? entry).toList
        (table.insertMany (alternate? entry).toList) := by
    intro table entry
    unfold addAlternate alternateFailure? alternate?
    cases Pattern.simple? entry.2 <;> rfl
  unfold alternates? alternateTable Table.ofList Table.insertMany
  rw [Except.foldlM_eq_ofFailures hadd, List.filterMap_eq_flatMap_toList,
    List.filterMap_eq_flatMap_toList, List.foldl_flatMap]
  rfl

end Script

/-! ## What scripts are built into -/

namespace Script

/-- What the scripts declare for the topic of this name, one script after the other. -/
def substitutionsFor (scripts : List Script) (name : String) : List Substitution :=
  (scripts.filter fun s => s.topic = some name).flatMap fun s => s.declarations.substitutions

theorem substitutionsFor_append {front : List Script} {s : Script} {name : String} :
    substitutionsFor (front ++ [s]) name = substitutionsFor front name ++
      if s.topic = some name then s.declarations.substitutions else [] := by
  unfold substitutionsFor
  rw [List.filter_append, List.flatMap_append]
  split <;> simp [*]

variable [Pattern.SizeLimit]

/-- The rules of the scripts for the topic of this name, but for those that are refused. -/
def rulesFor (scripts : List Script) (bot : Variables) (name : String) : List Rule :=
  (scripts.filter fun s => s.topic = some name).flatMap fun s => s.compiled bot

theorem rulesFor_append {front : List Script} {s : Script} {bot : Variables} {name : String} :
    rulesFor (front ++ [s]) bot name =
      rulesFor front bot name ++ if s.topic = some name then s.compiled bot else [] := by
  unfold rulesFor
  rw [List.filter_append, List.flatMap_append]
  split <;> simp [*]

/-- What there will be under this name. -/
def topicFor (scripts : List Script) (bot : Variables) (name : String) : Topic where
  name := name
  rules := Topic.firsts (rulesFor scripts bot name)
  sorted := Topic.byRank (Topic.firsts (rulesFor scripts bot name))
  isSorted := true
  substitutions := substitutionsFor scripts name

end Script

namespace Database

theorem ruleCount_eq (d : Database) :
    d.ruleCount = Topic.totalSize (d.topics.names.map d.topicNamed) := by
  unfold ruleCount Table.values Table.names
  rw [List.map_map]
  refine congrArg Topic.totalSize (List.map_congr_left fun e he => ?_)
  rw [Function.comp_apply, topicNamed, Table.mem_entries_iff.mp he, Option.getD_some]

theorem ruleCount_eq_zero_iff {d : Database} :
    d.ruleCount = 0 ↔ ∀ name, (d.topicNamed name).rules = [] := by
  rw [ruleCount_eq, Topic.totalSize_eq_zero_iff, List.forall_mem_map]
  refine ⟨fun h name => ?_, fun h name _ => h name⟩
  cases ht : d.topics.get? name with
  | none => rw [topicNamed, ht, Option.getD_none]
  | some t => exact h name (List.mem_map.mpr ⟨_, Table.mem_entries_iff.mpr ht, rfl⟩)

variable [Pattern.SizeLimit]

/-- Adds what the script declares to its topic, but for what is refused. -/
def extend (bot : Variables) (d : Database) (s : Script) : Database :=
  let name := s.topic.getD defaultTopic
  let topic := (s.compiled bot).foldl Topic.insert (d.topicNamed name)
  let topic := s.declarations.substitutions.foldl Topic.addSubstitution topic
  { d with topics := d.topics.insert name topic }

/-- What the scripts come to, but for what is refused, with no rules sorted. -/
def filled (scripts : List Script) (bot : Variables) : Database :=
  scripts.foldl (extend bot) { empty with scripts }

theorem scripts_filled (scripts : List Script) (bot : Variables) :
    (filled scripts bot).scripts = scripts := by
  have hfold : ∀ (rest : List Script) (d : Database),
      (rest.foldl (Database.extend bot) d).scripts = d.scripts := by
    intro rest
    induction rest with
    | nil => exact fun d => rfl
    | cons s rest ih => exact fun d => ih (d.extend bot s)
  exact hfold scripts _

theorem addScript_eq (bot : Variables) (d : Database) (s : Script) :
    addScript bot d s = .ofFailures (s.failures bot) (extend bot d s) := by
  unfold addScript
  rw [s.alternates?_eq]
  refine Except.ofFailures_bind ?_
  show List.mapM (s.compileRule? bot) s.declarations.rules >>= _ = _
  rw [Except.mapM_eq_ofFailures]
  cases s.declarations.rules.filterMap fun definition => (s.compileRule? bot definition).error? <;>
    rfl

/-- The scripts come to a database if nothing is refused in them and there is a rule. Otherwise it
is the first of the failures that is reported. -/
theorem build_eq (scripts : List Script) (candidates : Nat) (bot : Variables) :
    build scripts candidates bot =
      if (scripts.flatMap fun s => s.failures bot) = [] ∧ (filled scripts bot).ruleCount ≠ 0 then
        .ok (filled scripts bot).sort
      else
        .error
          ((scripts.flatMap fun s => s.failures bot).head?.getD (.noRulesFound candidates)) := by
  unfold build
  rw [Except.foldlM_eq_ofFailures (addScript_eq bot)]
  show Except.ofFailures _ (filled scripts bot) >>= _ = _
  cases scripts.flatMap fun s => s.failures bot with
  | nil =>
    by_cases hnone : (filled scripts bot).ruleCount = 0
    · rw [if_neg fun h => h.2 hnone]
      show (if (filled scripts bot).ruleCount = 0 then _ else _) = _
      rw [if_pos hnone]
      rfl
    · rw [if_pos ⟨rfl, hnone⟩]
      show (if (filled scripts bot).ruleCount = 0 then _ else _) = _
      rw [if_neg hnone]
      rfl
  | cons err rest => rfl

variable {bot : Variables} {scripts front : List Script} {d : Database}

/-- The database holds what the scripts declare, under the names for which they declare it. -/
structure Gathers (bot : Variables) (scripts : List Script) (d : Database) : Prop where
  hasTopic : ∀ name, d.hasTopic name = true ↔
    name = defaultTopic ∨ ∃ s ∈ scripts, s.topic = some name
  rules : ∀ name, (d.topicNamed name).rules = Topic.firsts (Script.rulesFor scripts bot name)
  substitutions : ∀ name,
    (d.topicNamed name).substitutions = Script.substitutionsFor scripts name

theorem gathers_start (bot : Variables) (scripts : List Script) :
    Gathers bot [] { empty with scripts } where
  hasTopic name := by
    unfold hasTopic Table.contains empty
    rw [Table.get?_insert]
    split <;> simp [*]
  rules name := by
    unfold topicNamed empty
    rw [Table.get?_insert]
    split <;> rfl
  substitutions name := by
    unfold topicNamed empty
    rw [Table.get?_insert]
    split <;> rfl

theorem topicNamed_extend (d : Database) {s : Script} {own : String} (hs : s.topic = some own)
    (name : String) : (d.extend bot s).topicNamed name =
      if own = name then
        s.declarations.substitutions.foldl Topic.addSubstitution
          ((s.compiled bot).foldl Topic.insert (d.topicNamed name))
      else d.topicNamed name := by
  unfold extend
  rw [hs]
  show ((d.topics.insert own _).get? name).getD _ = _
  rw [Table.get?_insert]
  by_cases heq : name = own
  · rw [if_pos heq, if_pos heq.symm, heq]
    rfl
  · rw [if_neg heq, if_neg (Ne.symm heq)]
    rfl

theorem Gathers.extend (h : Gathers bot front d) {s : Script} {own : String}
    (hs : s.topic = some own) : Gathers bot (front ++ [s]) (d.extend bot s) where
  hasTopic name := by
    unfold Database.hasTopic Table.contains Database.extend
    rw [hs, Option.getD_some, Table.get?_insert]
    by_cases heq : name = own
    · simp [heq, hs]
    · rw [if_neg heq]
      refine (h.hasTopic name).trans ?_
      simp [hs, Ne.symm heq]
  rules name := by
    rw [topicNamed_extend d hs, Script.rulesFor_append, hs]
    by_cases heq : own = name
    · rw [if_pos heq, if_pos (congrArg some heq), Topic.foldl_addSubstitution]
      exact Topic.rules_foldl_insert_of_firsts (h.rules name) _
    · rw [if_neg heq, if_neg fun hsome => heq (Option.some.inj hsome), List.append_nil]
      exact h.rules name
  substitutions name := by
    rw [topicNamed_extend d hs, Script.substitutionsFor_append, hs]
    by_cases heq : own = name
    · rw [if_pos heq, if_pos (congrArg some heq), Topic.foldl_addSubstitution]
      exact congrArg (· ++ s.declarations.substitutions)
        ((Topic.substitutions_foldl_insert _ _).trans (h.substitutions name))
    · rw [if_neg heq, if_neg fun hsome => heq (Option.some.inj hsome), List.append_nil]
      exact h.substitutions name

theorem gathers_filled (h : ∀ s ∈ scripts, s.topic.isSome = true) :
    Gathers bot scripts (filled scripts bot) := by
  have hfold : ∀ all, Gathers bot scripts
      (scripts.foldl (Database.extend bot) { empty with scripts := all }) := by
    intro all
    induction scripts using List.reverseRecOn with
    | nil => exact gathers_start bot all
    | append_singleton front s ih =>
      obtain ⟨hfront, hs⟩ := List.forall_mem_append.mp h
      obtain ⟨own, hown⟩ := Option.isSome_iff_exists.mp (hs s List.mem_cons_self)
      rw [List.foldl_concat]
      exact (ih hfront).extend hown
  exact hfold scripts

/-- How often the scripts have prepared the variables of the bot makes no difference. -/
theorem Gathers.of_restarted {times : Nat}
    (h : Gathers bot (scripts.map (Script.restarted times)) d) : Gathers bot scripts d where
  hasTopic name := by
    rw [h.hasTopic]
    simp [Script.restarted]
  rules name := by
    rw [h.rules, Script.rulesFor, List.filter_map, List.flatMap_map]
    rfl
  substitutions name := by
    rw [h.substitutions, Script.substitutionsFor, List.filter_map, List.flatMap_map]
    rfl

theorem Gathers.of_started (h : Gathers bot (scripts.map Script.started) d) :
    Gathers bot scripts d :=
  @Gathers.of_restarted _ bot scripts d 1 h

theorem Gathers.sort (h : Gathers bot scripts d) : Gathers bot scripts d.sort where
  hasTopic name := by
    rw [hasTopic_sort]
    exact h.hasTopic name
  rules name := by
    rw [topicNamed_sort, Topic.rules_sort]
    exact h.rules name
  substitutions name := by
    rw [topicNamed_sort, Topic.substitutions_sort]
    exact h.substitutions name

/-- Once it is sorted, every topic is what the scripts make of it. -/
theorem Gathers.topicNamed_eq (h : Gathers bot scripts d) (hbuilt : d.Built) (hnamed : d.Named)
    (hsorted : d.sort = d) (name : String) : d.topicNamed name = Script.topicFor scripts bot name :=
  calc d.topicNamed name = (d.topicNamed name).sort := by rw [← topicNamed_sort, hsorted]
    _ = Script.topicFor scripts bot name := by
      rw [(hbuilt.topicNamed name).sort_eq, hnamed.topicNamed, h.rules, h.substitutions]
      rfl

/-! ## How many rules there are -/

theorem Gathers.ruleCount_eq_zero_iff (h : Gathers bot scripts d)
    (htopics : ∀ s ∈ scripts, s.topic.isSome = true) :
    d.ruleCount = 0 ↔ ∀ s ∈ scripts, s.compiled bot = [] := by
  rw [Database.ruleCount_eq_zero_iff]
  simp only [h.rules, Topic.firsts_eq_nil_iff, Script.rulesFor, List.flatMap_eq_nil_iff,
    List.mem_filter, decide_eq_true_eq]
  constructor
  · intro hnone s hs
    obtain ⟨own, hown⟩ := Option.isSome_iff_exists.mp (htopics s hs)
    exact hnone own s ⟨hs, hown⟩
  · exact fun hnone name s hs => hnone s hs.1

theorem Gathers.succeeds_iff (h : Gathers bot scripts d)
    (htopics : ∀ s ∈ scripts, s.topic.isSome = true) :
    (scripts.flatMap fun s => s.failures bot) = [] ∧ d.ruleCount ≠ 0 ↔
      (∀ s ∈ scripts, s.Compiles bot) ∧ ∃ s ∈ scripts, s.declarations.rules ≠ [] := by
  simp only [List.flatMap_eq_nil_iff, Script.failures_eq_nil_iff]
  refine and_congr_right fun hcompiles => ?_
  rw [Ne, h.ruleCount_eq_zero_iff htopics]
  push Not
  exact exists_congr fun s => and_congr_right fun hs =>
    not_congr (hcompiles s hs).compiled_eq_nil_iff

/-- Scripts that have been started come to a database that holds what they declare, if nothing is
refused in them and there is a rule. -/
theorem exists_build_started (bot : Variables)
    (htopics : ∀ s ∈ scripts, s.topic.isSome = true) (candidates : Nat) :
    ∃ d : Database, Gathers bot scripts d ∧ d.scripts = scripts.map Script.started ∧
      build (scripts.map Script.started) candidates bot =
        if (scripts.flatMap fun s => s.failures bot) = [] ∧ d.ruleCount ≠ 0 then .ok d.sort
        else .error ((scripts.flatMap fun s => s.failures bot).head?.getD
          (.noRulesFound candidates)) := by
  have hstarted : ∀ s ∈ scripts.map Script.started, s.topic.isSome = true :=
    List.forall_mem_map.mpr htopics
  refine ⟨filled (scripts.map Script.started) bot, (gathers_filled hstarted).of_started,
    scripts_filled _ bot, ?_⟩
  rw [build_eq, List.flatMap_map]
  rfl

end Database

/-! ## Loads -/

namespace Engine

theorem load_eq [Pattern.SizeLimit] (e : Engine) (scripts : List Script)
    {result : Except Error Database}
    (h : Database.build ((scripts.filter fun s => s.topic.isSome).map Script.started) scripts.length
      (Script.setUp (scripts.filter fun s => s.topic.isSome) e.bot) = result) :
    e.load scripts =
      let bot := Script.setUp (scripts.filter fun s => s.topic.isSome) e.bot
      match result with
      | .ok database => (.ok database.ruleCount, { e with database, bot })
      | .error err => (.error err, { e with database := .empty, bot }) := by
  unfold Engine.load Database.load
  simp only [Script.startAll_eq, h]
  cases result <;> rfl

/-- A load takes the scripts that have a topic and lets all of them prepare the variables of the
bot. It succeeds if nothing is refused in them and there is a rule. Then the topics are those of the
scripts and the default topic, and each of them holds what the scripts declare for it. Otherwise it
is the first failure that is reported, and there are no rules and no scripts any more. -/
theorem load_outcome [Pattern.SizeLimit] (e : Engine) (scripts : List Script) :
    let loaded := scripts.filter fun s => s.topic.isSome
    let bot := Script.setUp loaded e.bot
    let e' := (e.load scripts).2
    ((∃ count, (e.load scripts).1 = .ok count) ↔
      (∀ s ∈ loaded, s.Compiles bot) ∧ ∃ s ∈ loaded, s.declarations.rules ≠ []) ∧
    (∀ count, (e.load scripts).1 = .ok count →
      e' = { e with bot, database := e'.database } ∧
      e'.database.scripts = loaded.map Script.started ∧
      (∀ name, e'.database.hasTopic name = true ↔
        name = defaultTopic ∨ ∃ s ∈ loaded, s.topic = some name) ∧
      (∀ name t, e'.database.topics.get? name = some t → t = Script.topicFor loaded bot name) ∧
      count = Topic.totalSize (e'.database.topics.names.map (Script.topicFor loaded bot))) ∧
    ∀ err, (e.load scripts).1 = .error err →
      err = (loaded.flatMap fun s => s.failures bot).head?.getD (.noRulesFound scripts.length) ∧
      e' = { e with bot, database := .empty } := by
  intro loaded bot e'
  have htopics : ∀ s ∈ loaded, s.topic.isSome = true := fun s hs => (List.mem_filter.mp hs).2
  obtain ⟨d, hgathers, hscripts, hbuild⟩ :=
    Database.exists_build_started bot htopics scripts.length
  rw [← hgathers.succeeds_iff htopics]
  by_cases hgood : (loaded.flatMap fun s => s.failures bot) = [] ∧ d.ruleCount ≠ 0
  · rw [if_pos hgood] at hbuild
    have hload : e.load scripts = (.ok d.sort.ruleCount, { e with database := d.sort, bot }) :=
      load_eq e scripts hbuild
    have he' : e' = { e with database := d.sort, bot } := congrArg Prod.snd hload
    rw [he', hload]
    refine ⟨⟨fun _ => hgood, fun _ => ⟨_, rfl⟩⟩, fun count hcount => ?_, fun err herr => ?_⟩
    · have htopic := hgathers.sort.topicNamed_eq (Database.built_of_build hbuild)
        (Database.named_of_build hbuild) (Database.sort_sort d)
      refine ⟨rfl, hscripts, hgathers.sort.hasTopic, fun name t ht => ?_, ?_⟩
      · rw [← htopic, Database.topicNamed, ht, Option.getD_some]
      · rw [← Except.ok.inj hcount, Database.ruleCount_eq, funext htopic]
    · cases herr
  · rw [if_neg hgood] at hbuild
    have hload := load_eq e scripts hbuild
    have he' : e' = { e with database := .empty, bot } := congrArg Prod.snd hload
    rw [he', hload]
    refine ⟨⟨?_, fun h => absurd h hgood⟩, ?_, fun err herr => ⟨(Except.error.inj herr).symm, rfl⟩⟩
    · rintro ⟨count, hcount⟩
      cases hcount
    · intro count hcount
      cases hcount

section Example

attribute [local instance] Pattern.SizeLimit.byWeight Random.Source.splitMix

/-- Rules of the same key are kept once, also if they come from different scripts. -/
example :
    let twins := [
      { name := "a", declarations := { rules := [
        { name := "hi", pattern := "hi", handler := .say "Hello!" },
        { name := "bye", pattern := "bye", handler := .say "Goodbye!" }] } },
      { name := "b", declarations := { rules := [
        { name := "hi", pattern := "hi", handler := .say "Hi!" }] } }]
    ((ofOptions {} 0).load twins).1 = .ok 2 := by
  cbv

end Example

end Engine

end Repartee
