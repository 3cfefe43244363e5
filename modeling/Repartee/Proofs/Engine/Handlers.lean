import Repartee.Proofs.Engine.Calls
import Repartee.Proofs.Handling

/-!
# What the handlers keep

Every handler that an engine calls was declared by one of its scripts (`Database.Declared`). So what
the scripts keep of the variables of the bot, when they are loaded and in all of their handlers
(`Script.Keeps`), holds all the time: at the beginning and at the end of every handler, and behind
every call, whether it succeeds or not, as long as nobody brings other scripts or edits the
variables from outside (`Engine.Keeps`). While it holds, the handlers change the variables in none
but the ways in which those of the scripts do.
-/

namespace Repartee

/-! ## Where the rules of a topic come from -/

/-- All rules of the topic have the property, those in the order of the last sorting as well. -/
structure Topic.All (p : Rule → Prop) (t : Topic) : Prop where
  rules : ∀ r ∈ t.rules, p r
  sorted : ∀ r ∈ t.sorted, p r

namespace Topic

variable {p : Rule → Prop} {t : Topic}

theorem all_new (name : String) : All p { name } :=
  ⟨fun _ hr => (List.not_mem_nil hr).elim, fun _ hr => (List.not_mem_nil hr).elim⟩

theorem All.imp {q : Rule → Prop} (h : t.All p) (himp : ∀ r, p r → q r) : t.All q :=
  ⟨fun r hr => himp r (h.rules r hr), fun r hr => himp r (h.sorted r hr)⟩

theorem All.insert (h : t.All p) {r : Rule} (hr : p r) : (t.insert r).All p := by
  unfold Topic.insert
  split
  · exact h
  · refine ⟨fun r' hr' => ?_, h.sorted⟩
    rcases List.mem_append.mp hr' with hr' | hr'
    · exact h.rules r' hr'
    · rw [List.mem_singleton.mp hr']
      exact hr

theorem All.foldl_insert (h : t.All p) {rules : List Rule} (hrules : ∀ r ∈ rules, p r) :
    (rules.foldl Topic.insert t).All p := by
  induction rules generalizing t with
  | nil => exact h
  | cons r rules ih =>
    obtain ⟨hr, hrest⟩ := List.forall_mem_cons.mp hrules
    exact ih (h.insert hr) hrest

theorem All.foldl_addSubstitution (h : t.All p) (substitutions : List Substitution) :
    (substitutions.foldl Topic.addSubstitution t).All p := by
  induction substitutions generalizing t with
  | nil => exact h
  | cons s substitutions ih => exact ih ⟨h.rules, h.sorted⟩

theorem All.sort (h : t.All p) : t.sort.All p := by
  unfold Topic.sort
  split
  · exact h
  · exact ⟨h.rules, fun r hr => h.rules r (List.mem_mergeSort.mp hr)⟩

/-- The first match is one of the rules, with what this rule remembers. -/
theorem of_firstMatch [Pattern.SizeLimit] {message : Target} {normalized : String}
    {replies : List Target} {b : Pattern.Bindings} {rules : List Rule} {r : Rule} {found : Match}
    (h : (firstMatch message normalized replies b rules).2 = some (r, found)) :
    r ∈ rules ∧ r.matchNormal? message normalized replies b = some found := by
  induction rules with
  | nil => cases h
  | cons r' rules ih =>
    unfold firstMatch at h
    split at h
    · rename_i hfound
      cases h
      exact ⟨List.mem_cons_self, hfound⟩
    · exact (ih h).imp_left (List.mem_cons_of_mem r')

end Topic

/-! ## Where the handlers of a database come from -/

theorem Rule.handler_of_compile? [Pattern.SizeLimit] {name : String} {definition : RuleDefinition}
    {alternates bot : Variables} {r : Rule}
    (h : Rule.compile? name definition alternates bot = .ok r) :
    r.handler = definition.handler := by
  obtain ⟨pattern, -, h⟩ := Except.bind_eq_ok_iff.mp h
  simp only at h
  split at h
  · cases h
  · obtain ⟨previous, -, h⟩ := Except.bind_eq_ok_iff.mp h
    cases h
    rfl

namespace Database

/-- All rules of all topics have the property. -/
def AllRules (p : Rule → Prop) (d : Database) : Prop :=
  ∀ name t, d.topics.get? name = some t → t.All p

section AllRules

variable {p : Rule → Prop} {d : Database}

theorem AllRules.imp {q : Rule → Prop} (h : d.AllRules p) (himp : ∀ r, p r → q r) :
    d.AllRules q :=
  fun name t ht => (h name t ht).imp himp

theorem AllRules.topicNamed (h : d.AllRules p) (name : String) : (d.topicNamed name).All p := by
  unfold Database.topicNamed
  cases ht : d.topics.get? name with
  | none => exact Topic.all_new name
  | some t => exact h name t ht

theorem AllRules.topicOrDefault (h : d.AllRules p) (name : String) :
    (d.topicOrDefault name).All p := by
  unfold Database.topicOrDefault
  cases ht : d.topics.get? name with
  | none => exact h.topicNamed defaultTopic
  | some t => exact h name t ht

theorem AllRules.sort (h : d.AllRules p) : d.sort.AllRules p := by
  intro name t ht
  rw [Database.sort, Table.get?_mapValues] at ht
  obtain ⟨u, hu, rfl⟩ := Option.map_eq_some_iff.mp ht
  exact (h name u hu).sort

theorem AllRules.insert (h : d.AllRules p) {t : Topic} (ht : t.All p) (name : String) :
    AllRules p { d with topics := d.topics.insert name t } := by
  intro other u hu
  rw [Table.get?_insert] at hu
  split at hu
  · exact Option.some.inj hu ▸ ht
  · exact h other u hu

end AllRules

/-- One of the scripts declares the handler of the rule. -/
def Declares (d : Database) (r : Rule) : Prop :=
  ∃ s ∈ d.scripts, ∃ definition ∈ s.declarations.rules, r.handler = definition.handler

/-- All handlers are declared by the scripts. -/
def Declared (d : Database) : Prop :=
  ∀ name t, d.topics.get? name = some t → t.All d.Declares

theorem declared_start (scripts : List Script) : Declared { empty with scripts } := by
  intro name t ht
  rw [empty, Table.get?_insert] at ht
  split at ht
  · exact Option.some.inj ht ▸ Topic.all_new defaultTopic
  · cases ht

theorem Declared.allRules {d : Database} (h : d.Declared) : d.AllRules d.Declares :=
  h

theorem Declared.sort {d : Database} (h : d.Declared) : d.sort.Declared :=
  h.allRules.sort

variable [Pattern.SizeLimit]

theorem Declared.addScript {d d' : Database} (h : d.Declared) {bot : Variables} {s : Script}
    (hs : s ∈ d.scripts) (hadd : Database.addScript bot d s = .ok d') :
    d'.scripts = d.scripts ∧ d'.Declared := by
  obtain ⟨alternates, rules, name, hrules, rfl⟩ := exists_of_addScript hadd
  have hdeclares : ∀ r ∈ rules, d.Declares r := by
    intro r hr
    obtain ⟨definition, hdefinition, hcompile⟩ := Except.exists_of_mem_mapM hrules hr
    exact ⟨s, hs, definition, hdefinition, Rule.handler_of_compile? hcompile⟩
  have htopic := ((h.allRules.topicNamed name).foldl_insert hdeclares).foldl_addSubstitution
    s.declarations.substitutions
  exact ⟨rfl, h.allRules.insert htopic name⟩

theorem declared_of_build {scripts : List Script} {candidates : Nat} {bot : Variables}
    {d : Database} (h : build scripts candidates bot = .ok d) :
    d.scripts = scripts ∧ d.Declared := by
  refine @holds_of_build _ (fun d => d.scripts = scripts ∧ d.Declared) scripts candidates bot
    ⟨rfl, declared_start scripts⟩ ?_ (fun d hd => ⟨hd.1, hd.2.sort⟩) d h
  intro d d' s hs hd hadd
  obtain ⟨hsame, hdeclared⟩ := hd.2.addScript (hd.1 ▸ hs) hadd
  exact ⟨hsame.trans hd.1, hdeclared⟩

end Database

/-- What happens behind a handler changes no variables of the bot. -/
theorem Invocation.bot_settled (d : Database) (i : Invocation) :
    (i.settled d).bot = i.after.bot := by
  unfold settled Session.settleTopic
  simp only
  split <;> rfl

/-- Of the random numbers, only those for the choice of a reply are used up behind a handler. -/
theorem Invocation.random_settled (d : Database) (i : Invocation) :
    (i.settled d).random = (i.reply.pick i.after.random).2 := by
  unfold settled Session.settleTopic
  simp only
  split <;> rfl

/-- What all rules of all topics have, the rule that a search finds has as well. -/
theorem Search.rule_of_invocation? [Pattern.SizeLimit] {scene : Scene} {p : Rule → Prop}
    (h : scene.database.AllRules p) {x : Search} {i : Invocation}
    (hx : x.invocation? scene = some i) : p i.rule := by
  obtain ⟨⟨r, found⟩, hfound, rfl⟩ := Option.map_eq_some_iff.mp hx
  unfold found? at hfound
  split at hfound
  · cases hfound
  · exact (h.topicOrDefault _).sorted r (Topic.of_firstMatch hfound).1

/-! ## What the scripts keep -/

/-- The script keeps the property of the variables of the bot, when it is loaded and in all of its
handlers, which change them in no other ways than these. -/
structure Script.Keeps (p : Variables → Prop) (changes : Variables → Variables → Prop)
    (s : Script) : Prop where
  setup : ∀ count bot, p bot → p (s.setup count bot)
  handlers : ∀ definition ∈ s.declarations.rules, ∀ context m, p m.bot →
    p (Handling.after (definition.handler context) m).bot ∧
      changes m.bot (Handling.after (definition.handler context) m).bot

namespace Script

variable {p : Variables → Prop} {changes : Variables → Variables → Prop}

/-- The scripts that are started are the same as before, but for the count of their starts. -/
theorem exists_of_mem_startAll {scripts : List Script} {bot : Variables} {s : Script}
    (h : s ∈ (startAll scripts bot).1) : ∃ s' ∈ scripts, ∃ setups, s = { s' with setups } := by
  induction scripts generalizing bot with
  | nil => exact (List.not_mem_nil h).elim
  | cons s' rest ih =>
    rcases List.mem_cons.mp h with rfl | h
    · exact ⟨s', List.mem_cons_self, _, rfl⟩
    · obtain ⟨s'', hs'', hsame⟩ := ih h
      exact ⟨s'', List.mem_cons_of_mem s' hs'', hsame⟩

theorem Keeps.startAll {scripts : List Script} (h : ∀ s ∈ scripts, s.Keeps p changes)
    {bot : Variables} (hbot : p bot) : p (Script.startAll scripts bot).2 := by
  induction scripts generalizing bot with
  | nil => exact hbot
  | cons s rest ih =>
    obtain ⟨hs, hrest⟩ := List.forall_mem_cons.mp h
    exact ih hrest (hs.setup _ bot hbot)

theorem Keeps.of_mem_startAll {scripts : List Script} (h : ∀ s ∈ scripts, s.Keeps p changes)
    {bot : Variables} {s : Script} (hs : s ∈ (Script.startAll scripts bot).1) :
    s.Keeps p changes := by
  obtain ⟨s', hs', setups, rfl⟩ := exists_of_mem_startAll hs
  exact ⟨(h s' hs').setup, (h s' hs').handlers⟩

end Script

/-! ## What an engine keeps -/

/-- The call brings no scripts, and edits no variables of the bot. -/
def Call.isOrdinary : Call → Bool
  | load _ | editBot _ => false
  | _ => true

namespace Engine

open Session

/-- The property holds of the variables of the bot, and all scripts of the engine keep it. -/
structure Keeps (p : Variables → Prop) (changes : Variables → Variables → Prop)
    (e : Engine) : Prop where
  bot : p e.bot
  scripts : ∀ s ∈ e.database.scripts, s.Keeps p changes
  declared : e.database.Declared

variable {p : Variables → Prop} {changes : Variables → Variables → Prop} {e : Engine}

/-- A handler that the scripts declare keeps the property. -/
theorem Keeps.after (h : e.Keeps p changes) {i : Invocation} (hi : e.database.Declares i.rule)
    (hbefore : p i.before.bot) : p i.after.bot ∧ changes i.before.bot i.after.bot := by
  obtain ⟨s, hs, definition, hdefinition, hhandler⟩ := hi
  show p (Handling.after (i.rule.handler i.context) i.before).bot ∧
    changes i.before.bot (Handling.after (i.rule.handler i.context) i.before).bot
  rw [hhandler]
  exact (h.scripts s hs).handlers definition hdefinition i.context i.before hbefore

variable [Pattern.SizeLimit]

theorem bot_load (e : Engine) (scripts : List Script) : (e.load scripts).2.bot =
    (Script.startAll (scripts.filter fun s => s.topic.isSome) e.bot).2 := by
  unfold Engine.load Database.load
  simp only
  split <;> exact (Prod.mk.inj ‹_›).2.symm

/-- Scripts that keep the property may be loaded, if it holds when all of them are set up. -/
theorem keeps_load {scripts : List Script} (hscripts : ∀ s ∈ scripts, s.Keeps p changes)
    (hbot : p (Script.startAll (scripts.filter fun s => s.topic.isSome) e.bot).2) :
    (e.load scripts).2.Keeps p changes := by
  have hloaded : ∀ s ∈ scripts.filter fun s => s.topic.isSome, s.Keeps p changes :=
    fun s hs => hscripts s (List.mem_of_mem_filter hs)
  have hdatabase : (∀ s ∈ (e.load scripts).2.database.scripts, s.Keeps p changes) ∧
      (e.load scripts).2.database.Declared := by
    refine @holds_of_load _ (fun d => (∀ s ∈ d.scripts, s.Keeps p changes) ∧ d.Declared)
      ⟨fun s hs => (List.not_mem_nil hs).elim, Database.declared_start []⟩ e scripts ?_
    intro bot d hbuild
    obtain ⟨hsame, hdeclared⟩ := Database.declared_of_build hbuild
    refine ⟨fun s hs => ?_, hdeclared⟩
    rw [hsame] at hs
    exact Script.Keeps.of_mem_startAll hloaded hs
  refine ⟨?_, hdatabase.1, hdatabase.2⟩
  rw [bot_load]
  exact hbot

theorem Keeps.reload (h : e.Keeps p changes) : e.reload.2.Keeps p changes := by
  have hstarted : ∀ s ∈ e.database.scripts.filter fun s => s.topic.isSome, s.Keeps p changes :=
    fun s hs => h.scripts s (List.mem_of_mem_filter hs)
  exact keeps_load h.scripts (Script.Keeps.startAll hstarted h.bot)

section Run

variable (userId message : String) (trace : Option (List Step))

theorem Keeps.searches (h : e.Keeps p changes) :
    (∀ x ∈ e.searches userId message trace, p x.session.memory.bot) ∧
      p (e.closingOf userId message trace).memory.bot := by
  refine (e.chained_searches userId message trace).kept (p := fun s => p s.memory.bot) ?_ h.bot
  intro depth input s hs
  rw [memory_search]
  cases hcall : Search.invocation? (e.sceneOf (e.userOf userId) userId message) ⟨depth, input, s⟩
    with
  | none => exact hs
  | some i =>
    have hdeclares := Search.rule_of_invocation? h.declared.sort.allRules hcall
    have hbefore := Search.before_of_invocation? hcall
    show p (i.settled e.database.sort).bot
    rw [Invocation.bot_settled]
    exact (h.after hdeclares (hbefore ▸ hs)).1

/-- The property holds at the beginning and at the end of every handler that a run calls. -/
theorem Keeps.invocations (h : e.Keeps p changes) {i : Invocation}
    (hi : i ∈ e.invocations userId message trace) :
    p i.before.bot ∧ p i.after.bot ∧ changes i.before.bot i.after.bot := by
  obtain ⟨x, hx, hcall⟩ := List.mem_filterMap.mp hi
  have hdeclares : e.database.Declares i.rule :=
    Search.rule_of_invocation? h.declared.sort.allRules hcall
  have hbefore : p i.before.bot := by
    rw [Search.before_of_invocation? hcall]
    exact (h.searches userId message trace).1 x hx
  exact ⟨hbefore, h.after hdeclares hbefore⟩

theorem Keeps.run (h : e.Keeps p changes) : (e.run userId message trace).2.Keeps p changes := by
  refine ⟨?_, ?_, ?_⟩
  · rw [bot_run]
    exact (h.searches userId message trace).2
  · rw [database_run]
    exact h.scripts
  · rw [database_run]
    exact h.declared.sort

end Run

theorem Keeps.perform (h : e.Keeps p changes) {call : Call} (hcall : call.isOrdinary = true) :
    (e.perform call).2.Keeps p changes := by
  cases call with
  | load scripts => cases hcall
  | reload => exact h.reload
  | clearRules =>
    exact ⟨h.bot, fun s hs => (List.not_mem_nil hs).elim, Database.declared_start []⟩
  | reply userId message =>
    obtain ⟨trace, hrun, -⟩ := @run_of_message? _ e userId message (.reply userId message) rfl
    rw [hrun]
    exact h.run userId message trace
  | replyVerbose userId message =>
    obtain ⟨trace, hrun, -⟩ :=
      @run_of_message? _ e userId message (.replyVerbose userId message) rfl
    rw [hrun]
    exact h.run userId message trace
  | clearUser userId => exact ⟨h.bot, h.scripts, h.declared⟩
  | editBot bot => cases hcall
  | editUser userId topic vars =>
    unfold Engine.perform editUser
    simp only
    split
    · exact h
    · exact ⟨h.bot, h.scripts, h.declared⟩

theorem Keeps.conduct (h : e.Keeps p changes) {calls : List Call}
    (hcalls : ∀ call ∈ calls, call.isOrdinary = true) : (e.conduct calls).2.Keeps p changes := by
  induction calls with
  | nil => exact h
  | cons call earlier ih =>
    obtain ⟨hcall, hearlier⟩ := List.forall_mem_cons.mp hcalls
    exact (ih hearlier).perform hcall

end Engine
end Repartee
