import Repartee.Proofs.Engine.Calls
import Repartee.Proofs.Engine.Isolation
import Repartee.Proofs.Engine.Loading
import Repartee.Proofs.Pattern.Dependence
import Repartee.Proofs.Table

/-!
# Loading the same scripts again

A rule is compiled with the values of the bot variables that its patterns refer to, and with no
others (`Rule.compile?_congr`). If the scripts themselves give these variables their values, then
what they come to does not depend on what the variables were before (`Script.Settled`), nor on how
often the scripts have been started. So they come to the same topics when they are loaded again,
whatever has become of the variables meanwhile (`Database.build_again`), and as long as nobody
brings other scripts this can be done at any time (`Engine.Holds`). Where every script always puts
the same entries into the variables, these are back behind the load (`Engine.reload_restores`).
-/

namespace Repartee

/-! ## Rules -/

/-- The variables that the patterns of the rule refer to. -/
def RuleDefinition.references (d : RuleDefinition) : List (Pattern.VariableKind × String) :=
  Pattern.referencesOf d.pattern ++ Pattern.referencesOf d.previous

theorem Rule.compile?_congr [Pattern.SizeLimit] {name : String} {d : RuleDefinition}
    {alternates bot bot' : Variables}
    (h : ∀ x, (.bot, x) ∈ d.references → bot.get? x = bot'.get? x) :
    Rule.compile? name d alternates bot = Rule.compile? name d alternates bot' := by
  have hagree : Pattern.Bindings.Agree { alternates, bot } { alternates, bot := bot' }
      d.references := by
    rintro ⟨kind, x⟩ hx
    cases kind with
    | alternate => rfl
    | bot => exact h x hx
    | user => rfl
  have hpattern := Pattern.ofText?_congr (fun x hx => hagree x (List.mem_append_left _ hx)) rfl
  have hprevious := Pattern.ofText?_congr (fun x hx => hagree x (List.mem_append_right _ hx)) rfl
  simp only [Rule.compile?, hpattern, hprevious]

/-! ## Scripts -/

namespace Script

/-- Every script always puts the same entries into the variables of the bot. -/
theorem setUp_eq {scripts : List Script} {entries : Script → List (String × Value)}
    (h : ∀ s ∈ scripts, ∀ time bot, s.setup time bot = bot.insertMany (entries s))
    (times : Nat) (bot : Variables) :
    setUp (scripts.map (restarted times)) bot = bot.insertMany (scripts.flatMap entries) := by
  induction scripts generalizing bot with
  | nil => rfl
  | cons s rest ih =>
    obtain ⟨hs, hrest⟩ := List.forall_mem_cons.mp h
    have hsetUp : setUp ((s :: rest).map (restarted times)) bot =
        setUp (rest.map (restarted times)) (s.setup (s.setups + times + 1) bot) := rfl
    rw [hsetUp, hs, ih hrest, List.flatMap_cons]
    exact (List.foldl_append ..).symm

variable [Pattern.SizeLimit]

/-- The rules come to the same whatever the variables of the bot were before the scripts prepared
them, and however often the scripts have done so. -/
def Settled (scripts : List Script) : Prop :=
  ∀ times times' bot bot', ∀ s ∈ scripts, ∀ definition ∈ s.declarations.rules,
    s.compileRule? (setUp (scripts.map (restarted times')) bot') definition =
      s.compileRule? (setUp (scripts.map (restarted times)) bot) definition

variable {scripts : List Script}

theorem settled_of_references
    (h : ∀ s ∈ scripts, ∀ definition ∈ s.declarations.rules, ∀ x,
      (.bot, x) ∉ definition.references) : Settled scripts :=
  fun _ _ _ _ s hs definition hmem =>
    Rule.compile?_congr fun x hx => absurd hx (h s hs definition hmem x)

theorem settled_of_entries {entries : Script → List (String × Value)}
    (h : ∀ s ∈ scripts, ∀ time bot, s.setup time bot = bot.insertMany (entries s))
    (written : ∀ s ∈ scripts, ∀ definition ∈ s.declarations.rules, ∀ x,
      (.bot, x) ∈ definition.references → x ∈ (scripts.flatMap entries).map Prod.fst) :
    Settled scripts := by
  intro times times' bot bot' s hs definition hmem
  rw [setUp_eq h, setUp_eq h]
  exact Rule.compile?_congr fun x hx =>
    Table.get?_insertMany_of_mem (written s hs definition hmem x hx) _ _

end Script

/-! ## Databases -/

namespace Database

variable [Pattern.SizeLimit] {bot bot' : Variables} {scripts : List Script} {d d' : Database}

/-- What a database gathers from scripts depends on the variables of the bot by what the rules come
to. -/
theorem Gathers.congr (h : Gathers bot scripts d)
    (same : ∀ s ∈ scripts, s.compiled bot' = s.compiled bot) : Gathers bot' scripts d where
  hasTopic := h.hasTopic
  rules name := by
    rw [h.rules, Script.rulesFor, Script.rulesFor]
    refine congrArg Topic.firsts (List.flatMap_congr fun s hs => ?_)
    exact (same s (List.mem_of_mem_filter hs)).symm
  substitutions := h.substitutions

/-- Sorted databases that gather the same have the same topics. -/
theorem Gathers.topics_eq (h : Gathers bot scripts d) (h' : Gathers bot scripts d')
    (hbuilt : d.Built) (hbuilt' : d'.Built) (hnamed : d.Named) (hnamed' : d'.Named)
    (hsorted : d.sort = d) (hsorted' : d'.sort = d') : d'.topics = d.topics := by
  refine Table.ext_get? fun name => ?_
  have htopic : d'.topicNamed name = d.topicNamed name :=
    (h'.topicNamed_eq hbuilt' hnamed' hsorted' name).trans
      (h.topicNamed_eq hbuilt hnamed hsorted name).symm
  by_cases hthere : d.hasTopic name = true
  · have hthere' : d'.hasTopic name = true := (h'.hasTopic name).mpr ((h.hasTopic name).mp hthere)
    rw [get?_of_hasTopic hthere, get?_of_hasTopic hthere', topicOrDefault_of_hasTopic hthere,
      topicOrDefault_of_hasTopic hthere', htopic]
  · have hthere' : ¬d'.hasTopic name = true := fun h'' =>
      hthere ((h.hasTopic name).mpr ((h'.hasTopic name).mp h''))
    rw [Option.not_isSome_iff_eq_none.mp hthere, Option.not_isSome_iff_eq_none.mp hthere']

/-- Scripts whose rules come to the same can be built again, however often they have been started,
and come to the same topics. -/
theorem build_again {times times' candidates candidates' : Nat}
    (htopics : ∀ s ∈ scripts, s.topic.isSome = true)
    (same : ∀ s ∈ scripts, ∀ definition ∈ s.declarations.rules,
      s.compileRule? bot' definition = s.compileRule? bot definition)
    (h : build (scripts.map (Script.restarted times)) candidates bot = .ok d) :
    build (scripts.map (Script.restarted times')) candidates' bot' =
      .ok { d with scripts := scripts.map (Script.restarted times') } := by
  have hgathers : ∀ times bot,
      Gathers bot scripts (filled (scripts.map (Script.restarted times)) bot) := fun times bot =>
    have hrestarted : ∀ s ∈ scripts.map (Script.restarted times), s.topic.isSome = true :=
      List.forall_mem_map.mpr htopics
    (gathers_filled hrestarted).of_restarted
  have hfailures : ∀ times bot, ((scripts.map (Script.restarted times)).flatMap
      fun s => s.failures bot) = scripts.flatMap fun s => s.failures bot := fun times bot =>
    List.flatMap_map ..
  have hcompiled : ∀ s ∈ scripts, s.compiled bot' = s.compiled bot := fun s hs =>
    List.filterMap_congr fun definition hmem => congrArg _ (same s hs definition hmem)
  have hrefused : (scripts.flatMap fun s => s.failures bot') =
      scripts.flatMap fun s => s.failures bot :=
    List.flatMap_congr fun s hs => congrArg (_ ++ ·) <|
      List.filterMap_congr fun definition hmem => congrArg _ (same s hs definition hmem)
  have hbuild := build_eq (scripts.map (Script.restarted times)) candidates bot
  have hbuild' := build_eq (scripts.map (Script.restarted times')) candidates' bot'
  rw [hfailures, h] at hbuild
  rw [hfailures, hrefused] at hbuild'
  split at hbuild
  · rename_i hgood
    have hgood' : (filled (scripts.map (Script.restarted times')) bot').ruleCount ≠ 0 := by
      rw [Ne, (hgathers times' bot').ruleCount_eq_zero_iff htopics]
      rw [Ne, (hgathers times bot).ruleCount_eq_zero_iff htopics] at hgood
      exact fun hnone => hgood.2 fun s hs => (hcompiled s hs).symm.trans (hnone s hs)
    rw [if_pos ⟨hgood.1, hgood'⟩] at hbuild'
    obtain rfl := Except.ok.inj hbuild
    rw [hbuild']
    refine congrArg Except.ok ?_
    have hsame := ((hgathers times bot).congr hcompiled).sort.topics_eq (hgathers times' bot').sort
      (built_of_build h) (built_of_build hbuild') (named_of_build h) (named_of_build hbuild')
      (sort_sort _) (sort_sort _)
    rw [← hsame]
    exact congrArg (Database.mk _) (scripts_filled _ bot')
  · cases hbuild

theorem eq_of_build {candidates : Nat} (h : build scripts candidates bot = .ok d) :
    d = (filled scripts bot).sort := by
  rw [build_eq] at h
  split at h
  · exact (Except.ok.inj h).symm
  · cases h

theorem sort_of_build {candidates : Nat} (h : build scripts candidates bot = .ok d) :
    d.sort = d := by
  rw [eq_of_build h, sort_sort]

theorem scripts_of_build {candidates : Nat} (h : build scripts candidates bot = .ok d) :
    d.scripts = scripts := by
  rw [eq_of_build h]
  exact scripts_filled scripts bot

end Database

/-! ## Engines -/

/-- The call leaves it to the engine which scripts there are. -/
def Call.keepsScripts : Call → Bool
  | load _ | clearRules => false
  | _ => true

namespace Engine

variable {e : Engine} {scripts : List Script} {d : Database}

/-- The engine holds these scripts, started so many times, and the topics that they come to. -/
structure Holds (scripts : List Script) (topics : Table Topic) (e : Engine) : Prop where
  scripts : ∃ times, e.database.scripts = scripts.map (Script.restarted times)
  topics : e.database.topics = topics

/-- Scripts that can be built can be loaded. -/
theorem load_of_build [Pattern.SizeLimit] {loaded : List Script}
    (hloaded : (scripts.filter fun s => s.topic.isSome) = loaded)
    (hbuild : Database.build (loaded.map Script.started) scripts.length
      (Script.setUp loaded e.bot) = .ok d) :
    e.load scripts =
      (.ok d.ruleCount, { e with database := d, bot := Script.setUp loaded e.bot }) := by
  subst hloaded
  exact load_eq e scripts hbuild

theorem exists_build_of_load [Pattern.SizeLimit] {count : Nat}
    (h : (e.load scripts).1 = .ok count) :
    let loaded := scripts.filter fun s => s.topic.isSome
    ∃ d, Database.build (loaded.map Script.started) scripts.length (Script.setUp loaded e.bot) =
      .ok d := by
  intro loaded
  cases hbuild : Database.build (loaded.map Script.started) scripts.length
      (Script.setUp loaded e.bot) with
  | error err =>
    rw [load_eq e scripts hbuild] at h
    cases h
  | ok d => exact ⟨d, rfl⟩

section Settled

variable [Pattern.SizeLimit] {candidates : Nat} {bot : Variables}
  (htopics : ∀ s ∈ scripts, s.topic.isSome = true)
  (settled : Script.Settled scripts)
  (hbuild : Database.build (scripts.map Script.started) candidates (Script.setUp scripts bot) =
    .ok d)

include htopics settled hbuild

/-- An engine can load again the scripts that it holds. -/
theorem Holds.reload (h : e.Holds scripts d.topics) :
    e.reload.1 = .ok d.ruleCount ∧ e.reload.2.Holds scripts d.topics ∧
      e.reload.2 =
        { e with
          database := e.reload.2.database
          bot := Script.setUp e.database.scripts e.bot } := by
  obtain ⟨times, hscripts⟩ := h.scripts
  have hloaded : e.database.scripts.filter (fun s => s.topic.isSome) = e.database.scripts := by
    rw [hscripts]
    exact List.filter_eq_self.mpr (List.forall_mem_map.mpr htopics)
  have hstarted : e.database.scripts.map Script.started =
      scripts.map (Script.restarted (times + 1)) := by
    rw [hscripts, List.map_map]
    rfl
  have hsame : ∀ s ∈ scripts, ∀ definition ∈ s.declarations.rules,
      s.compileRule? (Script.setUp e.database.scripts e.bot) definition =
        s.compileRule? (Script.setUp scripts bot) definition := by
    intro s hs definition hmem
    have hfirst : scripts.map (Script.restarted 0) = scripts := List.map_id _
    have hsettled := settled 0 times bot e.bot s hs definition hmem
    rwa [hfirst, ← hscripts] at hsettled
  have hagain : Database.build (e.database.scripts.map Script.started) e.database.scripts.length
      (Script.setUp e.database.scripts e.bot) =
        .ok { d with scripts := e.database.scripts.map Script.started } := by
    rw [hstarted]
    exact Database.build_again htopics hsame hbuild
  rw [Engine.reload, load_of_build hloaded hagain]
  exact ⟨rfl, ⟨⟨times + 1, hstarted⟩, rfl⟩, rfl⟩

/-- The engine holds the scripts as long as nobody brings others. -/
theorem Holds.perform (h : e.Holds scripts d.topics) {call : Call}
    (hcall : call.keepsScripts = true) : (e.perform call).2.Holds scripts d.topics := by
  cases hmessage : call.message? with
  | some sent =>
    obtain ⟨trace, hrun, -, -⟩ := @run_of_message? _ e sent.1 sent.2 call hmessage
    have hsorted : e.database.sort.topics = d.topics :=
      calc e.database.sort.topics
        _ = d.sort.topics := congrArg (Table.mapValues · Topic.sort) h.topics
        _ = d.topics := by rw [Database.sort_of_build hbuild]
    rw [hrun]
    refine ⟨?_, ?_⟩
    · rw [database_run]
      exact h.scripts
    · rw [database_run]
      exact hsorted
  | none =>
    cases call with
    | reload => exact (h.reload htopics settled hbuild).2.1
    | clearUser userId => exact ⟨h.scripts, h.topics⟩
    | editBot bot => exact ⟨h.scripts, h.topics⟩
    | editUser userId topic vars =>
      show (e.editUser userId topic vars).Holds scripts d.topics
      unfold editUser
      split
      · exact h
      · exact ⟨h.scripts, h.topics⟩
    | load scripts => cases hcall
    | clearRules => cases hcall
    | reply userId message => cases hmessage
    | replyVerbose userId message => cases hmessage

theorem Holds.conduct (h : e.Holds scripts d.topics) {calls : List Call}
    (hcalls : ∀ call ∈ calls, call.keepsScripts = true) :
    (e.conduct calls).2.Holds scripts d.topics := by
  induction calls with
  | nil => exact h
  | cons call earlier ih =>
    obtain ⟨hcall, hearlier⟩ := List.forall_mem_cons.mp hcalls
    exact (ih hearlier).perform htopics settled hbuild hcall

end Settled

/-- If every script always puts the same entries into the variables of the bot, and these are all to
which the rules refer, then the scripts that were loaded can be loaded again at any time, whatever
has been said and edited since. The topics are the same as behind the first load, with the same
rules in the same order, the entries are back, and nothing else is changed. -/
theorem reload_restores [Pattern.SizeLimit] (e : Engine) (scripts : List Script)
    (entries : Script → List (String × Value)) :
    let loaded := scripts.filter fun s => s.topic.isSome
    (∀ s ∈ loaded, ∀ time bot, s.setup time bot = bot.insertMany (entries s)) →
    (∀ s ∈ loaded, ∀ definition ∈ s.declarations.rules, ∀ x, (.bot, x) ∈ definition.references →
      x ∈ (loaded.flatMap entries).map Prod.fst) →
    ∀ count, (e.load scripts).1 = .ok count →
    ∀ calls : List Call, (∀ call ∈ calls, call.keepsScripts = true) →
      let before := (e.load scripts).2
      let later := (before.conduct calls).2
      let after := later.reload.2
      later.reload.1 = .ok count ∧
        after.database.topics = before.database.topics ∧
        (∃ times, after.database.scripts = loaded.map (Script.restarted times)) ∧
        after = { later with database := after.database, bot := after.bot } ∧
        after.bot = later.bot.insertMany (loaded.flatMap entries) ∧
        ∀ x ∈ (loaded.flatMap entries).map Prod.fst, after.bot.get? x = before.bot.get? x := by
  intro loaded setups written count hload calls hcalls before later after
  have htopics : ∀ s ∈ loaded, s.topic.isSome = true := fun s hs => (List.mem_filter.mp hs).2
  have settled := Script.settled_of_entries setups written
  obtain ⟨d, hbuild⟩ := exists_build_of_load hload
  have hbefore := load_of_build rfl hbuild
  have hholds : before.Holds loaded d.topics := by
    show (e.load scripts).2.Holds loaded d.topics
    rw [hbefore]
    exact ⟨⟨1, Database.scripts_of_build hbuild⟩, rfl⟩
  have hlater : later.Holds loaded d.topics := hholds.conduct htopics settled hbuild hcalls
  obtain ⟨hcount, hafter, hrest⟩ := hlater.reload htopics settled hbuild
  have hbot : after.bot = later.bot.insertMany (loaded.flatMap entries) := by
    obtain ⟨times, hscripts⟩ := hlater.scripts
    rw [← Script.setUp_eq setups times, ← hscripts]
    exact congrArg Engine.bot hrest
  have hfirst : before.bot = e.bot.insertMany (loaded.flatMap entries) := by
    have hrestarted : loaded.map (Script.restarted 0) = loaded := List.map_id _
    rw [← Script.setUp_eq setups 0, hrestarted]
    exact congrArg (fun outcome => outcome.2.bot) hbefore
  refine ⟨?_, ?_, hafter.scripts, ?_, hbot, fun x hx => ?_⟩
  · rw [hcount, ← hload, hbefore]
  · rw [hafter.topics, hholds.topics]
  · rw [congrArg Engine.bot hrest]
    exact hrest
  · rw [hbot, hfirst]
    exact Table.get?_insertMany_of_mem hx _ _

section Example

attribute [local instance] Pattern.SizeLimit.byWeight Random.Source.splitMix

/-- A script that gives the bot a mood, which one of its rules asks for and another one spoils. -/
def moody : Script where
  name := "moody"
  setup _ bot := bot.insert "mood" (.text "happy")
  declarations := {
    rules := [
      { name := "ask", pattern := "are you in a %b:mood mood", handler := .say "I am!" },
      { name := "spoil", pattern := "spoil it"
        handler := fun _ => do
          Memory.setBot "mood" (.text "sad")
          return .text "Oh no!" }] }

theorem reload_restores_moody :
    let before := ((ofOptions {} 0).load [moody]).2
    let later := (before.conduct [.reply "ann" "spoil it", .editBot ∅, .reply "bob" "hi"]).2
    later.reload.1 = .ok 2 ∧
      later.reload.2.database.topics = before.database.topics ∧
      later.reload.2.bot.get? "mood" = some (.text "happy") := by
  have hsetups : ∀ s ∈ [moody], ∀ time bot,
      s.setup time bot = bot.insertMany [("mood", .text "happy")] :=
    List.forall_mem_singleton.mpr fun _ _ => rfl
  have hreferences : moody.declarations.rules.flatMap RuleDefinition.references =
      [(.bot, "mood")] := by decide +kernel
  have hwritten : ∀ s ∈ [moody], ∀ definition ∈ s.declarations.rules, ∀ x,
      (.bot, x) ∈ definition.references → x ∈ ["mood"] := by
    refine List.forall_mem_singleton.mpr fun definition hmem x hx => ?_
    have hx' := List.mem_flatMap.mpr ⟨definition, hmem, hx⟩
    rw [hreferences, List.mem_singleton] at hx'
    exact List.mem_singleton.mpr (Prod.mk.inj hx').2
  have hload : ((ofOptions {} 0).load [moody]).1 = .ok 2 := by decide +kernel
  have hcalls : ∀ call ∈ [Call.reply "ann" "spoil it", .editBot ∅, .reply "bob" "hi"],
      call.keepsScripts = true := by decide
  obtain ⟨hcount, htopics, -, -, hbot, -⟩ := reload_restores (ofOptions {} 0) [moody]
    (fun _ => [("mood", .text "happy")]) hsetups hwritten 2 hload _ hcalls
  refine ⟨hcount, htopics, ?_⟩
  rw [hbot, Table.get?_insertMany]
  rfl

end Example

end Engine

end Repartee
