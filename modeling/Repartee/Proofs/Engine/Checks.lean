import Repartee.Proofs.Engine.Failures
import Repartee.Proofs.Engine.Reloading
import Repartee.Proofs.Pattern.Acceptance

/-!
# Scripts that are right as they are written

If no rule of a script refers to a variable of the bot, then the script alone says whether its rules
are accepted (`Script.Proper.compiles`). They are when every pattern can be read as a light tree and
refers to variables of the user and alternates of the script only, the values of which are light as
well. An engine with such scripts can load them at any time. If moreover their
handlers return templates for what the rules remember, then all that ever fails are messages the
references of which lead too deep (`Engine.isRecursion_of_load`).
-/

namespace Repartee

open Pattern

/-- The patterns of the rule can be read as light trees, with references to alternates of these
names and to variables of the user, and its handler returns templates for what the rule remembers.
-/
structure RuleDefinition.Proper (p : Variables → Prop) (names : List String) (d : RuleDefinition) :
    Prop where
  pattern : ∃ tree, parse? .full d.pattern = .ok tree ∧ Sequence.isUsable names tree = true
  previous : d.previous = "" ∨
    ∃ tree, parse? .full d.previous = .ok tree ∧ Sequence.isUsable names tree = true
  handler : d.handler.Fills p d.keys

/-! ## Rules that are checked by their characters -/

namespace RuleDefinition

variable {p : Variables → Prop} {names : List String}

/-- The tree has so many memos, and can be used with alternates of these names. -/
def checkTree (names : List String) (memos : Nat) (tree : Sequence) : Bool :=
  Sequence.memos tree == memos && Sequence.isUsable names tree

theorem exists_of_checkTree {n : Nat} {cs : List Char}
    (h : checkText .full (checkTree names n) cs = true) :
    (∃ tree, parse? .full (String.ofList cs) = .ok tree ∧ Sequence.isUsable names tree = true) ∧
      memosOf (String.ofList cs) = n := by
  obtain ⟨tree, hread, hcheck⟩ := Pattern.exists_of_checkText h
  obtain ⟨hmemos, husable⟩ := Bool.and_eq_true_iff.mp hcheck
  refine ⟨⟨tree, hread, husable⟩, ?_⟩
  rw [memosOf, hread]
  exact eq_of_beq hmemos

variable {name : String} {weight : Int} {handler : Handler} {n m : Nat} {cs ds : List Char}

theorem proper_of_pattern (hpattern : checkText .full (checkTree names n) cs = true)
    (hhandler : handler.Fills p (Match.keysFor n 0)) :
    Proper p names { name, pattern := String.ofList cs, weight, handler } := by
  obtain ⟨hread, hmemos⟩ := exists_of_checkTree hpattern
  refine ⟨hread, .inl rfl, ?_⟩
  show handler.Fills p (Match.keysFor (memosOf (String.ofList cs)) (memosOf ""))
  rw [hmemos]
  exact hhandler

theorem proper_of_both (hpattern : checkText .full (checkTree names n) cs = true)
    (hprevious : checkText .full (checkTree names m) ds = true)
    (hhandler : handler.Fills p (Match.keysFor n m)) :
    Proper p names
      { name, pattern := String.ofList cs, previous := String.ofList ds, weight, handler } := by
  obtain ⟨hread, hmemos⟩ := exists_of_checkTree hpattern
  obtain ⟨hread', hmemos'⟩ := exists_of_checkTree hprevious
  refine ⟨hread, .inr hread', ?_⟩
  show handler.Fills p (Match.keysFor (memosOf (String.ofList cs)) (memosOf (String.ofList ds)))
  rw [hmemos, hmemos']
  exact hhandler

end RuleDefinition

/-! ## Scripts -/

namespace Script

/-- The names by which patterns refer to the alternates of the script. -/
def alternateNames (s : Script) : List String :=
  s.declarations.alternates.map fun entry => Text.lower entry.1

/-- Nothing in the script is refused, whatever the variables of the bot are. The script keeps the
property of these, all of its handlers return templates for what their rules remember, and its
substitutions keep the number of lists. -/
structure Proper (p : Variables → Prop) (s : Script) : Prop where
  topic : s.topic.isSome = true
  setup : ∀ count bot, p bot → p (s.setup count bot)
  alternates : ∀ entry ∈ s.declarations.alternates, ∃ tree,
    parse? .simple entry.2 = .ok tree ∧ Sequence.isLight tree = true
  rules : ∀ d ∈ s.declarations.rules, d.Proper p s.alternateNames
  substitutions : ∀ substitution ∈ s.declarations.substitutions, substitution.KeepsLength

section Proper

variable {p : Variables → Prop} {s : Script}

theorem Proper.safe (h : s.Proper p) : s.Safe p :=
  ⟨h.setup, fun d hd => (h.rules d hd).handler, h.substitutions⟩

theorem Proper.not_mem_references (h : s.Proper p) {d : RuleDefinition}
    (hd : d ∈ s.declarations.rules) (x : String) : (.bot, x) ∉ d.references := by
  have hread : ∀ {raw tree}, parse? .full raw = .ok tree →
      Sequence.isUsable s.alternateNames tree = true → (.bot, x) ∉ referencesOf raw := by
    intro raw tree hread husable hx
    rw [referencesOf, hread] at hx
    rcases (Sequence.isUsable_iff.mp husable).1 _ hx with hkind | ⟨hkind, -⟩ <;> cases hkind
  have hproper := h.rules d hd
  refine fun hx => (List.mem_append.mp hx).elim ?_ ?_
  · obtain ⟨tree, hpattern, husable⟩ := hproper.pattern
    exact hread hpattern husable
  · rcases hproper.previous with hempty | ⟨tree, hprevious, husable⟩
    · rw [hempty]
      exact List.not_mem_nil
    · exact hread hprevious husable

variable [SizeLimit]

theorem Proper.exists_alternate? (h : s.Proper p) {entry : String × String}
    (hmem : entry ∈ s.declarations.alternates) : ∃ content,
      alternate? entry = some (Text.lower entry.1, .text content) ∧
        Fine valueWeight (fun _ => False) (valueRegex? content) := by
  obtain ⟨tree, hread, light⟩ := h.alternates entry hmem
  obtain ⟨pattern, hpattern, htree⟩ := exists_simple? hread light
  have hcanonical : pattern.canonical = Sequence.canonical tree := by
    rw [Pattern.canonical, htree]
  refine ⟨pattern.canonical, ?_, ?_⟩
  · rw [alternate?, hpattern]
    rfl
  · rw [hcanonical]
    exact fine_valueRegex? hread light

/-- Every alternate of the script has a value that can be used. -/
theorem Proper.fine_alternate (h : s.Proper p) (bot : Variables) {name : String}
    (hname : name ∈ s.alternateNames) : Fine valueWeight (fun _ => False)
      (Bindings.resolve { alternates := s.alternateTable, bot } .alternate name) := by
  have hthere : s.alternateTable.contains name = true := by
    obtain ⟨entry, hmem, rfl⟩ := List.mem_map.mp hname
    obtain ⟨content, halternate, -⟩ := h.exists_alternate? hmem
    exact Table.contains_ofList.mpr
      (List.mem_map.mpr ⟨_, List.mem_filterMap.mpr ⟨entry, hmem, halternate⟩, rfl⟩)
  -- of alternates of one name the last one counts, so the value may come from another entry
  obtain ⟨value, hvalue⟩ := Option.isSome_iff_exists.mp hthere
  obtain ⟨entry, hmem, hentry⟩ := List.mem_filterMap.mp (Table.mem_of_get?_ofList hvalue)
  obtain ⟨content, halternate, hfine⟩ := h.exists_alternate? hmem
  obtain rfl : value = .text content := by
    rw [halternate] at hentry
    exact (Prod.mk.inj (Option.some.inj hentry)).2.symm
  have hresolve : Bindings.resolve { alternates := s.alternateTable, bot } .alternate name =
      (valueRegex? content).mapError (.inVariable .alternate name) := by
    unfold Bindings.resolve Bindings.lookup
    rw [show s.alternateTable.get? name = some (.text content) from hvalue]
  rw [hresolve]
  generalize valueRegex? content = result at hfine ⊢
  cases hfine with
  | ok light => exact .ok light
  | error known => exact known.elim

theorem Proper.compiles (h : s.Proper p) (bot : Variables) : s.Compiles bot where
  alternates entry hmem := by
    obtain ⟨tree, hread, light⟩ := h.alternates entry hmem
    obtain ⟨pattern, hpattern, -⟩ := exists_simple? hread light
    exact ⟨pattern, hpattern⟩
  rules d hd := by
    have haccepted : ∀ {raw tree}, parse? .full raw = .ok tree →
        Sequence.isUsable s.alternateNames tree = true → ∃ pattern,
          Pattern.ofText? raw { alternates := s.alternateTable, bot } = .ok pattern ∧
            pattern.tree? = some tree := fun hread husable =>
      exists_ofText? hread husable rfl fun name hname => h.fine_alternate bot hname
    have hproper := h.rules d hd
    obtain ⟨tree, hread, husable⟩ := hproper.pattern
    obtain ⟨pattern, hpattern, htree⟩ := haccepted hread husable
    have hprevious : ∃ previous, Pattern.ofText? d.previous
        { alternates := s.alternateTable, bot } = .ok previous := by
      rcases hproper.previous with hempty | ⟨tree', hread', husable'⟩
      · rw [hempty]
        exact ⟨.anything, rfl⟩
      · obtain ⟨previous, hprevious, -⟩ := haccepted hread' husable'
        exact ⟨previous, hprevious⟩
    obtain ⟨previous, hprevious⟩ := hprevious
    have hpresent : ¬(!pattern.isPresent) = true := by
      rw [Pattern.isPresent, htree]
      exact Bool.false_ne_true
    refine ⟨⟨s.ruleName d, pattern, previous, d.weight, d.handler⟩, ?_⟩
    unfold compileRule? Rule.compile?
    simp only [hpattern, hprevious]
    exact if_neg hpresent

theorem Proper.settled {scripts : List Script} (h : ∀ s ∈ scripts, s.Proper p) : Settled scripts :=
  settled_of_references fun s hs _ hd x => (h s hs).not_mem_references hd x

end Proper

end Script

/-! ## Engines -/

namespace Engine

variable [SizeLimit] {p : Variables → Prop} {scripts : List Script}

/-- Scripts that are right can be built with any variables of the bot, if there is a rule. -/
theorem exists_build_of_proper (h : ∀ s ∈ scripts, s.Proper p)
    (hrules : ∃ s ∈ scripts, s.declarations.rules ≠ []) (candidates : Nat) (bot : Variables) :
    ∃ d, Database.build (scripts.map Script.started) candidates bot = .ok d := by
  have htopics : ∀ s ∈ scripts, s.topic.isSome = true := fun s hs => (h s hs).topic
  obtain ⟨d, hgathers, -, hbuild⟩ := Database.exists_build_started bot htopics candidates
  rw [if_pos ((hgathers.succeeds_iff htopics).mpr ⟨fun s hs => (h s hs).compiles bot, hrules⟩)]
    at hbuild
  exact ⟨d.sort, hbuild⟩

/-- Scripts that are right can be loaded. If afterwards nobody brings other scripts and nobody edits
the variables of the bot, then they can be loaded again at any time, and all that ever fails are
messages the references of which lead too deep. -/
theorem isRecursion_of_load {e : Engine} (h : ∀ s ∈ scripts, s.Proper p)
    (hrules : ∃ s ∈ scripts, s.declarations.rules ≠ []) (hbot : p e.bot) {calls : List Call}
    (hcalls : ∀ call ∈ calls, call.keepsScripts = true ∧ call.isOrdinary = true) :
    ∃ count, (e.load scripts).1 = .ok count ∧ ((e.load scripts).2.conduct calls).2.Sound p ∧
      ∀ entry ∈ ((e.load scripts).2.conduct calls).1,
        (entry.1 = .reload → entry.2 = .loaded (.ok count)) ∧
          ∀ err, entry.2.error? = some err → err.isRecursion = true := by
  have htopics : ∀ s ∈ scripts, s.topic.isSome = true := fun s hs => (h s hs).topic
  have hsafe : ∀ s ∈ scripts, s.Safe p := fun s hs => (h s hs).safe
  have hkeeps : ∀ s ∈ scripts, s.Keeps p fun _ _ => True := fun s hs => (hsafe s hs).keeps
  have hloaded : (scripts.filter fun s => s.topic.isSome) = scripts :=
    List.filter_eq_self.mpr htopics
  obtain ⟨d, hbuild⟩ := exists_build_of_proper h hrules scripts.length (Script.setUp scripts e.bot)
  have hload := load_of_build hloaded hbuild
  have hholds : (e.load scripts).2.Holds scripts d.topics := by
    rw [hload]
    exact ⟨⟨1, Database.scripts_of_build hbuild⟩, rfl⟩
  have hstart : p (Script.startAll (scripts.filter fun s => s.topic.isSome) e.bot).2 := by
    rw [hloaded]
    exact Script.Keeps.startAll hkeeps hbot
  exact ⟨d.ruleCount, congrArg Prod.fst hload, hholds.isRecursion_of_conduct htopics
    (Script.Proper.settled h) hsafe hbuild (keeps_load hkeeps hstart) hcalls⟩

end Engine

end Repartee
