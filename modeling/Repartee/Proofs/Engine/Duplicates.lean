import Repartee.Proofs.Engine.Handlers
import Repartee.Proofs.Engine.Reloading
import Repartee.Proofs.Pattern.Memos

/-!
# Rules that are dropped

Of the rules that are known by the same key, a topic keeps the first one. The key is made of texts
alone, while a pattern also depends on the values that its references had when it was read. All
scripts of a load share the variables of the bot, but each has alternates of its own. So the rule
that is kept matches what a dropped one would have matched if the alternates to which it refers
stand for the same in both scripts (`Rule.match?_congr`), and it need not do so otherwise.
-/

namespace Repartee

/-! ## The rules that are kept -/

namespace Topic

theorem hasKey_foldl_insert (t : Topic) (rules : List Rule) (key : String × String) :
    (rules.foldl insert t).hasKey key = (t.hasKey key || rules.any fun r => r.key == key) := by
  induction rules generalizing t with
  | nil => exact (Bool.or_false _).symm
  | cons r rules ih => rw [List.foldl_cons, ih, hasKey_insert, List.any_cons, Bool.or_assoc]

variable {rules : List Rule} {r : Rule}

/-- For every rule, one of the same key is kept. -/
theorem exists_mem_firsts (h : r ∈ rules) : ∃ kept ∈ firsts rules, kept.key = r.key := by
  have hkey : (rules.foldl insert { name := "" }).hasKey r.key = true := by
    rw [hasKey_foldl_insert, Bool.or_eq_true]
    exact .inr (List.any_eq_true.mpr ⟨r, h, beq_self_eq_true r.key⟩)
  unfold hasKey at hkey
  rw [rules_foldl_insert_new] at hkey
  obtain ⟨kept, hkept, hsame⟩ := List.any_eq_true.mp hkey
  exact ⟨kept, hkept, eq_of_beq hsame⟩

theorem mem_of_mem_firsts (h : r ∈ firsts rules) : r ∈ rules := by
  rw [← rules_foldl_insert_new ""] at h
  exact ((all_new "").foldl_insert fun _ hr => hr).rules r h

end Topic

theorem Script.mem_rulesFor_iff [Pattern.SizeLimit] {scripts : List Script} {bot : Variables}
    {name : String} {r : Rule} :
    r ∈ rulesFor scripts bot name ↔ ∃ s ∈ scripts, s.topic = some name ∧
      ∃ definition ∈ s.declarations.rules, s.compileRule? bot definition = .ok r := by
  have hcompiled : ∀ s : Script, r ∈ s.compiled bot ↔
      ∃ definition ∈ s.declarations.rules, s.compileRule? bot definition = .ok r := by
    intro s
    refine List.mem_filterMap.trans (exists_congr fun definition => and_congr_right fun _ => ?_)
    cases s.compileRule? bot definition <;> simp [Except.toOption]
  simp only [rulesFor, List.mem_flatMap, List.mem_filter, decide_eq_true_eq, hcompiled, and_assoc]

/-! ## Rules of the same key -/

namespace Pattern

theorem references_subset [SizeLimit] {raw : String} {b : Bindings} {p : Pattern}
    (h : Pattern.ofText? raw b = .ok p) : p.references ⊆ referencesOf raw := by
  rcases tree?_of_read? h with rfl | ⟨tree, htree, hread⟩
  · exact List.nil_subset _
  · unfold references referencesOf
    rw [htree, hread]
    exact List.Subset.refl _

/-- Patterns of the same canonical text are both empty or neither of them is. -/
theorem isPresent_congr [SizeLimit] {raw raw' : String} {b b' : Bindings} {p p' : Pattern}
    (h : Pattern.ofText? raw b = .ok p) (h' : Pattern.ofText? raw' b' = .ok p')
    (hcanonical : p.canonical = p'.canonical) : p.isPresent = p'.isPresent :=
  congrArg Option.isSome (tree?_eq_of_canonical_eq h h' hcanonical)

end Pattern

/-- Rules of the same key match in the same way, if the alternates to which one of them refers have
the same values for the other. -/
theorem Rule.match?_congr [Pattern.SizeLimit] {name name' : String} {d d' : RuleDefinition}
    {alternates alternates' bot : Variables} {r r' : Rule}
    (h : Rule.compile? name d alternates bot = .ok r)
    (h' : Rule.compile? name' d' alternates' bot = .ok r') (hkey : r'.key = r.key)
    (hagree : ∀ x, (.alternate, x) ∈ d.references → alternates'.get? x = alternates.get? x)
    (message : Target) (replies : List Target) (now : Pattern.Bindings) :
    r'.match? message replies now = r.match? message replies now := by
  obtain ⟨hpattern, hprevious⟩ := patterns_of_compile? h
  obtain ⟨hpattern', hprevious'⟩ := patterns_of_compile? h'
  obtain ⟨hcanonical, hcanonical'⟩ := Prod.mk.inj hkey
  have hvalues : Pattern.Bindings.Agree { alternates, bot } { alternates := alternates', bot }
      d.references := by
    rintro ⟨kind, x⟩ hx
    cases kind with
    | alternate => exact (hagree x hx).symm
    | bot => rfl
    | user => rfl
  have hcaptures : ∀ s, r.pattern.captures? now s = r'.pattern.captures? now s :=
    Pattern.captures?_congr hpattern hpattern' hcanonical.symm (fun x hx =>
      hvalues x (List.mem_append_left _ (Pattern.references_subset hpattern hx))) now
  have hcaptures' : ∀ s, r.previous.captures? now s = r'.previous.captures? now s :=
    Pattern.captures?_congr hprevious hprevious' hcanonical'.symm (fun x hx =>
      hvalues x (List.mem_append_right _ (Pattern.references_subset hprevious hx))) now
  have hpresent := Pattern.isPresent_congr hprevious hprevious' hcanonical'.symm
  simp only [Rule.match?, Rule.matchNormal?, hcaptures, hcaptures', hpresent]

/-- What scripts are built into gathers what they declare, and nothing in them is refused. -/
theorem Database.gathers_of_build [Pattern.SizeLimit] {scripts : List Script} {candidates : Nat}
    {bot : Variables} {d : Database} (htopics : ∀ s ∈ scripts, s.topic.isSome = true)
    (h : build (scripts.map Script.started) candidates bot = .ok d) :
    d.Gathers bot scripts ∧ ∀ s ∈ scripts, s.Compiles bot := by
  have hstarted : ∀ s ∈ scripts.map Script.started, s.topic.isSome = true :=
    List.forall_mem_map.mpr htopics
  refine ⟨?_, fun s hs => ?_⟩
  · rw [eq_of_build h]
    exact (gathers_filled hstarted).of_started.sort
  · rw [build_eq, List.flatMap_map] at h
    split at h
    · rename_i hgood
      exact Script.failures_eq_nil_iff.mp (List.flatMap_eq_nil_iff.mp hgood.1 s hs)
    · cases h

namespace Engine

/-- For every rule of the scripts that are loaded, its topic keeps a rule of the same key. Such a
rule comes from a script with this topic, and it matches in the same way if the alternates to which
the dropped rule refers have the same values in both scripts. -/
theorem duplicate_matches [Pattern.SizeLimit] (e : Engine) {scripts : List Script} {count : Nat}
    (hload : (e.load scripts).1 = .ok count) :
    let loaded := scripts.filter fun s => s.topic.isSome
    let bot := Script.setUp loaded e.bot
    ∀ s ∈ loaded, ∀ name, s.topic = some name → ∀ definition ∈ s.declarations.rules,
      ∃ r, s.compileRule? bot definition = .ok r ∧
        (∃ kept ∈ ((e.load scripts).2.database.topicNamed name).rules, kept.key = r.key) ∧
        ∀ kept ∈ ((e.load scripts).2.database.topicNamed name).rules, kept.key = r.key →
          ∃ s' ∈ loaded, s'.topic = some name ∧ ∃ definition' ∈ s'.declarations.rules,
            s'.compileRule? bot definition' = .ok kept ∧
            ((∀ x, (.alternate, x) ∈ definition.references →
                s'.alternateTable.get? x = s.alternateTable.get? x) →
              ∀ message replies now,
                kept.match? message replies now = r.match? message replies now) := by
  intro loaded bot s hs name hname definition hmem
  have htopics : ∀ s ∈ loaded, s.topic.isSome = true := fun s hs => (List.mem_filter.mp hs).2
  obtain ⟨d, hbuild⟩ := exists_build_of_load hload
  obtain ⟨hgathers, hcompiles⟩ := Database.gathers_of_build htopics hbuild
  obtain ⟨r, hr⟩ := (hcompiles s hs).rules definition hmem
  rw [load_of_build rfl hbuild]
  simp only [hgathers.rules]
  refine ⟨r, hr, ?_, fun kept hkept hkey => ?_⟩
  · exact Topic.exists_mem_firsts
      (Script.mem_rulesFor_iff.mpr ⟨s, hs, hname, definition, hmem, hr⟩)
  · obtain ⟨s', hs', hname', definition', hmem', hr'⟩ :=
      Script.mem_rulesFor_iff.mp (Topic.mem_of_mem_firsts hkept)
    exact ⟨s', hs', hname', definition', hmem', hr', Rule.match?_congr hr hr' hkey⟩

section Example

attribute [local instance] Pattern.SizeLimit.byWeight Random.Source.splitMix

/-- A rule for a shade. -/
def shadeRule (reply : String) : RuleDefinition where
  name := "shade"
  pattern := "%a:shade"
  handler := .say reply

/-- A script with a rule for a shade, and the word for it. -/
def shadeScript (name shade : String) : Script where
  name := name
  declarations := { alternates := [("shade", shade)], rules := [shadeRule name] }

theorem duplicate_matches_shade :
    let scripts := [shadeScript "a" "red", shadeScript "b" "red"]
    ((ofOptions {} 0).load scripts).1 = .ok 1 ∧
      ∃ r, (shadeScript "b" "red").compileRule? ∅ (shadeRule "b") = .ok r ∧
        ∀ kept ∈ (((ofOptions {} 0).load scripts).2.database.topicNamed defaultTopic).rules,
          kept.key = r.key → ∀ message replies now,
            kept.match? message replies now = r.match? message replies now := by
  have hload : ((ofOptions {} 0).load [shadeScript "a" "red", shadeScript "b" "red"]).1 =
      .ok 1 := by decide +kernel
  obtain ⟨r, hr, -, hkept⟩ := duplicate_matches (ofOptions {} 0) hload (shadeScript "b" "red")
    (List.mem_cons_of_mem _ List.mem_cons_self) defaultTopic rfl (shadeRule "b") List.mem_cons_self
  refine ⟨hload, r, hr, fun kept hmem hkey => ?_⟩
  obtain ⟨s', hs', -, -, -, -, hsame⟩ := hkept kept hmem hkey
  refine hsame fun x _ => ?_
  have htable : s'.alternateTable = (shadeScript "b" "red").alternateTable := by
    rcases List.mem_cons.mp hs' with rfl | hs'
    · rfl
    · rw [List.mem_singleton.mp hs']
  rw [htable]

/-- Where the scripts have different words for the shade, the rule that is kept does not match what
the dropped one would have matched. -/
theorem not_duplicate_matches_shade :
    let scripts := [shadeScript "a" "red", shadeScript "b" "blue"]
    ((ofOptions {} 0).load scripts).1 = .ok 1 ∧
      ∃ kept ∈ (((ofOptions {} 0).load scripts).2.database.topicNamed defaultTopic).rules,
        ∃ dropped, (shadeScript "b" "blue").compileRule? ∅ (shadeRule "b") = .ok dropped ∧
          kept.key = dropped.key ∧ (kept.match? (.plain "blue") [] {}).isSome = false ∧
            (dropped.match? (.plain "blue") [] {}).isSome = true := by
  have hload : ((ofOptions {} 0).load [shadeScript "a" "red", shadeScript "b" "blue"]).1 =
      .ok 1 := by decide +kernel
  have hkept : (((ofOptions {} 0).load
      [shadeScript "a" "red", shadeScript "b" "blue"]).2.database.topicNamed defaultTopic).rules.any
        (fun kept => kept.key = ("%a:shade", "") ∧
          (kept.match? (.plain "blue") [] {}).isSome = false) = true := by decide +kernel
  have hdropped : ((shadeScript "b" "blue").compileRule? ∅ (shadeRule "b")).toOption.any
      (fun dropped => dropped.key = ("%a:shade", "") ∧
        (dropped.match? (.plain "blue") [] {}).isSome = true) = true := by decide +kernel
  obtain ⟨kept, hmem, hkept⟩ := List.any_eq_true.mp hkept
  obtain ⟨hkey, hfails⟩ := of_decide_eq_true hkept
  cases hr : (shadeScript "b" "blue").compileRule? ∅ (shadeRule "b") with
  | error err =>
    rw [hr] at hdropped
    cases hdropped
  | ok dropped =>
    rw [hr] at hdropped
    obtain ⟨hkey', hmatches⟩ := of_decide_eq_true hdropped
    exact ⟨hload, kept, hmem, dropped, rfl, hkey.trans hkey'.symm, hfails, hmatches⟩

end Example

end Engine

end Repartee
