import Repartee.Proofs.Engine.Duplicates
import Repartee.Proofs.Pattern.Memos
import Repartee.Proofs.Template

/-!
# Why a reply fails

A reply fails because references lead too deep, or because one of its searches fails
(`error_of_replyAt`). A search fails because its input cannot be prepared, or because the template
that a handler returns cannot be filled in (`error_of_search`). Neither of these happens where all
substitutions keep the number of word lists and all handlers return templates for what their rules
remember (`Script.Safe`). So in a conversation with such scripts, references that lead too deep are
all that can go wrong (`Engine.Sound.isRecursion_of_run`).
-/

namespace Repartee

/-! ## Searches that fail -/

namespace Invocation

/-- The template that is picked from what the handler replies. -/
def template (i : Invocation) : String :=
  (i.reply.pick i.after.random).1

end Invocation

namespace Session

variable {scene : Scene} {s t : Session} {err : Error}

/-- What a rule answers is its template, filled in with what the rule remembers. -/
theorem exists_answer_eq (rule : Rule) (matched : Match) (s : Session) :
    let i : Invocation :=
      ⟨rule, ⟨scene.userId, matched, scene.messages, scene.replies⟩, s.memory⟩
    ∃ t, answer scene rule matched s = require
      ((Template.fill matched i.template).mapError (.placeholder rule.name i.template)) t := by
  intro i
  have hrandom : (settleTopic scene.database s.memory.topic i.after).random = i.after.random := by
    unfold settleTopic
    split <;> rfl
  unfold Invocation.template
  rw [← hrandom]
  exact ⟨_, rfl⟩

/-- A search fails if its input cannot be prepared, or if the template of the handler that it calls
cannot be filled in. -/
theorem error_of_search [Pattern.SizeLimit] {x : Search}
    (h : search scene x.depth x.input x.session = .error err t) :
    Target.ofText? x.input (topicOf scene x.session).substitutions = .error err ∨
      ∃ i reason, x.invocation? scene = some i ∧
        Template.fill i.context.matched i.template = .error reason ∧
        err = .placeholder i.rule.name i.template reason := by
  have hends := ends_search scene x.depth x.input x.session
  rw [h] at hends
  cases hends with
  | unprepared prepared => exact .inl prepared
  | @unfilled target tried rule matched _ _ prepared searched answered =>
    have hfound : x.found? scene = some (rule, matched) := by
      simp only [Search.found?, prepared, searched]
    obtain ⟨t', hanswer⟩ := @exists_answer_eq scene rule matched x.session
    rw [hanswer] at answered
    cases hfill : Template.fill matched _ with
    | error reason =>
      rw [hfill] at answered
      cases answered
      exact .inr ⟨_, reason, congrArg (Option.map _) hfound, hfill, rfl⟩
    | ok text =>
      rw [hfill] at answered
      cases answered

theorem error_of_expand {searchesFor : String → Session → List Search}
    {replyTo : String → Answering String} {fails : Search → Prop}
    (hreply : ∀ message s t, replyTo message s = .error err t →
      err.isRecursion = true ∨ ∃ x ∈ searchesFor message s, fails x)
    {pieces : List Piece} (h : expand replyTo pieces s = .error err t) :
    err.isRecursion = true ∨ ∃ x ∈ searchesOf searchesFor replyTo pieces s, fails x := by
  induction pieces generalizing s with
  | nil => cases h
  | cons piece rest ih =>
    cases piece with
    | plain c =>
      cases hrest : expand replyTo rest s with
      | error e u =>
        cases (bind_of_error hrest).symm.trans h
        exact ih hrest
      | ok chars u => cases (bind_of_ok hrest).symm.trans h
    | reference message =>
      unfold searchesOf
      cases hfirst : replyTo message s with
      | error e u =>
        cases (bind_of_error hfirst).symm.trans h
        refine (hreply message s t hfirst).imp_right ?_
        rintro ⟨x, hx, hfails⟩
        exact ⟨x, List.mem_append_left _ hx, hfails⟩
      | ok reply u =>
        have hnext := (bind_of_ok hfirst).symm.trans h
        cases hrest : expand replyTo rest u with
        | error e v =>
          cases (bind_of_error hrest).symm.trans hnext
          refine (ih hrest).imp_right ?_
          rintro ⟨x, hx, hfails⟩
          exact ⟨x, List.mem_append_right _ hx, hfails⟩
        | ok chars v => cases (bind_of_ok hrest).symm.trans hnext

/-- A reply fails because references lead too deep, or because one of its searches fails. -/
theorem error_of_replyAt [Pattern.SizeLimit] {levels depth : Nat} {input : String}
    (h : replyAt scene levels depth input s = .error err t) :
    err.isRecursion = true ∨ ∃ x ∈ searchesAt scene levels depth input s,
      ∃ t', search scene x.depth x.input x.session = .error err t' := by
  induction levels generalizing depth input s t with
  | zero =>
    cases h
    exact .inl rfl
  | succ levels ih =>
    cases hsearch : search scene depth input s with
    | error e u =>
      cases (bind_of_error hsearch).symm.trans h
      exact .inr ⟨⟨depth, input, s⟩, List.mem_cons_self, t, hsearch⟩
    | ok output u =>
      have hnext := (bind_of_ok hsearch).symm.trans h
      cases hexpand : expand (replyAt scene levels (depth + 1)) (Piece.split output) u with
      | error e v =>
        cases (bind_of_error hexpand).symm.trans hnext
        refine (error_of_expand (fun message s t => ih) hexpand).imp_right ?_
        rintro ⟨x, hx, hfails⟩
        refine ⟨x, List.mem_cons_of_mem _ ?_, hfails⟩
        simp only [hsearch]
        exact hx
      | ok chars v => cases (bind_of_ok hexpand).symm.trans hnext

end Session

/-! ## Substitutions that keep the number of lists -/

/-- The substitution returns as many lists of words as it is given. -/
def Substitution.KeepsLength (s : Substitution) : Prop :=
  ∀ text lists, (s.apply text lists).length = lists.length

theorem Substitution.inStep_of_keepsLength {substitutions : List Substitution}
    (h : ∀ s ∈ substitutions, s.KeepsLength) (text : String) (lists : List (List String)) :
    InStep text lists.length lists substitutions := by
  induction substitutions generalizing lists with
  | nil => exact inStep_nil.mpr rfl
  | cons s substitutions ih =>
    obtain ⟨hs, hrest⟩ := List.forall_mem_cons.mp h
    have hstep := ih hrest (s.apply text lists)
    rw [hs text lists] at hstep
    exact inStep_cons.mpr ⟨rfl, hstep⟩

/-- Substitutions that keep the number of lists never fail. -/
theorem Target.exists_ofText? {substitutions : List Substitution}
    (h : ∀ s ∈ substitutions, s.KeepsLength) (text : String) :
    ∃ t, Target.ofText? text substitutions = .ok t := by
  have hstep := Substitution.inStep_of_keepsLength h text (rawLists text)
  rw [length_rawLists] at hstep
  exact ⟨_, ofText?_eq_ok_iff.mpr ⟨hstep, rfl⟩⟩

namespace Database

/-- All substitutions of all topics have the property. -/
def AllSubstitutions (q : Substitution → Prop) (d : Database) : Prop :=
  ∀ name, ∀ s ∈ (d.topicNamed name).substitutions, q s

variable {q : Substitution → Prop} {d : Database}

theorem AllSubstitutions.sort (h : d.AllSubstitutions q) : d.sort.AllSubstitutions q := by
  intro name
  rw [topicNamed_sort, Topic.substitutions_sort]
  exact h name

theorem AllSubstitutions.topicOrDefault (h : d.AllSubstitutions q) (name : String) :
    ∀ s ∈ (d.topicOrDefault name).substitutions, q s := by
  unfold Database.topicOrDefault
  cases ht : d.topics.get? name with
  | none => exact h defaultTopic
  | some t =>
    have hnamed := h name
    rw [topicNamed, ht] at hnamed
    exact hnamed

end Database

/-! ## Scripts of which nothing fails -/

open Handling

/-- As long as the variables of the bot have the property, the handler keeps it, and returns
templates for entries under these keys. -/
def Handler.Fills (p : Variables → Prop) (keys : List String) (handler : Handler) : Prop :=
  ∀ c, Yields p (Reply.Fills keys) (handler c)

/-- The script keeps the property of the variables of the bot, all of its handlers return templates
for what their rules remember, and its substitutions keep the number of lists. -/
structure Script.Safe (p : Variables → Prop) (s : Script) : Prop where
  setup : ∀ count bot, p bot → p (s.setup count bot)
  rules : ∀ definition ∈ s.declarations.rules, definition.handler.Fills p definition.keys
  substitutions : ∀ substitution ∈ s.declarations.substitutions, substitution.KeepsLength

theorem Script.Safe.keeps {p : Variables → Prop} {s : Script} (h : s.Safe p) :
    s.Keeps p fun _ _ => True where
  setup := h.setup
  handlers definition hmem c m hm := ⟨(h.rules definition hmem c m hm).2, trivial⟩

variable [Pattern.SizeLimit]

/-- The handler returns templates for what the rule remembers, and this is what is there whenever
the rule matches. -/
structure Rule.Safe (p : Variables → Prop) (r : Rule) : Prop where
  handler : r.handler.Fills p r.keys
  remembers : ∀ message normalized replies b found,
    r.matchNormal? message normalized replies b = some found →
      ∀ key, found.contains key = true ↔ key ∈ r.keys

theorem Rule.safe_of_compile? {p : Variables → Prop} {name : String}
    {definition : RuleDefinition} {alternates bot : Variables} {r : Rule}
    (hdefinition : definition.handler.Fills p definition.keys)
    (h : Rule.compile? name definition alternates bot = .ok r) : r.Safe p where
  handler := by
    rw [handler_of_compile? h, keys_of_compile? h]
    exact hdefinition
  remembers _ _ _ _ _ hfound _ := contains_of_matchNormal? h hfound

/-- What scripts are built into has their rules and their substitutions. -/
theorem Database.safe_of_build {p : Variables → Prop} {scripts : List Script} {candidates : Nat}
    {bot : Variables} {d : Database} (htopics : ∀ s ∈ scripts, s.topic.isSome = true)
    (hsafe : ∀ s ∈ scripts, s.Safe p)
    (h : build (scripts.map Script.started) candidates bot = .ok d) :
    d.AllRules (Rule.Safe p) ∧ d.AllSubstitutions Substitution.KeepsLength := by
  obtain ⟨hgathers, -⟩ := gathers_of_build htopics h
  refine ⟨fun name t ht => ?_, fun name => ?_⟩
  · have htopic : t = Script.topicFor scripts bot name := by
      rw [← hgathers.topicNamed_eq (built_of_build h) (named_of_build h) (sort_of_build h),
        topicNamed, ht, Option.getD_some]
    have hrules : ∀ r ∈ Topic.firsts (Script.rulesFor scripts bot name), r.Safe p := by
      intro r hr
      obtain ⟨s, hs, -, definition, hmem, hcompile⟩ :=
        Script.mem_rulesFor_iff.mp (Topic.mem_of_mem_firsts hr)
      exact Rule.safe_of_compile? ((hsafe s hs).rules definition hmem) hcompile
    rw [htopic]
    exact ⟨hrules, fun r hr => hrules r (List.mem_mergeSort.mp hr)⟩
  · rw [hgathers.substitutions]
    intro substitution hmem
    obtain ⟨s, hs, hmem⟩ := List.mem_flatMap.mp hmem
    exact (hsafe s (List.mem_of_mem_filter hs)).substitutions substitution hmem

/-! ## Engines of which nothing fails -/

/-- A handler that is called sees what its rule remembers. -/
theorem Search.exists_matchNormal?_of_invocation? {scene : Scene} {x : Search} {i : Invocation}
    (h : x.invocation? scene = some i) : ∃ message normalized replies b,
      i.rule.matchNormal? message normalized replies b = some i.context.matched := by
  obtain ⟨⟨r, found⟩, hfound, rfl⟩ := Option.map_eq_some_iff.mp h
  unfold found? at hfound
  split at hfound
  · cases hfound
  · exact ⟨_, _, _, _, (Topic.of_firstMatch hfound).2⟩

namespace Engine

open Session

/-- The engine holds scripts of which nothing fails, as far as they are built into its database. -/
structure Sound (p : Variables → Prop) (e : Engine) : Prop where
  keeps : e.Keeps p fun _ _ => True
  rules : e.database.AllRules (Rule.Safe p)
  substitutions : e.database.AllSubstitutions Substitution.KeepsLength

variable {p : Variables → Prop} {e : Engine}

section Run

variable {userId message : String} {trace : Option (List Step)}

/-- Every template that is picked is for what its rule remembers. -/
theorem Sound.fills_template (h : e.Sound p) {i : Invocation}
    (hi : i ∈ e.invocations userId message trace) : Template.Fills i.rule.keys i.template := by
  obtain ⟨hbefore, -, -⟩ := h.keeps.invocations userId message trace hi
  obtain ⟨x, -, hcall⟩ := List.mem_filterMap.mp hi
  have hrule : i.rule.Safe p := Search.rule_of_invocation? h.rules.sort hcall
  exact (hrule.handler i.context i.before hbefore).1.pick _

/-- A handler that is called sees entries for all that its rule remembers, and no others. -/
theorem Sound.contains_matched (h : e.Sound p) {i : Invocation}
    (hi : i ∈ e.invocations userId message trace) (key : String) :
    i.context.matched.contains key = true ↔ key ∈ i.rule.keys := by
  obtain ⟨x, -, hcall⟩ := List.mem_filterMap.mp hi
  have hrule : i.rule.Safe p := Search.rule_of_invocation? h.rules.sort hcall
  obtain ⟨_, _, _, _, hfound⟩ := Search.exists_matchNormal?_of_invocation? hcall
  exact hrule.remembers _ _ _ _ _ hfound key

/-- Every template that is picked can be filled in. -/
theorem Sound.exists_fill (h : e.Sound p) {i : Invocation}
    (hi : i ∈ e.invocations userId message trace) :
    ∃ text, Template.fill i.context.matched i.template = .ok text :=
  h.fills_template hi i.context.matched fun key hkey => (h.contains_matched hi key).mpr hkey

theorem Sound.exists_remember? (h : e.Sound p) (user : User) (message reply : String) :
    ∃ user', remember? e.database.sort user message reply = .ok user' := by
  have hsubstitutions := h.substitutions.sort user.topic
  obtain ⟨tm, hm⟩ := Target.exists_ofText? hsubstitutions message
  obtain ⟨tr, hr⟩ := Target.exists_ofText? hsubstitutions reply
  exact ⟨_, Except.bind_eq_ok_iff.mpr ⟨tm, hm, Except.bind_eq_ok_iff.mpr ⟨tr, hr, rfl⟩⟩⟩

/-- All that can go wrong in a run is that references lead too deep. -/
theorem Sound.isRecursion_of_run (h : e.Sound p) {err : Error}
    (hrun : (e.run userId message trace).1 = .error err) : err.isRecursion = true := by
  have hends := ends_run e userId message trace
  generalize e.run userId message trace = result at hrun hends
  cases hends with
  | unanswered replied =>
    cases hrun
    rcases error_of_replyAt replied with hrecursion | ⟨x, hx, t, hsearch⟩
    · exact hrecursion
    rcases error_of_search hsearch with hfails | ⟨i, _, hcall, hfails, -⟩
    · obtain ⟨target, hok⟩ := Target.exists_ofText?
        (h.substitutions.sort.topicOrDefault x.session.memory.topic) x.input
      cases hok.symm.trans hfails
    · obtain ⟨text, hok⟩ := h.exists_fill (List.mem_filterMap.mpr ⟨x, hx, hcall⟩)
      cases hok.symm.trans hfails
  | unprepared replied remembered =>
    obtain ⟨user', hok⟩ := h.exists_remember? (e.userWith userId _) message _
    cases hok.symm.trans remembered
  | remembered replied remembered => cases hrun

end Run

end Engine

/-! ## Conversations in which nothing fails -/

/-- Why the call has failed, if it has. -/
def Response.error? : Response → Option Error
  | loaded (.error err) | replied (.error err) | told (.error err) => some err
  | _ => none

namespace Engine

variable {p : Variables → Prop} {e : Engine}

/-- A message is answered, unless references lead too deep. -/
theorem Sound.isRecursion_of_perform (h : e.Sound p) {call : Call}
    (hmessage : call.message?.isSome = true) {err : Error}
    (herror : (e.perform call).1.error? = some err) : err.isRecursion = true := by
  cases call with
  | reply userId message =>
    unfold perform reply at herror
    simp only at herror
    cases hrun : (e.run userId message none).1 with
    | error err' =>
      rw [hrun] at herror
      cases herror
      exact h.isRecursion_of_run hrun
    | ok answer =>
      rw [hrun] at herror
      cases herror
  | replyVerbose userId message =>
    unfold perform replyVerbose at herror
    simp only at herror
    split at herror
    · rename_i hrun
      cases herror
      exact h.isRecursion_of_run (congrArg Prod.fst hrun)
    · cases herror
  | _ => cases hmessage

section Settled

variable {scripts : List Script} {d : Database} {candidates : Nat} {bot : Variables}
  (htopics : ∀ s ∈ scripts, s.topic.isSome = true) (settled : Script.Settled scripts)
  (hsafe : ∀ s ∈ scripts, s.Safe p)
  (hbuild : Database.build (scripts.map Script.started) candidates (Script.setUp scripts bot) =
    .ok d)

include htopics hsafe hbuild in
theorem Holds.sound (h : e.Holds scripts d.topics) (hkeeps : e.Keeps p fun _ _ => True) :
    e.Sound p := by
  obtain ⟨hrules, hsubstitutions⟩ := Database.safe_of_build htopics hsafe hbuild
  refine ⟨hkeeps, fun name t ht => ?_, fun name => ?_⟩
  · rw [h.topics] at ht
    exact hrules name t ht
  · have hnamed := hsubstitutions name
    unfold Database.topicNamed at hnamed ⊢
    rw [h.topics]
    exact hnamed

include htopics settled hbuild in
/-- To load the scripts again always succeeds. -/
theorem Holds.response_reload (h : e.Holds scripts d.topics) :
    (e.perform .reload).1 = .loaded (.ok d.ruleCount) :=
  congrArg Response.loaded (h.reload htopics settled hbuild).1

include htopics settled hbuild in
/-- A call fails only because the references of a message lead too deep. -/
theorem Holds.isRecursion_of_perform (h : e.Holds scripts d.topics) (hsound : e.Sound p)
    {call : Call} (hcall : call.keepsScripts = true) {err : Error}
    (herror : (e.perform call).1.error? = some err) : err.isRecursion = true := by
  cases call with
  | reply userId message => exact hsound.isRecursion_of_perform rfl herror
  | replyVerbose userId message => exact hsound.isRecursion_of_perform rfl herror
  | reload =>
    rw [h.response_reload htopics settled hbuild] at herror
    cases herror
  | load scripts => cases hcall
  | clearRules => cases hcall
  | _ => cases herror

include htopics settled hsafe hbuild in
/-- What fails in a conversation are messages whose references lead too deep. -/
theorem Holds.isRecursion_of_conduct (h : e.Holds scripts d.topics)
    (hkeeps : e.Keeps p fun _ _ => True) {calls : List Call}
    (hcalls : ∀ call ∈ calls, call.keepsScripts = true ∧ call.isOrdinary = true) :
    (e.conduct calls).2.Sound p ∧ ∀ entry ∈ (e.conduct calls).1,
      (entry.1 = .reload → entry.2 = .loaded (.ok d.ruleCount)) ∧
        ∀ err, entry.2.error? = some err → err.isRecursion = true := by
  induction calls with
  | nil => exact ⟨h.sound htopics hsafe hbuild hkeeps, List.forall_mem_nil _⟩
  | cons call earlier ih =>
    obtain ⟨⟨hcall, hordinary⟩, hearlier⟩ := List.forall_mem_cons.mp hcalls
    obtain ⟨hsound, hrecord⟩ := ih hearlier
    have hholds := h.conduct htopics settled hbuild fun call hmem => (hearlier call hmem).1
    have hnext : (e.conduct (call :: earlier)).2.Sound p :=
      (hholds.perform htopics settled hbuild hcall).sound htopics hsafe hbuild
        (hsound.keeps.perform hordinary)
    refine ⟨hnext, List.forall_mem_cons.mpr ⟨⟨?_, fun err herror => ?_⟩, hrecord⟩⟩
    · rintro rfl
      exact hholds.response_reload htopics settled hbuild
    · exact hholds.isRecursion_of_perform htopics settled hbuild hsound hcall herror

end Settled

end Engine

end Repartee
