import Repartee.Proofs.Engine.Failures

/-!
# Texts that cannot be prepared

A reply prepares texts for matching in three places: the message and every reference when they are
searched for, and once more the message and then the reply when they are to be remembered. Wherever
a substitution breaks step, the reply fails with it, and this is the only way in which a reply fails
because of a substitution (`Engine.unprepared_iff`).
-/

namespace Repartee

open Substitution

namespace Session

variable {scene : Scene} {s t : Session} {err : Error}

/-! ## A search that fails -/

theorem expand_of_search {searchesFor : String → Session → List Search}
    {replyTo : String → Answering String} {x : Search}
    (hreply : ∀ message s, x ∈ searchesFor message s → replyTo message s = .error err t)
    {pieces : List Piece} (hx : x ∈ searchesOf searchesFor replyTo pieces s) :
    expand replyTo pieces s = .error err t := by
  induction pieces generalizing s with
  | nil => exact (List.not_mem_nil hx).elim
  | cons piece rest ih =>
    cases piece with
    | plain c => exact bind_of_error (ih hx)
    | reference message =>
      rcases List.mem_append.mp hx with hx | hx
      · exact bind_of_error (hreply message s hx)
      · cases hfirst : replyTo message s with
        | error e u =>
          rw [hfirst] at hx
          exact (List.not_mem_nil hx).elim
        | ok reply u =>
          rw [hfirst] at hx
          exact (bind_of_ok hfirst).trans (bind_of_error (ih hx))

/-- If one of the searches of a reply fails, the reply fails with it, at whatever depth it is. -/
theorem replyAt_of_search [Pattern.SizeLimit] {levels depth : Nat} {input : String} {x : Search}
    (hx : x ∈ searchesAt scene levels depth input s)
    (hfails : search scene x.depth x.input x.session = .error err t) :
    replyAt scene levels depth input s = .error err t := by
  induction levels generalizing depth input s with
  | zero => exact (List.not_mem_nil hx).elim
  | succ levels ih =>
    rcases List.mem_cons.mp hx with rfl | hx
    · exact bind_of_error hfails
    · cases hsearch : search scene depth input s with
      | error e u =>
        rw [hsearch] at hx
        exact (List.not_mem_nil hx).elim
      | ok output u =>
        rw [hsearch] at hx
        have hexpand : expand (replyAt scene levels (depth + 1)) (Piece.split output) u =
            .error err t := expand_of_search (fun message s hx => ih hx) hx
        exact (bind_of_ok hsearch).trans (bind_of_error hexpand)

end Session

namespace Engine

open Session

/-! ## What has to be prepared -/

section Remember

variable {d : Database} {user : User} {message reply : String} {err : Error}

theorem remember?_eq_error_iff :
    remember? d user message reply = .error err ↔
      Target.ofText? message (d.topicNamed user.topic).substitutions = .error err ∨
        (∃ t, Target.ofText? message (d.topicNamed user.topic).substitutions = .ok t) ∧
          Target.ofText? reply (d.topicNamed user.topic).substitutions = .error err := by
  unfold remember?
  rw [Except.bind_eq_error_iff]
  refine or_congr_right ?_
  constructor
  · rintro ⟨t, ht, h⟩
    rcases Except.bind_eq_error_iff.mp h with h | ⟨t', -, h⟩
    · exact ⟨⟨t, ht⟩, h⟩
    · cases h
  · rintro ⟨⟨t, ht⟩, h⟩
    exact ⟨t, ht, Except.bind_eq_error_iff.mpr (.inl h)⟩

end Remember

/-- In a run, one of the texts that have to be prepared for matching cannot be. -/
inductive Unprepared [Pattern.SizeLimit] (e : Engine) (userId message : String)
    (trace : Option (List Step)) (err : Error) : Prop
  /-- The message or a reference, in the topic in which it is searched for. -/
  | searched {x : Search} (made : x ∈ e.searches userId message trace)
      (failed : Target.ofText? x.input
        (topicOf (e.sceneOf (e.userOf userId) userId message) x.session).substitutions =
          .error err)
  /-- The message, in the topic in which its reply has left the user. -/
  | message {reply : String} {s : Session} (replied : e.replyOf userId message trace = .ok reply s)
      (failed : Target.ofText? message
        (e.database.sort.topicNamed s.memory.topic).substitutions = .error err)
  /-- The reply, in the same topic. -/
  | reply {reply : String} {s : Session} {t : Target}
      (replied : e.replyOf userId message trace = .ok reply s)
      (prepared : Target.ofText? message
        (e.database.sort.topicNamed s.memory.topic).substitutions = .ok t)
      (failed : Target.ofText? reply
        (e.database.sort.topicNamed s.memory.topic).substitutions = .error err)

variable {e : Engine} {userId message : String} {trace : Option (List Step)} {err : Error}

theorem run_of_replyOf_error [Pattern.SizeLimit] {s : Session}
    (h : e.replyOf userId message trace = .error err s) :
    (e.run userId message trace).1 = .error err := by
  rw [run_eq, h]

theorem run_of_remember?_error [Pattern.SizeLimit] {reply : String} {s : Session}
    (replied : e.replyOf userId message trace = .ok reply s)
    (remembered : remember? e.database.sort (e.userWith userId s) message reply = .error err) :
    (e.run userId message trace).1 = .error err := by
  rw [run_eq, replied]
  simp only [remembered]

theorem Unprepared.run_eq [Pattern.SizeLimit] (h : e.Unprepared userId message trace err) :
    (e.run userId message trace).1 = .error err := by
  cases h with
  | @searched x made failed =>
    have hsearch : search (e.sceneOf (e.userOf userId) userId message) x.depth x.input x.session =
        .error err x.session := search_of_error failed
    exact run_of_replyOf_error (replyAt_of_search made hsearch)
  | message replied failed =>
    exact run_of_remember?_error replied (remember?_eq_error_iff.mpr (.inl failed))
  | reply replied prepared failed =>
    exact run_of_remember?_error replied (remember?_eq_error_iff.mpr (.inr ⟨⟨_, prepared⟩, failed⟩))

/-- A run fails because of a substitution exactly if one of the texts cannot be prepared. -/
theorem unprepared_iff [Pattern.SizeLimit] : e.Unprepared userId message trace err ↔
    (e.run userId message trace).1 = .error err ∧
      ∃ name expected found, err = .substitution name expected found := by
  constructor
  · intro h
    refine ⟨h.run_eq, ?_⟩
    cases h with
    | searched _ failed => exact Target.substitution_of_ofText? failed
    | message _ failed => exact Target.substitution_of_ofText? failed
    | reply _ _ failed => exact Target.substitution_of_ofText? failed
  · rintro ⟨hrun, name, expected, found, rfl⟩
    have hends := ends_run e userId message trace
    generalize e.run userId message trace = result at hrun hends
    cases hends with
    | unanswered replied =>
      cases hrun
      rcases error_of_replyAt replied with hrecursion | ⟨x, hx, t, hsearch⟩
      · cases hrecursion
      rcases error_of_search hsearch with hfails | ⟨i, reason, -, -, herr⟩
      · exact .searched hx hfails
      · cases herr
    | unprepared replied remembered =>
      cases hrun
      rcases remember?_eq_error_iff.mp remembered with hfails | ⟨⟨t, prepared⟩, hfails⟩
      · exact .message replied hfails
      · exact .reply replied prepared hfails
    | remembered replied remembered => cases hrun

/-- A text is prepared if the substitutions, each of which is given what the one before it returned,
return a list for each raw word every time; then there are tokens for each raw word. Otherwise the
failure tells of the first one that does not, with how many lists it returned, whatever others there
are behind it. A reply has such a failure exactly if this befalls the message or a reference when it
is searched for, or the message or the reply when they are to be remembered. -/
theorem substitutions_keep_step [Pattern.SizeLimit] :
    (∀ text ss, (∃ t, Target.ofText? text ss = .ok t) ↔
      InStep text (Text.words text).length (Target.rawLists text) ss) ∧
    (∀ text ss t, Target.ofText? text ss = .ok t →
      t.rawWords = Text.words text ∧
      t.tokens = (chain text (Target.rawLists text) ss).map (fun chunks =>
        chunks.flatMap normalWords) ∧
      t.tokens.length = t.rawWords.length) ∧
    (∀ text ss err, Target.ofText? text ss = .error err ↔ ∃ done s later found,
      ss = done ++ s :: later ∧
      BreaksStep text (Text.words text).length (Target.rawLists text) done s found ∧
      err = .substitution s.name (Text.words text).length found) ∧
    (∀ text done s found,
      BreaksStep text (Text.words text).length (Target.rawLists text) done s found →
      ∀ others, Target.ofText? text (done ++ s :: others) =
        .error (.substitution s.name (Text.words text).length found)) ∧
    ∀ (e : Engine) userId message name expected found,
      let err := Error.substitution name expected found
      ((e.reply userId message).1 = .error err ↔ e.Unprepared userId message none err) ∧
      ((e.replyVerbose userId message).1 = .error err ↔
        e.Unprepared userId message (some []) err) := by
  refine ⟨fun text ss => ⟨?_, ?_⟩, fun text ss t h => ?_,
    fun text ss err => Target.ofText?_eq_error_iff, fun text done s found breaks others => ?_,
    fun e userId message name expected found => ⟨?_, ?_⟩⟩
  · rintro ⟨t, ht⟩
    exact (Target.ofText?_eq_ok_iff.mp ht).1
  · exact fun h => ⟨_, Target.ofText?_eq_ok_iff.mpr ⟨h, rfl⟩⟩
  · obtain ⟨hstep, rfl⟩ := Target.ofText?_eq_ok_iff.mp h
    exact ⟨rfl, rfl, (List.length_map _).trans hstep.length_eq⟩
  · exact Target.ofText?_eq_error_iff.mpr ⟨done, s, others, found, rfl, breaks, rfl⟩
  · rw [reply_eq_error_iff, unprepared_iff]
    exact (and_iff_left ⟨name, expected, found, rfl⟩).symm
  · rw [replyVerbose_eq_error_iff, unprepared_iff]
    exact (and_iff_left ⟨name, expected, found, rfl⟩).symm

section Example

attribute [local instance] Pattern.SizeLimit.byWeight Random.Source.splitMix

/-- An engine whose greeting refers to a farewell, of which one substitution loses a word and the
next one makes up for it. -/
def forgetful : Engine :=
  ((ofOptions {} 0).load [{
    name := "forgetful"
    declarations := {
      rules := [{ name := "hi", pattern := "hi", handler := .say "<bye now>" }]
      substitutions := [
        ⟨"lose", fun text lists => if text = "bye now" then lists.drop 1 else lists⟩,
        ⟨"replace", fun text lists => if text = "bye now" then lists ++ [[]] else lists⟩] } }]).2

set_option maxRecDepth 4000 in
theorem substitutions_keep_step_forgetful :
    (forgetful.reply "ann" "hi").1 = .error (.substitution "lose" 2 1) ∧
      forgetful.Unprepared "ann" "hi" none (.substitution "lose" 2 1) ∧
      ∃ t, Target.ofText? "hi" (forgetful.database.topicNamed defaultTopic).substitutions = .ok t ∧
        t.tokens.length = t.rawWords.length := by
  have hreply : (forgetful.reply "ann" "hi").1 = .error (.substitution "lose" 2 1) := by cbv
  have hmessage : Target.ofText? "hi" (forgetful.database.topicNamed defaultTopic).substitutions =
      .ok (.plain "hi") := by cbv
  obtain ⟨-, htokens, -, -, hfails⟩ := substitutions_keep_step
  exact ⟨hreply, (hfails forgetful "ann" "hi" "lose" 2 1).1.mp hreply, _, hmessage,
    (htokens _ _ _ hmessage).2.2⟩

end Example

end Engine
end Repartee
