import Mathlib
import Repartee.Proofs.Engine.Handlers
import Repartee.Proofs.Engine.Memory

/-!
# Users do not interfere

All that users share are the database, the variables of the bot and the random numbers. A call about
a user depends on these and on what is kept of this user (`SameFor.perform`). If no handler changes
what is shared (`Database.Quiet`), then a call about somebody else leaves everything as it was for
this user (`sameFor_perform_of_ne`). So it makes no difference to a user what others say in between
(`users_independent`).
-/

namespace Repartee

/-! ## Handlers that leave alone what is shared -/

/-- There is nothing to be chosen. -/
def Reply.isFixed : Reply → Bool
  | .text _ | .nothing => true
  | .choices _ | .weighted _ => false

theorem Reply.pick_of_isFixed {reply : Reply} (h : reply.isFixed = true) (r : Random) :
    (reply.pick r).2 = r := by
  cases reply with
  | text content => rfl
  | nothing => rfl
  | choices options => cases h
  | weighted options => cases h

/-- The handler does not change the variables of the bot, does not use up random numbers, and leaves
nothing to be chosen. -/
structure Handler.Quiet (handler : Handler) : Prop where
  bot : ∀ context m, (Handling.after (handler context) m).bot = m.bot
  random : ∀ context m, (Handling.after (handler context) m).random = m.random
  isFixed : ∀ context m, (Handling.result (handler context) m).isFixed = true

/-- All handlers are quiet. -/
def Database.Quiet (d : Database) : Prop :=
  d.AllRules fun r => r.handler.Quiet

theorem Database.Quiet.sort {d : Database} (h : d.Quiet) : d.sort.Quiet :=
  AllRules.sort h

/-- The call is about this user. -/
def Call.isAbout (userId : String) (call : Call) : Bool :=
  call.userId? = some userId

namespace Session

/-- If all handlers are quiet, a search does not change what users share. -/
theorem shared_search [Pattern.SizeLimit] {scene : Scene} (h : scene.database.Quiet) (depth : Nat)
    (input : String) (s : Session) :
    (after (search scene depth input) s).memory.bot = s.memory.bot ∧
      (after (search scene depth input) s).memory.random = s.memory.random := by
  rw [memory_search]
  cases hcall : Search.invocation? scene ⟨depth, input, s⟩ with
  | none => exact ⟨rfl, rfl⟩
  | some i =>
    have hquiet : i.rule.handler.Quiet := Search.rule_of_invocation? h hcall
    have hbefore : i.before = s.memory := Search.before_of_invocation? hcall
    have hpick : (i.reply.pick i.after.random).2 = i.after.random :=
      Reply.pick_of_isFixed (hquiet.isFixed i.context i.before) _
    show (i.settled _).bot = _ ∧ (i.settled _).random = _
    rw [Invocation.bot_settled, Invocation.random_settled, hpick, ← hbefore]
    exact ⟨hquiet.bot i.context i.before, hquiet.random i.context i.before⟩

end Session

namespace Engine

open Session

variable {e e' : Engine} {userId message : String} {trace : Option (List Step)}

theorem shared_run [Pattern.SizeLimit] (h : e.database.Quiet) :
    (e.run userId message trace).2.bot = e.bot ∧
      (e.run userId message trace).2.random = e.random := by
  have hsorted : (e.sceneOf (e.userOf userId) userId message).database.Quiet := h.sort
  rw [bot_run, random_run]
  refine ((e.chained_searches userId message trace).kept
    (p := fun s => s.memory.bot = e.bot ∧ s.memory.random = e.random) ?_ ⟨rfl, rfl⟩).2
  rintro depth input s ⟨hbot, hrandom⟩
  obtain ⟨hbot', hrandom'⟩ := shared_search hsorted depth input s
  exact ⟨hbot'.trans hbot, hrandom'.trans hrandom⟩

/-- Scripts with quiet handlers give a database with quiet handlers. -/
theorem quiet_load [Pattern.SizeLimit] {scripts : List Script}
    (h : ∀ s ∈ scripts, ∀ definition ∈ s.declarations.rules, definition.handler.Quiet) :
    (e.load scripts).2.database.Quiet := by
  refine holds_of_load ?_ e scripts fun bot d hbuild => ?_
  · refine (Database.declared_start []).allRules.imp fun r hdeclares => ?_
    obtain ⟨s, hs, -⟩ := hdeclares
    exact (List.not_mem_nil hs).elim
  · obtain ⟨hscripts, hdeclared⟩ := Database.declared_of_build hbuild
    refine hdeclared.allRules.imp fun r hdeclares => ?_
    obtain ⟨s, hs, definition, hmem, hhandler⟩ := hdeclares
    obtain ⟨s', hs', setups, rfl⟩ := Script.exists_of_mem_startAll (hscripts ▸ hs)
    rw [hhandler]
    exact h s' (List.mem_of_mem_filter hs') definition hmem

/-! ## Engines that are the same for a user -/

/-- The engines share the same among their users, and the same is kept of this user. -/
structure SameFor (userId : String) (e e' : Engine) : Prop where
  database : e'.database.sort = e.database.sort
  bot : e'.bot = e.bot
  random : e'.random = e.random
  options : e'.options = e.options
  user : e'.users.get? userId = e.users.get? userId

namespace SameFor

theorem refl (userId : String) (e : Engine) : SameFor userId e e :=
  ⟨rfl, rfl, rfl, rfl, rfl⟩

theorem trans {e'' : Engine} (h : SameFor userId e e') (h' : SameFor userId e' e'') :
    SameFor userId e e'' :=
  ⟨h'.database.trans h.database, h'.bot.trans h.bot, h'.random.trans h.random,
    h'.options.trans h.options, h'.user.trans h.user⟩

theorem userOf (h : SameFor userId e e') : e'.userOf userId = e.userOf userId := by
  unfold Engine.userOf userFor
  simp only [h.database, h.options, h.user]

theorem sceneOf (h : SameFor userId e e') (message : String) :
    e'.sceneOf (e'.userOf userId) userId message = e.sceneOf (e.userOf userId) userId message := by
  rw [h.userOf]
  unfold Engine.sceneOf sceneFor
  simp only [h.database, h.options]

theorem editUser (h : SameFor userId e e') (topic : String) (vars : Variables) :
    SameFor userId (e.editUser userId topic vars) (e'.editUser userId topic vars) := by
  unfold Engine.editUser
  rw [h.user]
  cases e.users.get? userId with
  | none => exact h
  | some user =>
    refine ⟨h.database, h.bot, h.random, h.options, ?_⟩
    show (e'.users.insert userId _).get? userId = (e.users.insert userId _).get? userId
    rw [Table.get?_insert, Table.get?_insert, if_pos rfl, if_pos rfl]

theorem clearUser (h : SameFor userId e e') :
    SameFor userId (e.clearUser userId).2 (e'.clearUser userId).2 := by
  refine ⟨h.database, h.bot, h.random, h.options, ?_⟩
  show (e'.users.erase userId).get? userId = (e.users.erase userId).get? userId
  rw [Table.get?_erase, Table.get?_erase, if_pos rfl, if_pos rfl]

variable [Pattern.SizeLimit]

/-- A run comes to the same, and leaves engines that are again the same for its user. -/
theorem run (h : SameFor userId e e') (message : String) (trace : Option (List Step)) :
    (e'.run userId message trace).1 = (e.run userId message trace).1 ∧
      SameFor userId (e.run userId message trace).2 (e'.run userId message trace).2 := by
  have hopening : Alike trace trace (e.openingOf userId trace) (e'.openingOf userId trace) := by
    refine ⟨?_, [], by simp [openingOf], by simp [openingOf]⟩
    unfold openingOf memoryOf
    simp only [h.userOf, h.bot, h.random]
  have hresults : AlikeResults trace trace (e.replyOf userId message trace)
      (e'.replyOf userId message trace) := by
    unfold replyOf
    rw [h.sceneOf]
    exact blind_replyAt _ _ 0 message trace trace _ _ hopening
  have hwith : ∀ s s' : Session, s'.memory = s.memory →
      e'.userWith userId s' = e.userWith userId s := by
    intro s s' hmemory
    unfold userWith
    rw [h.userOf, hmemory]
  have hsession : ∀ user (s s' : Session), s'.memory = s.memory →
      SameFor userId (e.sorted.withSession userId user s)
        (e'.sorted.withSession userId user s') := by
    intro user s s' hmemory
    refine ⟨congrArg Database.sort h.database, congrArg Memory.bot hmemory,
      congrArg Memory.random hmemory, h.options, ?_⟩
    show (e'.users.insert userId user).get? userId = (e.users.insert userId user).get? userId
    rw [Table.get?_insert, Table.get?_insert, if_pos rfl, if_pos rfl]
  rw [run_eq, run_eq]
  generalize e.replyOf userId message trace = result at hresults
  generalize e'.replyOf userId message trace = result' at hresults
  cases hresults with
  | @error err s s' halike =>
    simp only [hwith s s' halike.memory]
    exact ⟨trivial, hsession _ s s' halike.memory⟩
  | @ok reply s s' halike =>
    obtain ⟨records, htrace, htrace'⟩ := halike.trace
    simp only [hwith s s' halike.memory, h.database, htrace.trans htrace'.symm]
    cases remember? e.database.sort (e.userWith userId s) message reply with
    | error err => exact ⟨rfl, hsession _ s s' halike.memory⟩
    | ok user => exact ⟨rfl, hsession _ s s' halike.memory⟩

theorem reply (h : SameFor userId e e') (message : String) :
    (e'.reply userId message).1 = (e.reply userId message).1 ∧
      SameFor userId (e.reply userId message).2 (e'.reply userId message).2 := by
  obtain ⟨hanswer, hsame⟩ := h.run message none
  exact ⟨congrArg (Except.map Prod.fst) hanswer, hsame⟩

theorem replyVerbose (h : SameFor userId e e') (message : String) :
    (e'.replyVerbose userId message).1 = (e.replyVerbose userId message).1 ∧
      SameFor userId (e.replyVerbose userId message).2 (e'.replyVerbose userId message).2 := by
  obtain ⟨hanswer, hsame⟩ := h.run message (some [])
  unfold Engine.replyVerbose
  generalize e.run userId message (some []) = result at hanswer hsame ⊢
  generalize e'.run userId message (some []) = result' at hanswer hsame ⊢
  obtain ⟨answer, f⟩ := result
  obtain ⟨answer', f'⟩ := result'
  obtain rfl : answer' = answer := hanswer
  cases answer' with
  | error err => exact ⟨rfl, hsame⟩
  | ok found =>
    refine ⟨?_, hsame⟩
    simp only [hsame.user]

/-- A call about a user comes to the same, and leaves engines that are again the same for the user.
-/
theorem perform (h : SameFor userId e e') {call : Call} (hcall : call.userId? = some userId) :
    (e'.perform call).1 = (e.perform call).1 ∧
      SameFor userId (e.perform call).2 (e'.perform call).2 := by
  cases call with
  | load | reload | clearRules | editBot => cases hcall
  | reply id message =>
    obtain rfl := Option.some.inj hcall
    obtain ⟨hanswer, hsame⟩ := h.reply message
    exact ⟨congrArg Response.replied hanswer, hsame⟩
  | replyVerbose id message =>
    obtain rfl := Option.some.inj hcall
    obtain ⟨hanswer, hsame⟩ := h.replyVerbose message
    exact ⟨congrArg Response.told hanswer, hsame⟩
  | clearUser id =>
    obtain rfl := Option.some.inj hcall
    refine ⟨?_, h.clearUser⟩
    show Response.cleared (e'.users.get? id).isSome = Response.cleared (e.users.get? id).isSome
    rw [h.user]
  | editUser id topic vars =>
    obtain rfl := Option.some.inj hcall
    exact ⟨rfl, h.editUser topic vars⟩

end SameFor

section Calls

variable [Pattern.SizeLimit]

/-! ## Calls about somebody else -/

/-- A call about a user leaves the rules of all topics, and sorts them if it brings a message. -/
theorem database_perform {call : Call} (h : call.userId?.isSome = true) :
    (e.perform call).2.database =
      if call.message?.isSome then e.database.sort else e.database := by
  cases hmessage : call.message? with
  | some sent =>
    obtain ⟨trace, hrun, -, -⟩ := @run_of_message? _ e sent.1 sent.2 call hmessage
    rw [hrun, database_run]
    rfl
  | none =>
    cases call with
    | load | reload | clearRules | editBot => cases h
    | reply | replyVerbose => cases hmessage
    | clearUser id => rfl
    | editUser id topic vars =>
      show (e.editUser id topic vars).database = e.database
      unfold Engine.editUser
      split <;> rfl

theorem shared_perform (hquiet : e.database.Quiet) {call : Call} (h : call.userId?.isSome = true) :
    (e.perform call).2.bot = e.bot ∧ (e.perform call).2.random = e.random := by
  cases hmessage : call.message? with
  | some sent =>
    obtain ⟨trace, hrun, -, -⟩ := @run_of_message? _ e sent.1 sent.2 call hmessage
    rw [hrun]
    exact shared_run hquiet
  | none =>
    cases call with
    | load | reload | clearRules | editBot => cases h
    | reply | replyVerbose => cases hmessage
    | clearUser id => exact ⟨rfl, rfl⟩
    | editUser id topic vars =>
      show (e.editUser id topic vars).bot = e.bot ∧ (e.editUser id topic vars).random = e.random
      unfold Engine.editUser
      split <;> exact ⟨rfl, rfl⟩

theorem Quiet.perform (hquiet : e.database.Quiet) {call : Call}
    (h : call.userId?.isSome = true) : (e.perform call).2.database.Quiet := by
  rw [database_perform h]
  split
  · exact hquiet.sort
  · exact hquiet

/-- A call about somebody else leaves everything as it was for a user. -/
theorem sameFor_perform_of_ne (hquiet : e.database.Quiet) {call : Call}
    (h : call.userId?.isSome = true) (hne : call.userId? ≠ some userId) :
    SameFor userId e (e.perform call).2 := by
  obtain ⟨hbot, hrandom⟩ := shared_perform hquiet h
  refine ⟨?_, hbot, hrandom, options_perform e call, get?_users_perform_of_ne hne⟩
  rw [database_perform h]
  split
  · exact Database.sort_sort e.database
  · rfl

/-! ## Conversations -/

/-- What comes back for a user, and what is kept of the user, is the same as without the calls about
others. -/
theorem sameFor_conduct (hquiet : e.database.Quiet) {calls : List Call}
    (hcalls : ∀ call ∈ calls, call.userId?.isSome = true) (userId : String) :
    (e.conduct calls).2.database.Quiet ∧
      ((e.conduct calls).1.filter fun entry => entry.1.isAbout userId) =
        (e.conduct (calls.filter (Call.isAbout userId))).1 ∧
      SameFor userId (e.conduct (calls.filter (Call.isAbout userId))).2 (e.conduct calls).2 := by
  induction calls with
  | nil => exact ⟨hquiet, rfl, .refl userId e⟩
  | cons call earlier ih =>
    obtain ⟨hcall, hearlier⟩ := List.forall_mem_cons.mp hcalls
    obtain ⟨hquiet', hpast, hsame⟩ := ih hearlier
    have hrecord : (e.conduct (call :: earlier)).1 =
        (call, ((e.conduct earlier).2.perform call).1) :: (e.conduct earlier).1 := rfl
    have hquiet'' : (e.conduct (call :: earlier)).2.database.Quiet := Quiet.perform hquiet' hcall
    by_cases habout : call.isAbout userId = true
    · obtain ⟨hresponse, hsame'⟩ := hsame.perform (of_decide_eq_true habout)
      rw [List.filter_cons_of_pos habout, hrecord,
        List.filter_cons_of_pos (p := fun entry : Call × Response => entry.1.isAbout userId) habout,
        hpast, hresponse]
      exact ⟨hquiet'', rfl, hsame'⟩
    · have hne : call.userId? ≠ some userId := fun h => habout (decide_eq_true h)
      rw [List.filter_cons_of_neg habout, hrecord,
        List.filter_cons_of_neg (p := fun entry : Call × Response => entry.1.isAbout userId) habout]
      exact ⟨hquiet'', hpast, hsame.trans (sameFor_perform_of_ne hquiet' hcall hne)⟩

/-- The engine but for the lines that have been noted down. -/
def withoutJournal (e : Engine) : Engine :=
  { e with journal := [] }

/-- Calls about two users may change places. -/
theorem perform_comm (hquiet : e.database.Quiet) {a b : Call} (ha : a.userId?.isSome = true)
    (hb : b.userId?.isSome = true) (hne : a.userId? ≠ b.userId?) :
    ((e.perform a).2.perform b).1 = (e.perform b).1 ∧
      ((e.perform a).2.perform b).2.withoutJournal =
        ((e.perform b).2.perform a).2.withoutJournal := by
  obtain ⟨userA, hA⟩ := Option.isSome_iff_exists.mp ha
  obtain ⟨userB, hB⟩ := Option.isSome_iff_exists.mp hb
  have hneB : a.userId? ≠ some userB := fun h => hne (h.trans hB.symm)
  have hneA : b.userId? ≠ some userA := fun h => hne (hA.trans h.symm)
  obtain ⟨hanswerB, hsameB⟩ := (sameFor_perform_of_ne hquiet ha hneB).perform hB
  obtain ⟨-, hsameA⟩ := (sameFor_perform_of_ne hquiet hb hneA).perform hA
  have husers : ((e.perform a).2.perform b).2.users = ((e.perform b).2.perform a).2.users := by
    refine Table.ext_get? fun id => ?_
    by_cases hidA : a.userId? = some id
    · obtain rfl := Option.some.inj (hA.symm.trans hidA)
      rw [get?_users_perform_of_ne hneA, hsameA.user]
    · rw [get?_users_perform_of_ne hidA]
      by_cases hidB : b.userId? = some id
      · obtain rfl := Option.some.inj (hB.symm.trans hidB)
        rw [hsameB.user]
      · rw [get?_users_perform_of_ne hidB, get?_users_perform_of_ne hidA,
          get?_users_perform_of_ne hidB]
  have hdatabase : ((e.perform a).2.perform b).2.database =
      ((e.perform b).2.perform a).2.database := by
    rw [database_perform hb, database_perform ha, database_perform ha, database_perform hb]
    split <;> split <;> rfl
  obtain ⟨hbotA, hrandomA⟩ := shared_perform hquiet ha
  obtain ⟨hbotB, hrandomB⟩ := shared_perform hquiet hb
  obtain ⟨hbotAB, hrandomAB⟩ := shared_perform (Quiet.perform hquiet ha) hb
  obtain ⟨hbotBA, hrandomBA⟩ := shared_perform (Quiet.perform hquiet hb) ha
  refine ⟨hanswerB, ?_⟩
  unfold withoutJournal
  rw [husers, hdatabase, hbotAB, hbotA, hbotBA, hbotB, hrandomAB, hrandomA, hrandomBA, hrandomB,
    options_perform, options_perform, options_perform, options_perform]

/-- If no handler changes the variables of the bot, uses up random numbers or leaves anything to be
chosen, then whatever is said to users and asked about them, in any order, each user gets the same
answers and is kept in the same state as without the calls about others. Two calls about different
users that follow each other may change places. -/
theorem users_independent (hquiet : e.database.Quiet) {calls : List Call}
    (hcalls : ∀ call ∈ calls, call.userId?.isSome = true) :
    (∀ userId,
      let own := calls.filter (Call.isAbout userId)
      ((e.conduct calls).1.filter fun entry => entry.1.isAbout userId) = (e.conduct own).1 ∧
        (e.conduct calls).2.users.get? userId = (e.conduct own).2.users.get? userId) ∧
    ∀ a b : Call, a.userId?.isSome = true → b.userId?.isSome = true → a.userId? ≠ b.userId? →
      let e' := (e.conduct calls).2
      ((e'.perform a).2.perform b).1 = (e'.perform b).1 ∧
        ((e'.perform b).2.perform a).1 = (e'.perform a).1 ∧
        ((e'.perform a).2.perform b).2.withoutJournal =
          ((e'.perform b).2.perform a).2.withoutJournal := by
  refine ⟨fun userId => ?_, fun a b ha hb hne => ?_⟩
  · obtain ⟨-, hrecord, hsame⟩ := sameFor_conduct hquiet hcalls userId
    exact ⟨hrecord, hsame.user⟩
  · obtain ⟨hquiet', -, -⟩ := sameFor_conduct hquiet hcalls ""
    obtain ⟨hanswerB, hsame⟩ := perform_comm hquiet' ha hb hne
    obtain ⟨hanswerA, -⟩ := perform_comm hquiet' hb ha hne.symm
    exact ⟨hanswerB, hanswerA, hsame⟩

end Calls

section Example

attribute [local instance] Pattern.SizeLimit.byWeight Random.Source.splitMix

/-- A script that greets users by name, and knows whom it has met. -/
def parlourScript : Script where
  name := "parlour"
  setupUser := fun userId user => user.insert "name" (.text userId)
  declarations := {
    rules := [
      { name := "hi", pattern := "hi"
        handler := fun _ => do
          let user := (← get).user
          Memory.setUser "met" (.truth true)
          let greeting := if user.contains "met" then "Again, " else "Hello, "
          return .text (greeting ++ ((user.get? "name").map Value.render).getD "") }] }

def parlour : Engine :=
  ((ofOptions {} 0).load [parlourScript]).2

theorem quiet_parlour : parlour.database.Quiet := by
  refine quiet_load fun s hs definition hmem => ?_
  rw [List.mem_singleton.mp hs] at hmem
  rw [List.mem_singleton.mp hmem]
  exact ⟨fun _ _ => rfl, fun _ _ => rfl, fun _ _ => rfl⟩

/-- What Ann and Bob say, newest first. -/
def greetings : List Call :=
  [.reply "ann" "hi", .reply "bob" "hi", .reply "ann" "hi"]

set_option maxRecDepth 4000 in
theorem users_independent_parlour :
    ((parlour.conduct greetings).1.filter fun entry => entry.1.isAbout "bob") =
        (parlour.conduct [.reply "bob" "hi"]).1 ∧
      (parlour.conduct [.reply "bob" "hi"]).1.map (fun entry => entry.2.reply?) =
        [some "Hello, bob"] := by
  have hgreetings : ∀ call ∈ greetings, call.userId?.isSome = true := by decide
  obtain ⟨hown, -⟩ := users_independent quiet_parlour hgreetings
  exact ⟨(hown "bob").1, by cbv⟩

end Example

end Engine

end Repartee
