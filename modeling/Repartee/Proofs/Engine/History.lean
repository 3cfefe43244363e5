import Mathlib
import Repartee.Proofs.Engine.Calls

/-!
# What is remembered of a user

The messages and replies of a user are the newest ones that were exchanged with success since the
user was forgotten last, as far as there is room for them. What was exchanged is read off the record
of all calls (`exchanges`). That a user is remembered rightly is a relation between the two
(`Remembers`), which a run keeps by adding its exchange if it has a reply (`remembers_run`), and
which every call keeps for all users (`Recalls.perform`).
-/

namespace Repartee

/-! ## What was exchanged -/

namespace Call

/-- The message of the user and the reply to it, if that is what the call was for and it had one. -/
def exchange? (userId : String) (call : Call) (response : Response) : Option (String × String) :=
  match call.message?, response.reply? with
  | some (id, message), some answer => if userId = id then some (message, answer) else none
  | _, _ => none

def forgets (userId : String) : Call → Bool
  | clearUser id => userId = id
  | _ => false

end Call

/-- The messages of a user since the user was forgotten last, as far as they had a reply, each with
its reply, from a record whose newest entry is the first. -/
def exchanges (userId : String) : List (Call × Response) → List (String × String)
  | [] => []
  | (call, response) :: past =>
    if call.forgets userId then []
    else (call.exchange? userId response).toList ++ exchanges userId past

section Exchanges

variable {userId : String} {call : Call} {response : Response} {past : List (Call × Response)}

/-- A call that brings a message adds an exchange for its user if it has a reply. -/
theorem exchanges_of_message? {message : String} (h : call.message? = some (userId, message)) :
    exchanges userId ((call, response) :: past) =
      (response.reply?.map fun answer => (message, answer)).toList ++ exchanges userId past := by
  have hforgets : call.forgets userId = false := by
    cases call <;> first | rfl | cases h
  have hexchange : call.exchange? userId response =
      response.reply?.map fun answer => (message, answer) := by
    unfold Call.exchange?
    rw [h]
    cases response.reply? <;> simp
  simp [exchanges, hforgets, hexchange]

/-- A call about somebody else adds no exchange, and takes none away. -/
theorem exchanges_of_ne (h : call.userId? ≠ some userId) :
    exchanges userId ((call, response) :: past) = exchanges userId past := by
  have hne : ∀ id, call.userId? = some id → userId ≠ id := fun id hid heq => h (heq ▸ hid)
  have hforgets : call.forgets userId = false := by
    cases call with
    | clearUser id => exact decide_eq_false (hne id rfl)
    | _ => rfl
  have hexchange : call.exchange? userId response = none := by
    unfold Call.exchange?
    split
    · rename_i id message answer hmessage hreply
      exact if_neg (hne id (Call.userId?_of_message? hmessage))
    · rfl
  simp [exchanges, hforgets, hexchange]

end Exchanges

/-! ## What is remembered -/

/-- A conversation finds the user who is known or a new one, apart from the topic. -/
theorem Engine.exists_topic_userOf (e : Engine) (userId : String) :
    ∃ topic, e.userOf userId =
      { (e.users.get? userId).getD
          { capacity := e.options.historyLength
            vars := Script.newUserVariables e.database.scripts userId } with topic } := by
  unfold userOf userFor
  simp only
  split
  · exact ⟨_, rfl⟩
  · exact ⟨_, rfl⟩

/-- There is room for as many exchanges as were made room for, and the newest ones are there. -/
def Remembers (capacity : Nat) (past : List (String × String)) : Option User → Prop
  | none => past = []
  | some user => user.capacity = capacity ∧
      user.messages.map Target.rawText = (past.map Prod.fst).take capacity ∧
      user.replies.map Target.rawText = (past.map Prod.snd).take capacity

section Remembers

variable {capacity : Nat} {past : List (String × String)}

theorem take_cons_take {α : Type} (n : Nat) (a : α) (as : List α) :
    (a :: as.take n).take n = (a :: as).take n := by
  cases n with
  | zero => rfl
  | succ n => simp [List.take_take]

theorem Remembers.remember {user : User} (h : Remembers capacity past (some user))
    (message reply : Target) :
    Remembers capacity ((message.rawText, reply.rawText) :: past)
      (some (user.remember message reply)) := by
  obtain ⟨rfl, hmessages, hreplies⟩ := h
  refine ⟨rfl, ?_, ?_⟩
  · rw [User.remember, List.map_take, List.map_cons, hmessages, take_cons_take, List.map_cons]
  · rw [User.remember, List.map_take, List.map_cons, hreplies, take_cons_take, List.map_cons]

/-- A conversation finds the user as remembered. -/
theorem Remembers.userOf {e : Engine} {userId : String}
    (h : Remembers e.options.historyLength past (e.users.get? userId)) :
    Remembers e.options.historyLength past (some (e.userOf userId)) := by
  obtain ⟨topic, huser⟩ := e.exists_topic_userOf userId
  rw [huser]
  cases hknown : e.users.get? userId with
  | none =>
    rw [hknown] at h
    subst h
    exact ⟨rfl, by simp, by simp⟩
  | some user =>
    rw [hknown] at h
    exact h

end Remembers

namespace Engine

variable {e : Engine} {userId message : String} {trace : Option (List Step)}

/-- The user whom a run leaves is remembered with one more exchange if there is a reply, and as
before if not. -/
theorem remembers_run [Pattern.SizeLimit] {past : List (String × String)}
    (h : Remembers e.options.historyLength past (e.users.get? userId)) :
    ∃ user, (e.run userId message trace).2.users = e.users.insert userId user ∧
      Remembers e.options.historyLength
        ((((e.run userId message trace).1.toOption).map fun answer =>
          (message, answer.1)).toList ++ past) (some user) := by
  have hends := ends_run e userId message trace
  generalize e.run userId message trace = result at hends ⊢
  cases hends with
  | unanswered replied => exact ⟨_, rfl, h.userOf⟩
  | unprepared replied remembered => exact ⟨_, rfl, h.userOf⟩
  | @remembered reply s user replied remembered =>
    obtain ⟨tm, tr, rfl, rfl, rfl⟩ := remember?_eq_ok remembered
    have hwith : Remembers e.options.historyLength past (some (e.userWith userId s)) := h.userOf
    exact ⟨_, rfl, hwith.remember tm tr⟩

/-! ## What the calls keep -/

/-- What is remembered of the users are the newest exchanges with them. -/
def Recalls (e : Engine) (past : List (Call × Response)) : Prop :=
  ∀ userId, Remembers e.options.historyLength (exchanges userId past) (e.users.get? userId)

theorem recalls_ofOptions [Random.Source] (options : Options) (entropy : UInt64) :
    (ofOptions options entropy).Recalls [] :=
  fun _ => rfl

theorem Recalls.editUser {past : List (Call × Response)} (h : e.Recalls past)
    (userId topic : String) (vars : Variables) : (e.editUser userId topic vars).Recalls past := by
  intro id
  rw [options_editUser, get?_editUser]
  split
  · rename_i heq
    have hknown := h userId
    rw [heq]
    cases huser : e.users.get? userId with
    | none =>
      rw [huser] at hknown
      exact hknown
    | some user =>
      rw [huser] at hknown
      exact hknown
  · exact h id

theorem Recalls.perform_of_message? [Pattern.SizeLimit] {past : List (Call × Response)}
    (h : e.Recalls past) {call : Call} (hmessage : call.message? = some (userId, message)) :
    Remembers e.options.historyLength (exchanges userId ((call, (e.perform call).1) :: past))
      ((e.perform call).2.users.get? userId) := by
  obtain ⟨trace, hrun, hreply, -⟩ := run_of_message? (e := e) hmessage
  obtain ⟨user, husers, huser⟩ := @remembers_run e userId message trace _ _ (h userId)
  rw [exchanges_of_message? hmessage, hreply, hrun, husers, Table.get?_insert, if_pos rfl,
    Option.map_map]
  exact huser

theorem Recalls.perform [Pattern.SizeLimit] {past : List (Call × Response)} (h : e.Recalls past)
    (call : Call) :
    (e.perform call).2.Recalls ((call, (e.perform call).1) :: past) := by
  intro id
  rw [options_perform]
  by_cases habout : call.userId? = some id
  · cases hmessage : call.message? with
    | some sent =>
      obtain ⟨sender, message⟩ := sent
      have hsender : sender = id :=
        Option.some.inj ((Call.userId?_of_message? hmessage).symm.trans habout)
      exact hsender ▸ h.perform_of_message? hmessage
    | none =>
      cases call with
      | load | reload | clearRules | editBot => cases habout
      | reply | replyVerbose => cases hmessage
      | clearUser userId =>
        obtain rfl := Option.some.inj habout
        show Remembers _ _ ((e.users.erase userId).get? userId)
        simp [Table.get?_erase, exchanges, Call.forgets, Remembers]
      | editUser userId topic vars =>
        have hedited := h.editUser userId topic vars id
        rw [options_editUser] at hedited
        exact hedited
  · rw [get?_users_perform_of_ne habout, exchanges_of_ne habout]
    exact h id

theorem Recalls.conduct [Pattern.SizeLimit] (h : e.Recalls []) (calls : List Call) :
    (e.conduct calls).2.Recalls (e.conduct calls).1 := by
  induction calls with
  | nil => exact h
  | cons call earlier ih => exact ih.perform call

/-! ## What the calls leave alone -/

/-- The messages and the replies that are remembered of a user. -/
def queuesOf (e : Engine) (userId : String) : List Target × List Target :=
  ((e.users.get? userId).map fun user => (user.messages, user.replies)).getD ([], [])

theorem queuesOf_insert (e : Engine) (userId id : String) (user : User) :
    ({ e with users := e.users.insert userId user } : Engine).queuesOf id =
      if id = userId then (user.messages, user.replies) else e.queuesOf id := by
  unfold queuesOf
  rw [Table.get?_insert]
  split <;> rfl

/-- The queues of the user as a conversation finds it are those that are remembered. -/
theorem queues_userOf (e : Engine) (userId : String) :
    ((e.userOf userId).messages, (e.userOf userId).replies) = e.queuesOf userId := by
  obtain ⟨topic, huser⟩ := e.exists_topic_userOf userId
  rw [huser, queuesOf]
  cases e.users.get? userId <;> rfl

/-- A run that fails leaves all queues as they were. -/
theorem queuesOf_run_of_error [Pattern.SizeLimit]
    (h : (e.run userId message trace).1.toOption = none) (id : String) :
    (e.run userId message trace).2.queuesOf id = e.queuesOf id := by
  have hfailed : ∀ s : Session,
      (e.sorted.withSession userId (e.userWith userId s) s).queuesOf id = e.queuesOf id := by
    intro s
    refine (queuesOf_insert e userId id (e.userWith userId s)).trans ?_
    split
    · rename_i heq
      rw [heq]
      exact queues_userOf e userId
    · rfl
  have hends := ends_run e userId message trace
  generalize e.run userId message trace = result at hends h ⊢
  cases hends with
  | unanswered replied => exact hfailed _
  | unprepared replied remembered => exact hfailed _
  | remembered replied remembered => cases h

/-- A call that fails leaves all queues as they were. -/
theorem queuesOf_perform_of_error [Pattern.SizeLimit] {call : Call}
    (h : (e.perform call).1.isError = true) (id : String) :
    (e.perform call).2.queuesOf id = e.queuesOf id := by
  cases hmessage : call.message? with
  | some sent =>
    obtain ⟨trace, hrun, hreply, hfails⟩ := @run_of_message? _ e sent.1 sent.2 call hmessage
    rw [hrun]
    refine queuesOf_run_of_error ?_ id
    have hnone := hreply.symm.trans (hfails h)
    exact Option.map_eq_none_iff.mp hnone
  | none =>
    -- Among the calls without a message only loads can fail, and they are not about anybody.
    have habout : call.userId? ≠ some id := by
      rintro habout
      cases call with
      | load | reload => cases habout
      | reply | replyVerbose => cases hmessage
      | clearRules | clearUser | editBot | editUser => cases h
    rw [queuesOf, get?_users_perform_of_ne habout, queuesOf]

/-- After any calls, what is remembered of a user are the messages and the replies of as many
exchanges as there is room for, the newest ones since the user was forgotten last. A call that fails
leaves all queues as they were, and no call touches anybody whom it is not about. -/
theorem history_is_last_exchanges [Pattern.SizeLimit] [Random.Source] (options : Options)
    (entropy : UInt64) (calls : List Call) :
    let past := ((ofOptions options entropy).conduct calls).1
    let e := ((ofOptions options entropy).conduct calls).2
    (∀ userId user, e.users.get? userId = some user →
      let exchanged := exchanges userId past
      user.messages.length = min options.historyLength exchanged.length ∧
      user.replies.length = min options.historyLength exchanged.length ∧
      user.messages.map Target.rawText =
        (exchanged.map Prod.fst).take options.historyLength ∧
      user.replies.map Target.rawText =
        (exchanged.map Prod.snd).take options.historyLength) ∧
    ∀ call,
      ((e.perform call).1.isError = true →
        ∀ userId, (e.perform call).2.queuesOf userId = e.queuesOf userId) ∧
      ∀ userId, call.userId? ≠ some userId →
        (e.perform call).2.users.get? userId = e.users.get? userId := by
  intro past e
  have hoptions : e.options = options := options_conduct _ calls
  refine ⟨fun userId user huser => ?_, fun call => ⟨queuesOf_perform_of_error, fun _ =>
    get?_users_perform_of_ne⟩⟩
  have hremembers : Remembers e.options.historyLength (exchanges userId past)
      (e.users.get? userId) := (recalls_ofOptions options entropy).conduct calls userId
  rw [huser, hoptions] at hremembers
  obtain ⟨-, hmessages, hreplies⟩ := hremembers
  refine ⟨?_, ?_, hmessages, hreplies⟩
  · simpa using congrArg List.length hmessages
  · simpa using congrArg List.length hreplies

section Example

attribute [local instance] Pattern.SizeLimit.byWeight Random.Source.splitMix

/-- A greeting, to a bot that fails to return a second one. -/
def greeting : List Call := [
  .reply "ann" "hi",
  .load [{
    name := "greeting"
    declarations := {
      rules := [
        { name := "hi", pattern := "hi"
          handler := fun c =>
            return .text (if c.replies.isEmpty then "Hello!" else Template.slot "gone") }] } }]]

set_option maxRecDepth 4000 in
theorem history_is_last_exchanges_greeting :
    let e := ((ofOptions {} 0).conduct greeting).2
    (∃ user, e.users.get? "ann" = some user ∧
      user.messages.map Target.rawText = ["hi"] ∧ user.replies.map Target.rawText = ["Hello!"]) ∧
    (e.perform (.reply "ann" "hi")).1.isError = true ∧
    (e.perform (.reply "ann" "hi")).2.queuesOf "ann" = e.queuesOf "ann" := by
  have hknown : (((ofOptions {} 0).conduct greeting).2.users.get? "ann").isSome = true := by cbv
  have hexchanged : exchanges "ann" ((ofOptions {} 0).conduct greeting).1 = [("hi", "Hello!")] := by
    cbv
  have hfails : (((ofOptions {} 0).conduct greeting).2.perform (.reply "ann" "hi")).1.isError =
      true := by cbv
  obtain ⟨hqueues, hcalls⟩ := history_is_last_exchanges {} 0 greeting
  obtain ⟨user, huser⟩ := Option.isSome_iff_exists.mp hknown
  obtain ⟨-, -, hmessages, hreplies⟩ := hqueues "ann" user huser
  rw [hexchanged] at hmessages hreplies
  exact ⟨⟨user, huser, hmessages, hreplies⟩, hfails, (hcalls _).1 hfails "ann"⟩

end Example

end Engine
end Repartee
