import Repartee.Proofs.Engine.Runs

/-!
# Calls

All that can be asked of an engine from outside, as data (`Call`), with what comes back
(`Response`). A list of calls, the newest first, is made one after the other and leaves a record of
what was asked and what came back (`Engine.conduct`). A call that brings a message is a run, with a
trace or without (`run_of_message?`). No call touches anybody whom it is not about
(`get?_users_perform_of_ne`), and none changes the options.
-/

namespace Repartee

inductive Call where
  | load (scripts : List Script)
  | reload
  | clearRules
  | reply (userId message : String)
  | replyVerbose (userId message : String)
  | clearUser (userId : String)
  | editBot (bot : Variables)
  /-- The topic and the variables of a user are changed, if the user is known. -/
  | editUser (userId topic : String) (vars : Variables)

inductive Response where
  | done
  | loaded (count : Except Error Nat)
  | replied (reply : Except Error String)
  | told (details : Except Error ReplyDetails)
  | cleared (known : Bool)

namespace Response

/-- The call has failed. -/
def isError : Response → Bool
  | loaded (.error _) | replied (.error _) | told (.error _) => true
  | _ => false

/-- The reply to a message, if there is one. -/
def reply? : Response → Option String
  | replied (.ok reply) => some reply
  | told (.ok details) => some details.reply
  | _ => none

end Response

namespace Call

/-- The user that the call is about. -/
def userId? : Call → Option String
  | reply userId _ | replyVerbose userId _ | clearUser userId | editUser userId _ _ => some userId
  | load _ | reload | clearRules | editBot _ => none

/-- The message that the call brings, behind the user who sends it. -/
def message? : Call → Option (String × String)
  | reply userId message | replyVerbose userId message => some (userId, message)
  | _ => none

theorem userId?_of_message? {call : Call} {sent : String × String} (h : call.message? = some sent) :
    call.userId? = some sent.1 := by
  cases call <;> cases h <;> rfl

end Call

namespace Engine

def editUser (e : Engine) (userId topic : String) (vars : Variables) : Engine :=
  match e.users.get? userId with
  | none => e
  | some user => { e with users := e.users.insert userId { user with topic, vars } }

theorem options_editUser {e : Engine} {userId topic : String} {vars : Variables} :
    (e.editUser userId topic vars).options = e.options := by
  unfold editUser
  split <;> rfl

theorem get?_editUser (e : Engine) (userId topic : String) (vars : Variables) (id : String) :
    (e.editUser userId topic vars).users.get? id =
      if id = userId then (e.users.get? userId).map fun user => { user with topic, vars }
      else e.users.get? id := by
  cases huser : e.users.get? userId with
  | none =>
    simp only [editUser, huser]
    split
    · rename_i heq
      rw [heq, huser]
      rfl
    · rfl
  | some user =>
    simp only [editUser, huser, Table.get?_insert]
    rfl

variable [Pattern.SizeLimit]

def perform (e : Engine) : Call → Response × Engine
  | .load scripts => let (count, e) := e.load scripts; (.loaded count, e)
  | .reload => let (count, e) := e.reload; (.loaded count, e)
  | .clearRules => (.done, e.clearRules)
  | .reply userId message => let (reply, e) := e.reply userId message; (.replied reply, e)
  | .replyVerbose userId message =>
    let (details, e) := e.replyVerbose userId message; (.told details, e)
  | .clearUser userId => let (known, e) := e.clearUser userId; (.cleared known, e)
  | .editBot bot => (.done, { e with bot })
  | .editUser userId topic vars => (.done, e.editUser userId topic vars)

/-- Makes the calls, of which the newest is the first, and records what comes back. -/
def conduct (e : Engine) : List Call → List (Call × Response) × Engine
  | [] => ([], e)
  | call :: earlier =>
    let (past, e) := e.conduct earlier
    let (response, e) := e.perform call
    ((call, response) :: past, e)

variable {e : Engine} {userId message : String}

/-! ## What the calls leave -/

/-- A call that brings a message is a run. It fails if the run does, and has the reply of the run
otherwise. -/
theorem run_of_message? {call : Call} (h : call.message? = some (userId, message)) :
    ∃ trace, (e.perform call).2 = (e.run userId message trace).2 ∧
      (e.perform call).1.reply? = (e.run userId message trace).1.toOption.map Prod.fst ∧
      ((e.perform call).1.isError = true → (e.perform call).1.reply? = none) := by
  cases call with
  | reply userId message =>
    cases h
    refine ⟨none, rfl, ?_⟩
    unfold perform reply
    simp only
    cases (e.run userId message none).1 with
    | error err => exact ⟨rfl, fun _ => rfl⟩
    | ok answer => exact ⟨rfl, fun h => by cases h⟩
  | replyVerbose userId message =>
    cases h
    refine ⟨some [], ?_⟩
    unfold perform replyVerbose
    simp only
    split
    · rename_i hrun
      rw [hrun]
      exact ⟨rfl, rfl, fun _ => rfl⟩
    · rename_i hrun
      rw [hrun]
      exact ⟨rfl, rfl, fun h => by cases h⟩
  | _ => cases h

theorem load_users (e : Engine) (scripts : List Script) : (e.load scripts).2.users = e.users := by
  unfold load
  split <;> rfl

theorem load_options (e : Engine) (scripts : List Script) :
    (e.load scripts).2.options = e.options := by
  unfold load
  split <;> rfl

/-- No call touches anybody whom it is not about. -/
theorem get?_users_perform_of_ne {call : Call} {id : String} (h : call.userId? ≠ some id) :
    (e.perform call).2.users.get? id = e.users.get? id := by
  have hne : ∀ userId, call.userId? = some userId → id ≠ userId :=
    fun userId hcall heq => h (heq ▸ hcall)
  cases hmessage : call.message? with
  | some sent =>
    obtain ⟨trace, hrun, -, -⟩ := @run_of_message? _ e sent.1 sent.2 call hmessage
    obtain ⟨user, husers, -⟩ := @users_run _ e sent.1 sent.2 trace
    rw [hrun, husers, Table.get?_insert, if_neg (hne sent.1 (Call.userId?_of_message? hmessage))]
  | none =>
    cases call with
    | load scripts => exact congrArg (·.get? id) (load_users e scripts)
    | reload => exact congrArg (·.get? id) (load_users e e.database.scripts)
    | clearRules => rfl
    | reply userId message => cases hmessage
    | replyVerbose userId message => cases hmessage
    | clearUser userId => exact (Table.get?_erase _ _ _).trans (if_neg (hne userId rfl))
    | editBot bot => rfl
    | editUser userId topic vars =>
      exact (get?_editUser e userId topic vars id).trans (if_neg (hne userId rfl))

/-- No call changes the options. -/
theorem options_perform (e : Engine) (call : Call) : (e.perform call).2.options = e.options := by
  cases call with
  | load scripts => exact load_options e scripts
  | reload => exact load_options e _
  | clearRules => rfl
  | reply userId message =>
    obtain ⟨trace, hrun, -⟩ := @run_of_message? _ e userId message (.reply userId message) rfl
    rw [hrun]
    exact options_run
  | replyVerbose userId message =>
    obtain ⟨trace, hrun, -⟩ :=
      @run_of_message? _ e userId message (.replyVerbose userId message) rfl
    rw [hrun]
    exact options_run
  | clearUser userId => rfl
  | editBot bot => rfl
  | editUser userId topic vars => exact options_editUser

theorem options_conduct (e : Engine) (calls : List Call) :
    (e.conduct calls).2.options = e.options := by
  induction calls with
  | nil => rfl
  | cons call earlier ih => exact (options_perform _ call).trans ih

end Engine
end Repartee
