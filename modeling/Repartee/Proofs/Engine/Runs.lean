import Repartee.Proofs.Engine.Searches
import Repartee.Proofs.Substitutions

/-!
# What a run leaves

A run of an engine is a reply in a session (`openingOf`, `closingOf`) and the memory of it for
later. There are three ways in which it can end (`ends_run`): without a reply, with a reply that
cannot be prepared for later matches, and with a reply that is remembered. In all of them the engine
takes over what the session has changed, for the user who has sent the message and for nobody else
(`users_run`, `bot_run`).
-/

namespace Repartee

namespace Target

variable {text : String} {substitutions : List Substitution}

theorem rawText_of_ofText? {t : Target} (h : ofText? text substitutions = .ok t) :
    t.rawText = text := by
  obtain ⟨-, rfl⟩ := ofText?_eq_ok_iff.mp h
  rfl

theorem substitution_of_ofText? {e : Error} (h : ofText? text substitutions = .error e) :
    ∃ name expected found, e = .substitution name expected found := by
  obtain ⟨done, s, later, found, -, -, rfl⟩ := ofText?_eq_error_iff.mp h
  exact ⟨_, _, _, rfl⟩

end Target

namespace Engine

open Session

/-! ## What is remembered -/

section Remember

variable {d : Database} {user : User} {message reply : String}

theorem remember?_eq_ok {user' : User} (h : remember? d user message reply = .ok user') :
    ∃ tm tr, tm.rawText = message ∧ tr.rawText = reply ∧ user' = user.remember tm tr := by
  obtain ⟨tm, hm, h⟩ := Except.bind_eq_ok_iff.mp h
  obtain ⟨tr, hr, h⟩ := Except.bind_eq_ok_iff.mp h
  cases h
  exact ⟨tm, tr, Target.rawText_of_ofText? hm, Target.rawText_of_ofText? hr, rfl⟩

theorem substitution_of_remember? {err : Error} (h : remember? d user message reply = .error err) :
    ∃ name expected found, err = .substitution name expected found := by
  rcases Except.bind_eq_error_iff.mp h with hm | ⟨tm, -, h⟩
  · exact Target.substitution_of_ofText? hm
  · rcases Except.bind_eq_error_iff.mp h with hr | ⟨tr, -, h⟩
    · exact Target.substitution_of_ofText? hr
    · cases h

end Remember

/-! ## The session of a run -/

variable [Pattern.SizeLimit]

/-- The session with which a conversation begins. -/
def openingOf (e : Engine) (userId : String) (trace : Option (List Step)) : Session :=
  ⟨e.memoryOf (e.userOf userId), e.journal, trace⟩

/-- The reply for which a run is made. -/
def replyOf (e : Engine) (userId message : String) (trace : Option (List Step)) :
    EStateM.Result Error Session String :=
  Session.reply (e.sceneOf (e.userOf userId) userId message) (e.openingOf userId trace)

/-- The session that the reply leaves, whether there is one or not. -/
def closingOf (e : Engine) (userId message : String) (trace : Option (List Step)) : Session :=
  after (Session.reply (e.sceneOf (e.userOf userId) userId message)) (e.openingOf userId trace)

/-- The searches that a run comes to, in the order in which they begin. -/
def searches (e : Engine) (userId message : String) (trace : Option (List Step)) : List Search :=
  searchesAt (e.sceneOf (e.userOf userId) userId message) (e.options.depthLimit + 1) 0 message
    (e.openingOf userId trace)

/-- A run is nothing but its searches, one after the other, whether it finds a reply or not. -/
theorem chained_searches (e : Engine) (userId message : String) (trace : Option (List Step)) :
    Chained (e.sceneOf (e.userOf userId) userId message) (e.openingOf userId trace)
      (e.searches userId message trace) (e.closingOf userId message trace) :=
  chained_replyAt _ _ 0 message _

/-- The handlers that a run calls, one after the other. -/
def invocations (e : Engine) (userId message : String) (trace : Option (List Step)) :
    List Invocation :=
  (e.searches userId message trace).filterMap
    (Search.invocation? (e.sceneOf (e.userOf userId) userId message))

/-- The user with the topic and the variables that a session has left. -/
def userWith (e : Engine) (userId : String) (s : Session) : User :=
  { e.userOf userId with topic := s.memory.topic, vars := s.memory.user }

/-- The engine that has sorted its rules. -/
def sorted (e : Engine) : Engine :=
  { e with database := e.database.sort }

variable {e : Engine} {userId message : String} {trace : Option (List Step)}

/-! ## The ways in which a run can end -/

inductive Ends (e : Engine) (userId message : String) (trace : Option (List Step)) :
    Except Error (String × List Step) × Engine → Prop
  | unanswered {err s} (replied : e.replyOf userId message trace = .error err s) :
      Ends e userId message trace
        (.error err, e.sorted.withSession userId (e.userWith userId s) s)
  /-- The message or the reply cannot be prepared for later matches. -/
  | unprepared {reply s err} (replied : e.replyOf userId message trace = .ok reply s)
      (remembered : remember? e.database.sort (e.userWith userId s) message reply = .error err) :
      Ends e userId message trace
        (.error err, e.sorted.withSession userId (e.userWith userId s) s)
  | remembered {reply s user} (replied : e.replyOf userId message trace = .ok reply s)
      (remembered : remember? e.database.sort (e.userWith userId s) message reply = .ok user) :
      Ends e userId message trace
        (.ok (reply, s.trace.getD []), e.sorted.withSession userId user s)

theorem run_eq (e : Engine) (userId message : String) (trace : Option (List Step)) :
    e.run userId message trace =
      match e.replyOf userId message trace with
      | .error err s => (.error err, e.sorted.withSession userId (e.userWith userId s) s)
      | .ok reply s =>
        match remember? e.database.sort (e.userWith userId s) message reply with
        | .error err => (.error err, e.sorted.withSession userId (e.userWith userId s) s)
        | .ok user => (.ok (reply, s.trace.getD []), e.sorted.withSession userId user s) :=
  rfl

theorem ends_run (e : Engine) (userId message : String) (trace : Option (List Step)) :
    Ends e userId message trace (e.run userId message trace) := by
  rw [run_eq]
  cases replied : e.replyOf userId message trace with
  | error err s => exact .unanswered replied
  | ok reply s =>
    cases remembered : remember? e.database.sort (e.userWith userId s) message reply with
    | error err => simpa only [remembered] using .unprepared replied remembered
    | ok user => simpa only [remembered] using .remembered replied remembered

/-! ## What a run takes over from its session -/

theorem after_of_replyOf_error {err : Error} {s : Session}
    (h : e.replyOf userId message trace = .error err s) :
    e.closingOf userId message trace = s :=
  after_of_error h

theorem after_of_replyOf_ok {reply : String} {s : Session}
    (h : e.replyOf userId message trace = .ok reply s) : e.closingOf userId message trace = s :=
  after_of_ok h

theorem options_run : (e.run userId message trace).2.options = e.options := by
  have hends := ends_run e userId message trace
  generalize e.run userId message trace = result at hends ⊢
  cases hends <;> rfl

/-- The variables of the bot are those that the session has left. -/
theorem bot_run : (e.run userId message trace).2.bot =
    (e.closingOf userId message trace).memory.bot := by
  have hends := ends_run e userId message trace
  generalize e.run userId message trace = result at hends ⊢
  cases hends with
  | unanswered replied => rw [after_of_replyOf_error replied]; rfl
  | unprepared replied remembered => rw [after_of_replyOf_ok replied]; rfl
  | remembered replied remembered => rw [after_of_replyOf_ok replied]; rfl

theorem random_run : (e.run userId message trace).2.random =
    (e.closingOf userId message trace).memory.random := by
  have hends := ends_run e userId message trace
  generalize e.run userId message trace = result at hends ⊢
  cases hends with
  | unanswered replied => rw [after_of_replyOf_error replied]; rfl
  | unprepared replied remembered => rw [after_of_replyOf_ok replied]; rfl
  | remembered replied remembered => rw [after_of_replyOf_ok replied]; rfl

/-- The user is kept in the topic that the session has left, and nobody else is touched. -/
theorem users_run : ∃ user, (e.run userId message trace).2.users = e.users.insert userId user ∧
    user.topic = (e.closingOf userId message trace).memory.topic := by
  have hends := ends_run e userId message trace
  generalize e.run userId message trace = result at hends ⊢
  cases hends with
  | unanswered replied =>
    rw [after_of_replyOf_error replied]
    exact ⟨_, rfl, rfl⟩
  | unprepared replied remembered =>
    rw [after_of_replyOf_ok replied]
    exact ⟨_, rfl, rfl⟩
  | remembered replied remembered =>
    rw [after_of_replyOf_ok replied]
    obtain ⟨tm, tr, -, -, rfl⟩ := remember?_eq_ok remembered
    exact ⟨_, rfl, rfl⟩

/-- The records of a run are those of its searches. -/
theorem steps_of_run {reply : String} {steps : List Step} {e' : Engine}
    (h : e.run userId message trace = (.ok (reply, steps), e')) :
    steps = (trace.map (((e.searches userId message trace).filterMap
      (Search.step? (e.sceneOf (e.userOf userId) userId message))).reverse ++ ·)).getD [] := by
  have hends := ends_run e userId message trace
  rw [h] at hends
  cases hends with
  | remembered replied remembered =>
    rw [← after_of_replyOf_ok replied]
    exact congrArg (Option.getD · []) (e.chained_searches userId message trace).trace

theorem exists_search_of_step {reply : String} {steps : List Step} {e' : Engine}
    (h : e.run userId message trace = (.ok (reply, steps), e')) {step : Step}
    (hstep : step ∈ steps) :
    step ∈ trace.getD [] ∨ ∃ x ∈ e.searches userId message trace,
      x.step? (e.sceneOf (e.userOf userId) userId message) = some step := by
  rw [steps_of_run h] at hstep
  cases trace with
  | none => exact (List.not_mem_nil hstep).elim
  | some earlier =>
    rcases List.mem_append.mp hstep with hstep | hstep
    · exact .inr (List.mem_filterMap.mp (List.mem_reverse.mp hstep))
    · exact .inl hstep

/-! ## Replies that fail -/

theorem reply_eq_error_iff {err : Error} :
    (e.reply userId message).1 = .error err ↔ (e.run userId message none).1 = .error err := by
  show (e.run userId message none).1.map Prod.fst = .error err ↔ _
  cases (e.run userId message none).1 with
  | error err' => exact Iff.of_eq (by simp [Except.map])
  | ok answer => constructor <;> intro h <;> cases h

theorem replyVerbose_eq_error_iff {err : Error} :
    (e.replyVerbose userId message).1 = .error err ↔
      (e.run userId message (some [])).1 = .error err := by
  unfold replyVerbose
  split
  · rename_i hrun
    rw [hrun]
    exact Iff.of_eq (by simp)
  · rename_i hrun
    rw [hrun]
    constructor <;> intro h <;> cases h

end Engine
end Repartee
