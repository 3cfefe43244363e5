import Repartee.Proofs.Engine.Calls

/-!
# Traces are only written

Recording the searches of a reply is all that a trace is for. An action comes to the same whether
its session has a trace or not: to forget the trace first is to forget it behind the action
(`Unobserved`), and this holds of whatever is put together from such actions (`Unobserved.bind`).

So a run leaves the same engine with a trace and without (`run_untraced`), and in a conversation
some of the replies may be asked for with their traces or not, without any difference to what comes
later (`tracing_changes_nothing`).
-/

namespace Repartee

namespace Session

def untraced (s : Session) : Session :=
  { s with trace := none }

section Unobserved

variable {α β : Type} {scene : Scene}

/-- The result, with nothing recorded in the session behind it. -/
def untracedResult : EStateM.Result Error Session α → EStateM.Result Error Session α
  | .ok a s => .ok a s.untraced
  | .error e s => .error e s.untraced

/-- The action comes to the same without a trace. -/
def Unobserved (action : Answering α) : Prop :=
  ∀ s, action s.untraced = untracedResult (action s)

theorem unobserved_pure (a : α) : Unobserved (pure a) :=
  fun _ => rfl

theorem unobserved_throw (e : Error) : Unobserved (throw e : Answering α) :=
  fun _ => rfl

theorem Unobserved.bind {action : Answering α} {next : α → Answering β} (h : Unobserved action)
    (hnext : ∀ a, Unobserved (next a)) : Unobserved (action >>= next) := by
  intro s
  have hfirst := h s
  cases haction : action s with
  | ok a t =>
    rw [haction] at hfirst
    rw [bind_of_ok haction, bind_of_ok hfirst]
    exact hnext a t
  | error e t =>
    rw [haction] at hfirst
    rw [bind_of_error haction, bind_of_error hfirst]
    rfl

/-- An action may look at what is not the trace. -/
theorem unobserved_get_bind {next : Session → Answering α} (h : ∀ s, next s.untraced = next s)
    (hnext : ∀ s, Unobserved (next s)) : Unobserved (get >>= next) := by
  intro s
  show next s.untraced s.untraced = untracedResult (next s s)
  rw [h]
  exact hnext s s

theorem unobserved_require (x : Except Error α) : Unobserved (require x) := by
  cases x with
  | error e => exact unobserved_throw e
  | ok a => exact unobserved_pure a

theorem unobserved_handle (action : Handling α) : Unobserved (handle action) :=
  fun _ => rfl

theorem unobserved_record (step : Step) : Unobserved (record step) :=
  fun _ => rfl

theorem unobserved_answer (rule : Rule) (matched : Match) :
    Unobserved (answer scene rule matched) :=
  unobserved_get_bind (fun _ => rfl) fun _ =>
    (unobserved_handle _).bind fun _ => unobserved_require _

theorem unobserved_search [Pattern.SizeLimit] (depth : Nat) (input : String) :
    Unobserved (search scene depth input) := by
  refine unobserved_get_bind (fun _ => rfl) fun s => ?_
  refine (unobserved_require _).bind fun target => ?_
  generalize (scene.database.topicOrDefault s.memory.topic).search target scene.replies
    { bot := s.memory.bot, user := s.memory.user } = result
  have hrecord : ∀ output, Unobserved (do
      record
        { depth, topic := (scene.database.topicOrDefault s.memory.topic).name, input
          normalized := target.normalized, tried := result.1
          rule := result.2.map (·.1.name), output }
      return output : Answering String) :=
    fun output => (unobserved_record _).bind fun _ => unobserved_pure output
  obtain ⟨tried, _ | ⟨rule, matched⟩⟩ := result
  · exact (unobserved_pure "").bind hrecord
  · exact (unobserved_answer rule matched).bind hrecord

theorem unobserved_expand {replyTo : String → Answering String}
    (h : ∀ message, Unobserved (replyTo message)) (pieces : List Piece) :
    Unobserved (expand replyTo pieces) := by
  induction pieces with
  | nil => exact unobserved_pure []
  | cons piece rest ih =>
    cases piece with
    | plain c => exact ih.bind fun _ => unobserved_pure _
    | reference message => exact (h message).bind fun _ => ih.bind fun _ => unobserved_pure _

theorem unobserved_replyAt [Pattern.SizeLimit] (levels depth : Nat) (input : String) :
    Unobserved (replyAt scene levels depth input) := by
  induction levels generalizing depth input with
  | zero => exact unobserved_throw _
  | succ levels ih =>
    refine (unobserved_search depth input).bind fun output => ?_
    exact (unobserved_expand (fun message => ih (depth + 1) message) _).bind
      fun _ => unobserved_pure _

end Unobserved

end Session

/-! ## Calls without traces -/

/-- The same call, with nothing recorded. -/
def Call.untraced : Call → Call
  | replyVerbose userId message => reply userId message
  | call => call

/-- What is left of the response without the records: the reply, or why there is none. -/
def Response.untraced : Response → Response
  | told details => replied (details.map ReplyDetails.reply)
  | response => response

namespace Engine

open Session

section Untraced

variable [Pattern.SizeLimit] (e : Engine)

/-- A run without a trace has the same answer but for the records, and leaves the same engine. -/
theorem run_untraced (userId message : String) (trace : Option (List Step)) :
    e.run userId message none =
      ((e.run userId message trace).1.map fun answer => (answer.1, []),
        (e.run userId message trace).2) := by
  have hreply : e.replyOf userId message none =
      untracedResult (e.replyOf userId message trace) :=
    unobserved_replyAt _ 0 message (e.openingOf userId trace)
  rw [run_eq, run_eq, hreply]
  cases e.replyOf userId message trace with
  | error err s => rfl
  | ok reply s =>
    have hremember : e.userWith userId s.untraced = e.userWith userId s := rfl
    simp only [untracedResult, hremember]
    cases remember? e.database.sort (e.userWith userId s) message reply <;> rfl

theorem perform_untraced (call : Call) :
    e.perform call.untraced = ((e.perform call).1.untraced, (e.perform call).2) := by
  cases call with
  | replyVerbose userId message =>
    unfold Call.untraced perform reply replyVerbose
    simp only [e.run_untraced userId message (some [])]
    obtain ⟨answer, e'⟩ := e.run userId message (some [])
    cases answer <;> rfl
  | _ => rfl

theorem conduct_untraced (calls : List Call) :
    e.conduct (calls.map Call.untraced) =
      ((e.conduct calls).1.map fun entry => (entry.1.untraced, entry.2.untraced),
        (e.conduct calls).2) := by
  induction calls with
  | nil => rfl
  | cons call earlier ih =>
    simp only [List.map_cons, conduct, ih, perform_untraced]

/-- If two conversations differ only in which replies are asked for with a trace, all calls come to
the same, but for the records, and the engine is the same behind each of them. -/
theorem tracing_changes_nothing {calls calls' : List Call}
    (same : calls'.map Call.untraced = calls.map Call.untraced) :
    (∀ later, (e.conduct (calls'.drop later)).2 = (e.conduct (calls.drop later)).2) ∧
      (e.conduct calls').1.map (fun entry => entry.2.untraced) =
        (e.conduct calls).1.map fun entry => entry.2.untraced := by
  refine ⟨fun later => ?_, ?_⟩
  · have hdrop : (calls'.drop later).map Call.untraced = (calls.drop later).map Call.untraced := by
      rw [List.map_drop, List.map_drop, same]
    have hconduct := e.conduct_untraced (calls'.drop later)
    rw [hdrop, conduct_untraced] at hconduct
    exact (congrArg Prod.snd hconduct).symm
  · have hconduct := e.conduct_untraced calls'
    rw [same, conduct_untraced] at hconduct
    have hresponses := congrArg (fun outcome => outcome.1.map Prod.snd) hconduct
    simpa only [List.map_map, Function.comp_def] using hresponses.symm

end Untraced

section Example

attribute [local instance] Pattern.SizeLimit.byWeight Random.Source.splitMix

/-- One message of two is traced, and not the same one. -/
theorem tracing_changes_nothing_greeter :
    let calls : List Call := [.reply "ann" "and you?", .replyVerbose "ann" "Hello there"]
    let calls' : List Call := [.replyVerbose "ann" "and you?", .reply "ann" "Hello there"]
    calls'.map Call.untraced = calls.map Call.untraced ∧
      (greeter.conduct calls').2 = (greeter.conduct calls).2 ∧
      (greeter.conduct calls').1.map (fun entry => entry.2.untraced) =
        (greeter.conduct calls).1.map fun entry => entry.2.untraced := by
  intro calls calls'
  have same : calls'.map Call.untraced = calls.map Call.untraced := rfl
  obtain ⟨engines, responses⟩ := tracing_changes_nothing greeter same
  exact ⟨same, engines 0, responses⟩

end Example

end Engine
end Repartee
