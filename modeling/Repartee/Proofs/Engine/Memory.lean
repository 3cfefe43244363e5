import Repartee.Proofs.Engine.Runs
import Repartee.Proofs.Handling

/-!
# What a reply depends on

The lines that have been noted down are never read, nor is the trace. So a reply depends on the
memory of its session alone: from two sessions with the same memory it comes to the same answer, to
the same memory and to the same new records (`blind_replyAt`). It is enough that sequences of such
actions are such actions (`Blind.bind`).
-/

namespace Repartee
namespace Session

/-- The sessions have the same memory, and the same records have been added to the traces that they
began with. -/
structure Alike (before before' : Option (List Step)) (s s' : Session) : Prop where
  memory : s'.memory = s.memory
  trace : ∃ records, s.trace = before.map (records ++ ·) ∧ s'.trace = before'.map (records ++ ·)

/-- The results are the same, and the sessions behind them are alike. -/
inductive AlikeResults {α : Type} (before before' : Option (List Step)) :
    EStateM.Result Error Session α → EStateM.Result Error Session α → Prop
  | ok (a : α) {s s' : Session} (alike : Alike before before' s s') :
      AlikeResults before before' (.ok a s) (.ok a s')
  | error (e : Error) {s s' : Session} (alike : Alike before before' s s') :
      AlikeResults before before' (.error e s) (.error e s')

/-- The action comes to the same in sessions that are alike. -/
def Blind {α : Type} (action : Answering α) : Prop :=
  ∀ before before' s s', Alike before before' s s' →
    AlikeResults before before' (action s) (action s')

section Blind

variable {α β : Type} {scene : Scene}

theorem blind_pure (a : α) : Blind (pure a) :=
  fun _ _ _ _ h => .ok a h

theorem blind_throw (e : Error) : Blind (throw e : Answering α) :=
  fun _ _ _ _ h => .error e h

theorem Blind.bind {action : Answering α} {next : α → Answering β} (h : Blind action)
    (hnext : ∀ a, Blind (next a)) : Blind (action >>= next) := by
  intro before before' s s' halike
  have hresults := h before before' s s' halike
  generalize hs : action s = result at hresults
  generalize hs' : action s' = result' at hresults
  cases hresults with
  | ok a halike =>
    rw [bind_of_ok hs, bind_of_ok hs']
    exact hnext a before before' _ _ halike
  | error e halike =>
    rw [bind_of_error hs, bind_of_error hs']
    exact .error e halike

/-- An action may look at the memory. -/
theorem blind_get_bind {next : Session → Answering α}
    (hmemory : ∀ s s', s'.memory = s.memory → next s' = next s) (hnext : ∀ s, Blind (next s)) :
    Blind (get >>= next) := by
  intro before before' s s' halike
  show AlikeResults before before' (next s s) (next s' s')
  rw [hmemory s s' halike.memory]
  exact hnext s before before' s s' halike

theorem blind_require (x : Except Error α) : Blind (require x) := by
  cases x with
  | error e => exact blind_throw e
  | ok a => exact blind_pure a

theorem blind_handle (action : Handling α) : Blind (handle action) := by
  intro before before' s s' halike
  show AlikeResults before before'
    (.ok (Handling.result action s.memory)
      { s with memory := Handling.after action s.memory, journal := _ })
    (.ok (Handling.result action s'.memory)
      { s' with memory := Handling.after action s'.memory, journal := _ })
  rw [halike.memory]
  exact .ok _ ⟨rfl, halike.trace⟩

theorem blind_record (step : Step) : Blind (record step) := by
  intro before before' s s' halike
  obtain ⟨records, htrace, htrace'⟩ := halike.trace
  refine .ok () ⟨halike.memory, step :: records, ?_, ?_⟩
  · show s.trace.map (step :: ·) = _
    rw [htrace, Option.map_map]
    rfl
  · show s'.trace.map (step :: ·) = _
    rw [htrace', Option.map_map]
    rfl

theorem blind_answer (rule : Rule) (matched : Match) : Blind (answer scene rule matched) := by
  refine blind_get_bind (fun s s' hmemory => ?_) fun s => ?_
  · simp only [hmemory]
  · exact (blind_handle _).bind fun _ => blind_require _

theorem blind_search [Pattern.SizeLimit] (scene : Scene) (depth : Nat) (input : String) :
    Blind (search scene depth input) := by
  refine blind_get_bind (fun s s' hmemory => ?_) fun s => ?_
  · simp only [hmemory]
  · refine (blind_require _).bind fun target => ?_
    generalize (scene.database.topicOrDefault s.memory.topic).search target scene.replies
      { bot := s.memory.bot, user := s.memory.user } = result
    obtain ⟨tried, _ | ⟨rule, matched⟩⟩ := result
    · exact (blind_pure "").bind fun _ => (blind_record _).bind fun _ => blind_pure _
    · exact (blind_answer rule matched).bind fun _ => (blind_record _).bind fun _ => blind_pure _

theorem blind_expand {replyTo : String → Answering String} (h : ∀ message, Blind (replyTo message))
    (pieces : List Piece) : Blind (expand replyTo pieces) := by
  induction pieces with
  | nil => exact blind_pure []
  | cons piece rest ih =>
    cases piece with
    | plain c => exact ih.bind fun _ => blind_pure _
    | reference message => exact (h message).bind fun _ => ih.bind fun _ => blind_pure _

theorem blind_replyAt [Pattern.SizeLimit] (scene : Scene) (levels depth : Nat) (input : String) :
    Blind (replyAt scene levels depth input) := by
  induction levels generalizing depth input with
  | zero => exact blind_throw _
  | succ levels ih =>
    refine (blind_search scene depth input).bind fun output => ?_
    exact (blind_expand (fun message => ih (depth + 1) message) _).bind fun _ => blind_pure _

end Blind

end Session
end Repartee
