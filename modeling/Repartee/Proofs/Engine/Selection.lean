import Repartee.Proofs.Engine.Reachable

/-!
# Which rule answers

Every search of a session, at whatever depth and in whatever state handlers have left it, runs the
handler of the matching rule that is ahead of all other rules that match, and no handler if no rule
matches (`search_of_exists`, `search_of_none`). It records how many rules it tried; the records that
a run collects are those of such searches (`records_replyAt`).

In a conversation with a reachable engine the rules of all topics are ranked, so both apply
(`search_selects`).
-/

namespace Repartee
namespace Session

open Topic

variable {scene : Scene}

/-- The topic in which a session searches. -/
def topicOf (scene : Scene) (s : Session) : Topic :=
  scene.database.topicOrDefault s.memory.topic

/-- The variables under which a session matches patterns. -/
def bindingsOf (s : Session) : Pattern.Bindings :=
  { bot := s.memory.bot, user := s.memory.user }

/-- The record of a search. -/
def stepOf (scene : Scene) (s : Session) (depth : Nat) (input : String) (target : Target)
    (tried : Nat) (rule : Option String) (output : String) : Step where
  depth
  topic := (topicOf scene s).name
  input
  normalized := target.normalized
  tried
  rule
  output

/-- The rules of every topic are ranked. -/
def Ranked (scene : Scene) : Prop :=
  ∀ name, (scene.database.topicOrDefault name).sorted =
    byRank (scene.database.topicOrDefault name).rules

/-! ## A single search -/

section Search

variable [Pattern.SizeLimit] {s : Session} {depth : Nat} {input : String}

theorem search_eq : search scene depth input s = (do
    let target ← require (Target.ofText? input (topicOf scene s).substitutions)
    let (tried, found) := (topicOf scene s).search target scene.replies (bindingsOf s)
    let output ← match found with
      | some (rule, matched) => answer scene rule matched
      | none => pure ""
    record (stepOf scene s depth input target tried (found.map (·.1.name)) output)
    return output : Answering String) s :=
  rfl

theorem search_of_error {e : Error}
    (h : Target.ofText? input (topicOf scene s).substitutions = .error e) :
    search scene depth input s = (throw e : Answering String) s := by
  rw [search_eq, h]
  rfl

variable {target : Target}
  (htarget : Target.ofText? input (topicOf scene s).substitutions = .ok target)

include htarget

theorem search_run {tried : Nat} {found : Option (Rule × Match)}
    (hsearch : (topicOf scene s).search target scene.replies (bindingsOf s) = (tried, found)) :
    search scene depth input s = (do
      let output ← match found with
        | some (rule, matched) => answer scene rule matched
        | none => pure ""
      record (stepOf scene s depth input target tried (found.map (·.1.name)) output)
      return output : Answering String) s := by
  rw [search_eq, htarget]
  simp only [require, pure_bind, hsearch]

/-- The handler of the matching rule that is ahead of all others runs. -/
theorem search_of_exists (ranked : Ranked scene)
    (h : ∃ r ∈ (topicOf scene s).rules, r.Matches target scene.replies (bindingsOf s)) :
    ∃ r i found, (topicOf scene s).Chosen target scene.replies (bindingsOf s) r i found ∧
      search scene depth input s = (do
        let output ← answer scene r found
        record (stepOf scene s depth input target
          (countAhead (topicOf scene s).rules (r, i) + 1) (some r.name) output)
        return output : Answering String) s := by
  obtain ⟨r, i, found, hchosen, hsearch⟩ := Topic.search_of_exists (ranked _) h
  exact ⟨r, i, found, hchosen, search_run htarget hsearch⟩

theorem search_of_none (ranked : Ranked scene)
    (h : ∀ r ∈ (topicOf scene s).rules, ¬ r.Matches target scene.replies (bindingsOf s)) :
    search scene depth input s = (do
      record (stepOf scene s depth input target (topicOf scene s).rules.length none "")
      return "" : Answering String) s :=
  search_run htarget (Topic.search_of_none (ranked _) h)

end Search

/-! ## The searches of a run -/

/-- The record is that of a search which picked the right rule. -/
def Selected [Pattern.SizeLimit] (scene : Scene) (step : Step) : Prop :=
  ∃ s target, Target.ofText? step.input (topicOf scene s).substitutions = .ok target ∧
    step = stepOf scene s step.depth step.input target step.tried step.rule step.output ∧
    ((∃ r i found, (topicOf scene s).Chosen target scene.replies (bindingsOf s) r i found ∧
        step.tried = countAhead (topicOf scene s).rules (r, i) + 1 ∧ step.rule = some r.name) ∨
      ((∀ r ∈ (topicOf scene s).rules, ¬ r.Matches target scene.replies (bindingsOf s)) ∧
        step.tried = (topicOf scene s).rules.length ∧ step.rule = none ∧ step.output = ""))

/-- The session that an action leaves, whether it succeeds or not. -/
def after {α : Type} (action : Answering α) (s : Session) : Session :=
  match action s with
  | .ok _ s => s
  | .error _ s => s

/-- All records that an action adds have the property. -/
def Records {α : Type} (p : Step → Prop) (action : Answering α) : Prop :=
  ∀ s, ∀ step ∈ (after action s).trace.getD [], step ∈ s.trace.getD [] ∨ p step

section Records

variable {α β : Type} {p : Step → Prop}

theorem records_of_trace_eq {action : Answering α} (h : ∀ s, (after action s).trace = s.trace) :
    Records p action := by
  intro s step hstep
  rw [h] at hstep
  exact .inl hstep

theorem records_pure (a : α) : Records p (pure a) :=
  records_of_trace_eq fun _ => rfl

theorem records_throw (e : Error) : Records p (throw e : Answering α) :=
  records_of_trace_eq fun _ => rfl

theorem records_bind {action : Answering α} {next : α → Answering β} (h : Records p action)
    (h' : ∀ a, Records p (next a)) : Records p (action >>= next) := by
  intro s step hstep
  cases haction : action s with
  | error e s₁ =>
    have hafter : after (action >>= next) s = after action s := by
      simp only [after, bind, EStateM.bind, haction]
    rw [hafter] at hstep
    exact h s step hstep
  | ok a s₁ =>
    have hafter : after (action >>= next) s = after (next a) s₁ := by
      simp only [after, bind, EStateM.bind, haction]
    have hfirst : after action s = s₁ := by
      simp only [after, haction]
    rw [hafter] at hstep
    rcases h' a s₁ step hstep with hstep | hp
    · exact h s step (hfirst ▸ hstep)
    · exact .inr hp

theorem records_require (x : Except Error α) : Records p (require x) := by
  cases x with
  | ok a => exact records_pure a
  | error e => exact records_throw e

theorem records_record {step : Step} (h : p step) : Records p (record step) := by
  intro s other hother
  have hafter : (after (record step) s).trace = s.trace.map (step :: ·) := rfl
  rw [hafter] at hother
  cases htrace : s.trace with
  | none =>
    rw [htrace] at hother
    exact .inl hother
  | some steps =>
    rw [htrace] at hother
    rcases List.mem_cons.mp hother with rfl | hother
    · exact .inr h
    · exact .inl hother

end Records

theorem records_answer (p : Step → Prop) (rule : Rule) (matched : Match) :
    Records p (answer scene rule matched) := by
  refine records_bind (records_of_trace_eq fun _ => rfl) fun s => ?_
  refine records_bind (records_of_trace_eq fun _ => rfl) fun template => ?_
  exact records_require _

theorem records_search [Pattern.SizeLimit] (ranked : Ranked scene) (depth : Nat) (input : String) :
    Records (Selected scene) (search scene depth input) := by
  intro s
  have same : ∀ {action : Answering String}, search scene depth input s = action s →
      Records (Selected scene) action →
      ∀ step ∈ (after (search scene depth input) s).trace.getD [],
        step ∈ s.trace.getD [] ∨ Selected scene step := by
    intro action heq haction step hstep
    have hafter : after (search scene depth input) s = after action s := by
      unfold after
      rw [heq]
    exact haction s step (hafter ▸ hstep)
  cases htarget : Target.ofText? input (topicOf scene s).substitutions with
  | error e =>
    exact same (search_of_error htarget) (records_throw e)
  | ok target =>
    by_cases h : ∃ r ∈ (topicOf scene s).rules,
        r.Matches target scene.replies (bindingsOf s)
    · obtain ⟨r, i, found, hchosen, hrun⟩ := search_of_exists htarget ranked h
      refine same hrun (records_bind (records_answer _ r found) fun output => ?_)
      refine records_bind (records_record ?_) fun _ => records_pure output
      exact ⟨s, target, htarget, rfl, .inl ⟨r, i, found, hchosen, rfl, rfl⟩⟩
    · have hnone : ∀ r ∈ (topicOf scene s).rules,
          ¬ r.Matches target scene.replies (bindingsOf s) := fun r hr hr' => h ⟨r, hr, hr'⟩
      refine same (search_of_none htarget ranked hnone) ?_
      refine records_bind (records_record ?_) fun _ => records_pure ""
      exact ⟨s, target, htarget, rfl, .inr ⟨hnone, rfl, rfl, rfl⟩⟩

theorem records_expand {p : Step → Prop} {replyTo : String → Answering String}
    (h : ∀ input, Records p (replyTo input)) (pieces : List Piece) :
    Records p (expand replyTo pieces) := by
  induction pieces with
  | nil => exact records_pure []
  | cons piece rest ih =>
    cases piece with
    | plain c => exact records_bind ih fun _ => records_pure _
    | reference message =>
      exact records_bind (h message) fun _ => records_bind ih fun _ => records_pure _

/-- All searches of a reply are recorded as they should be, at every depth. -/
theorem records_replyAt [Pattern.SizeLimit] (ranked : Ranked scene) (levels depth : Nat)
    (input : String) :
    Records (Selected scene) (replyAt scene levels depth input) := by
  induction levels generalizing depth input with
  | zero => exact records_throw _
  | succ levels ih =>
    refine records_bind (records_search ranked depth input) fun output => ?_
    refine records_bind (records_expand (fun message => ih (depth + 1) message) _) fun chars => ?_
    exact records_pure _

/-! ## Conversations -/

end Session

namespace Engine

open Session Topic

/-- The scene of a conversation, for which the rules of all topics are sorted. -/
def sceneOf (e : Engine) (user : User) (userId message : String) : Scene :=
  ({ e with database := e.database.sort } : Engine).sceneFor userId user message

/-- The user as a conversation finds it. -/
def userOf (e : Engine) (userId : String) : User :=
  ({ e with database := e.database.sort } : Engine).userFor userId

theorem Reachable.ranked [Pattern.SizeLimit] {e : Engine} (h : e.Reachable) (user : User)
    (userId message : String) :
    Ranked (e.sceneOf user userId message) :=
  fun name => h.built.sorted_eq name

theorem run_eq_ok [Pattern.SizeLimit] {e e' : Engine} {userId message reply : String}
    {trace : Option (List Step)} {steps : List Step}
    (h : e.run userId message trace = (.ok (reply, steps), e')) :
    ∃ s : Session, s.trace = trace ∧
      (after (Session.reply (e.sceneOf (e.userOf userId) userId message)) s).trace.getD [] =
        steps := by
  let scene := e.sceneOf (e.userOf userId) userId message
  let start : Session := ⟨e.memoryOf (e.userOf userId), e.journal, trace⟩
  refine ⟨start, rfl, ?_⟩
  unfold Engine.run at h
  simp only at h
  split at h
  · cases h
  · rename_i reply' s hreply
    have hstart : Session.reply scene start = .ok reply' s := hreply
    unfold after
    rw [hstart]
    split at h
    · cases h
    · obtain ⟨hok, -⟩ := Prod.mk.inj h
      exact (Prod.mk.inj (Except.ok.inj hok)).2

/-- In a conversation with a reachable engine, a search at any depth and in any state of the session
runs the handler of a matching rule that is ahead of all others that match, after trying it and the
rules ahead of it; if no rule matches, it tries all of them, runs no handler and yields nothing. The
searches that are recorded on the way to a reply are of this kind. -/
theorem search_selects [Pattern.SizeLimit] {e : Engine} (he : e.Reachable)
    (userId message : String) :
    (∀ user s depth input target,
      let scene := e.sceneOf user userId message
      let topic := topicOf scene s
      Target.ofText? input topic.substitutions = .ok target →
      ((∃ r ∈ topic.rules, r.Matches target scene.replies (bindingsOf s)) →
        ∃ r i found, topic.Chosen target scene.replies (bindingsOf s) r i found ∧
          search scene depth input s = (do
            let output ← answer scene r found
            record (stepOf scene s depth input target (countAhead topic.rules (r, i) + 1)
              (some r.name) output)
            return output : Answering String) s) ∧
      ((∀ r ∈ topic.rules, ¬ r.Matches target scene.replies (bindingsOf s)) →
        search scene depth input s = (do
          record (stepOf scene s depth input target topic.rules.length none "")
          return "" : Answering String) s)) ∧
    ∀ trace reply steps e', e.run userId message trace = (.ok (reply, steps), e') →
      ∀ step ∈ steps, step ∈ trace.getD [] ∨
        Selected (e.sceneOf (e.userOf userId) userId message) step := by
  refine ⟨?_, ?_⟩
  · intro user s depth input target scene topic htarget
    have ranked := he.ranked user userId message
    exact ⟨search_of_exists htarget ranked, search_of_none htarget ranked⟩
  · intro trace reply steps e' hrun step hstep
    obtain ⟨s, rfl, rfl⟩ := run_eq_ok hrun
    exact records_replyAt (he.ranked _ userId message) _ 0 message s step hstep

section Example

attribute [local instance] Pattern.SizeLimit.byWeight Random.Source.splitMix

/-- An engine with two rules, of which the one registered first takes any message. -/
def greeter : Engine :=
  ((ofOptions {} 0).load [{
    name := "greeter"
    declarations := {
      rules := [
        { name := "any", pattern := "*", handler := .say "What?" },
        { name := "hello", pattern := "hello [there]", handler := .say "Hi!" }] } }]).2

theorem search_selects_greeter :
    let scene := greeter.sceneOf { capacity := 10 } "ann" "Hello there"
    let s : Session := ⟨⟨defaultTopic, ∅, ∅, .ofSeed 0⟩, [], none⟩
    ∃ r i found, (topicOf scene s).Chosen (.plain "Hello there") [] (bindingsOf s) r i found ∧
      search scene 0 "Hello there" s = (do
        let output ← answer scene r found
        record (stepOf scene s 0 "Hello there" (.plain "Hello there")
          (countAhead (topicOf scene s).rules (r, i) + 1) (some r.name) output)
        return output : Answering String) s := by
  intro scene s
  have he : greeter.Reachable := .load (.ofOptions {} 0) _
  have htarget : Target.ofText? "Hello there" (topicOf scene s).substitutions =
      .ok (.plain "Hello there") := rfl
  have hmatches : ((topicOf scene s).rules.any fun r =>
      (r.match? (.plain "Hello there") [] (bindingsOf s)).isSome) = true := by decide +kernel
  obtain ⟨r, hr, hsome⟩ := List.any_eq_true.mp hmatches
  obtain ⟨hsearch, -⟩ := search_selects he "ann" "Hello there"
  exact (hsearch _ s 0 "Hello there" _ htarget).1 ⟨r, hr, (r.isSome_match?_iff _ _ _).mp hsome⟩

end Example

end Engine
end Repartee
