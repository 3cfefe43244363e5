import Mathlib
import Repartee.Proofs.Engine.Runs

/-!
# The limit of the depth

A reply with fewer levels ends as one with more levels does, or because references lead too deep
(`cuts_replyAt`). It is an induction over the levels, for which it is enough that sequences of
actions cut off no more than the actions do (`Cuts.bind`): the state that one reference leaves to
the next is the same in both as long as nothing has been cut off.

For a run this says that a limit never changes an answer (`cuts_run`). That a reply was cut off is
told with the message that came in and the limit of the engine, at whatever depth it happens
(`tells_replyAt`).
-/

namespace Repartee

def Scene.withLimit (scene : Scene) (limit : Nat) : Scene :=
  { scene with limit }

namespace Session

variable {α β : Type} {scene : Scene}

/-! ## Replies with more levels -/

/-- The action ends as the other one does, or because references lead too deep. -/
def Cuts (action other : Answering α) : Prop :=
  ∀ s, action s = other s ∨ ∃ e t, action s = .error e t ∧ e.isRecursion = true

theorem Cuts.refl (action : Answering α) : Cuts action action :=
  fun _ => .inl rfl

theorem Cuts.bind {action other : Answering α} {next next' : α → Answering β}
    (h : Cuts action other) (h' : ∀ a, Cuts (next a) (next' a)) :
    Cuts (action >>= next) (other >>= next') := by
  intro s
  rcases h s with heq | ⟨e, t, herror, hrecursion⟩
  · cases hother : other s with
    | error e t =>
      rw [hother] at heq
      exact .inl ((bind_of_error heq).trans (bind_of_error hother).symm)
    | ok a t =>
      rw [hother] at heq
      rw [bind_of_ok heq, bind_of_ok hother]
      exact h' a t
  · exact .inr ⟨e, t, bind_of_error herror, hrecursion⟩

theorem cuts_expand {replyTo replyTo' : String → Answering String}
    (h : ∀ message, Cuts (replyTo message) (replyTo' message)) (pieces : List Piece) :
    Cuts (expand replyTo pieces) (expand replyTo' pieces) := by
  induction pieces with
  | nil => exact .refl _
  | cons piece rest ih =>
    cases piece with
    | plain c => exact ih.bind fun _ => .refl _
    | reference message => exact (h message).bind fun _ => ih.bind fun _ => .refl _

/-- With more levels a reply is the same, unless it was cut off. -/
theorem cuts_replyAt [Pattern.SizeLimit] (scene : Scene) (limit : Nat) {levels levels' : Nat}
    (h : levels ≤ levels') (depth : Nat) (input : String) :
    Cuts (replyAt scene levels depth input)
      (replyAt (scene.withLimit limit) levels' depth input) := by
  induction levels generalizing levels' depth input with
  | zero => exact fun s => .inr ⟨_, s, rfl, rfl⟩
  | succ levels ih =>
    obtain ⟨levels', rfl⟩ := Nat.exists_eq_add_of_le' (Nat.one_le_of_lt h)
    have hlevels : levels ≤ levels' := Nat.le_of_succ_le_succ h
    -- A search does not look at the limit.
    have hsearch : search (scene.withLimit limit) depth input = search scene depth input := rfl
    refine Cuts.bind (hsearch ▸ .refl _) fun output => Cuts.bind ?_ fun _ => .refl _
    exact cuts_expand (fun message => ih hlevels (depth + 1) message) _

/-! ## How it is told that a reply was cut off -/

/-- If the action says that references lead too deep, then it says so of the message that came in,
with the limit of the scene. -/
def Tells (scene : Scene) (action : Answering α) : Prop :=
  ∀ s e t, action s = .error e t → e.isRecursion = true →
    e = .recursionTooDeep scene.message scene.limit

theorem tells_pure (a : α) : Tells scene (pure a) := by
  intro s e t h
  cases h

theorem Tells.bind {action : Answering α} {next : α → Answering β} (h : Tells scene action)
    (h' : ∀ a, Tells scene (next a)) : Tells scene (action >>= next) := by
  intro s e t hbind hrecursion
  cases haction : action s with
  | error e' t' =>
    rw [bind_of_error haction] at hbind
    cases hbind
    exact h s e t haction hrecursion
  | ok a t' =>
    rw [bind_of_ok haction] at hbind
    exact h' a t' e t hbind hrecursion

theorem tells_require {x : Except Error α} (h : ∀ e, x = .error e → e.isRecursion = false) :
    Tells scene (require x) := by
  intro s e t hx hrecursion
  cases x with
  | error e' =>
    cases hx
    rw [h e rfl] at hrecursion
    cases hrecursion
  | ok a => cases hx

theorem tells_answer (rule : Rule) (matched : Match) :
    Tells scene (answer scene rule matched) := by
  refine Tells.bind (fun s e t h => by cases h) fun s => ?_
  refine Tells.bind (fun s e t h => by cases h) fun template => tells_require fun e he => ?_
  cases hfill : Template.fill matched template with
  | error reason =>
    rw [hfill] at he
    cases he
    rfl
  | ok text =>
    rw [hfill] at he
    cases he

theorem tells_search [Pattern.SizeLimit] (depth : Nat) (input : String) :
    Tells scene (search scene depth input) := by
  intro s e t hsearch hrecursion
  have hends := ends_search scene depth input s
  rw [hsearch] at hends
  cases hends with
  | unprepared prepared =>
    obtain ⟨name, expected, found, rfl⟩ := Target.substitution_of_ofText? prepared
    cases hrecursion
  | unfilled prepared searched answered => exact tells_answer _ _ s e t answered hrecursion

theorem tells_expand {replyTo : String → Answering String}
    (h : ∀ message, Tells scene (replyTo message)) (pieces : List Piece) :
    Tells scene (expand replyTo pieces) := by
  induction pieces with
  | nil => exact tells_pure []
  | cons piece rest ih =>
    cases piece with
    | plain c => exact ih.bind fun _ => tells_pure _
    | reference message => exact (h message).bind fun _ => ih.bind fun _ => tells_pure _

theorem tells_replyAt [Pattern.SizeLimit] (levels depth : Nat) (input : String) :
    Tells scene (replyAt scene levels depth input) := by
  induction levels generalizing depth input with
  | zero =>
    intro s e t h _
    cases h
    rfl
  | succ levels ih =>
    refine (tells_search depth input).bind fun output => ?_
    exact (tells_expand (fun message => ih (depth + 1) message) _).bind fun _ => tells_pure _

end Session

/-! ## Runs -/

namespace Engine

open Session

/-- The engine with another limit. -/
def withLimit (e : Engine) (limit : Nat) : Engine :=
  { e with options := { e.options with depthLimit := limit } }

variable {e : Engine} {userId message : String} {trace : Option (List Step)}

/-- With a higher limit a run is the same, unless it was cut off. -/
theorem cuts_run [Pattern.SizeLimit] {limit : Nat} (h : e.options.depthLimit ≤ limit) :
    (e.withLimit limit).run userId message trace =
        ((e.run userId message trace).1, (e.run userId message trace).2.withLimit limit) ∨
      ∃ err e', e.run userId message trace = (.error err, e') ∧ err.isRecursion = true := by
  let scene := e.sceneOf (e.userOf userId) userId message
  rcases cuts_replyAt scene limit (Nat.succ_le_succ h) 0 message (e.openingOf userId trace) with
    heq | ⟨err, s, herror, hrecursion⟩
  · have hreply : e.replyOf userId message trace =
        (e.withLimit limit).replyOf userId message trace := heq
    left
    rw [run_eq, run_eq, ← hreply]
    cases e.replyOf userId message trace with
    | error err s => rfl
    | ok reply s =>
      have hremember : remember? (e.withLimit limit).database.sort
          ((e.withLimit limit).userWith userId s) message reply =
          remember? e.database.sort (e.userWith userId s) message reply := rfl
      simp only [hremember]
      cases remember? e.database.sort (e.userWith userId s) message reply <;> rfl
  · right
    have hreply : e.replyOf userId message trace = .error err s := herror
    rw [run_eq, hreply]
    exact ⟨err, _, rfl, hrecursion⟩

/-- A run that was cut off says so of the message that came in, with the limit of the engine. -/
theorem tells_run [Pattern.SizeLimit] {err : Error} {e' : Engine}
    (h : e.run userId message trace = (.error err, e')) (hrecursion : err.isRecursion = true) :
    err = .recursionTooDeep message e.options.depthLimit := by
  have hends := ends_run e userId message trace
  rw [h] at hends
  cases hends with
  | unanswered replied => exact tells_replyAt _ 0 message _ _ _ replied hrecursion
  | unprepared replied remembered =>
    obtain ⟨name, expected, found, rfl⟩ := substitution_of_remember? remembered
    cases hrecursion

/-- The limit only cuts off. No search of a run is deeper than the limit, and no record tells of
one. If the run finds a reply, it finds the same one with any higher limit, with the same records,
and leaves the same engine but for the limit. If it is cut off, it is so with any lower limit. And
that it was cut off is told with the message that came in and the limit of the engine. -/
theorem depthLimit_only_cuts_off [Pattern.SizeLimit] (e : Engine) (userId message : String)
    (trace : Option (List Step)) :
    (∀ x ∈ e.searches userId message trace, x.depth ≤ e.options.depthLimit) ∧
    (∀ reply steps e', e.run userId message trace = (.ok (reply, steps), e') →
      ∀ step ∈ steps, step ∈ trace.getD [] ∨ step.depth ≤ e.options.depthLimit) ∧
    (∀ limit ≥ e.options.depthLimit, ∀ answer e',
      e.run userId message trace = (.ok answer, e') →
      (e.withLimit limit).run userId message trace = (.ok answer, e'.withLimit limit)) ∧
    (∀ limit ≤ e.options.depthLimit, ∀ input deepest e',
      e.run userId message trace = (.error (.recursionTooDeep input deepest), e') →
      ∃ e'', (e.withLimit limit).run userId message trace =
        (.error (.recursionTooDeep message limit), e'')) ∧
    (∀ input deepest e',
      e.run userId message trace = (.error (.recursionTooDeep input deepest), e') →
      input = message ∧ deepest = e.options.depthLimit) := by
  have hdepth : ∀ x ∈ e.searches userId message trace, x.depth ≤ e.options.depthLimit := by
    intro x hx
    have := depth_of_mem_searchesAt hx
    omega
  refine ⟨hdepth, ?_, ?_, ?_, ?_⟩
  · intro reply steps e' hrun step hstep
    rcases exists_search_of_step hrun hstep with hstep | ⟨x, hx, hstep⟩
    · exact .inl hstep
    · obtain ⟨hsame, -, -⟩ := Search.eq_of_step? hstep
      exact .inr (hsame ▸ hdepth x hx)
  · intro limit hlimit answer e' hrun
    rcases @cuts_run e userId message trace _ limit hlimit with heq | ⟨err, e'', herror, -⟩
    · rw [heq, hrun]
    · rw [hrun] at herror
      cases herror
  · intro limit hlimit input deepest e' hrun
    have hcut : ∃ err e'', (e.withLimit limit).run userId message trace = (.error err, e'') ∧
        err.isRecursion = true := by
      rcases @cuts_run (e.withLimit limit) userId message trace _ e.options.depthLimit hlimit with
        heq | hcut
      · have hback : (e.withLimit limit).withLimit e.options.depthLimit = e := rfl
        rw [hback, hrun] at heq
        exact ⟨_, _, Prod.ext (Prod.mk.inj heq).1.symm rfl, rfl⟩
      · exact hcut
    obtain ⟨err, e'', herror, hrecursion⟩ := hcut
    rw [tells_run herror hrecursion] at herror
    exact ⟨e'', herror⟩
  · intro input deepest e' hrun
    cases tells_run hrun rfl
    exact ⟨rfl, rfl⟩

section Example

attribute [local instance] Pattern.SizeLimit.byWeight Random.Source.splitMix

/-- An engine whose limit allows for one reference, and of whose rules one refers to itself. -/
def echo : Engine :=
  ((ofOptions { depthLimit := 1 } 0).load [{
    name := "echo"
    declarations := {
      rules := [
        { name := "hi", pattern := "hi", handler := .say "<hello>" },
        { name := "hello", pattern := "hello", handler := .say "Hi!" },
        { name := "ping", pattern := "ping", handler := .say "<ping>" }] } }]).2

set_option maxRecDepth 2000 in
theorem depthLimit_only_cuts_off_echo :
    (∀ limit ≥ 1, ((echo.withLimit limit).run "ann" "hi" none).1 = .ok ("Hi!", [])) ∧
      ∀ limit ≤ 1, ∃ e', (echo.withLimit limit).run "ann" "ping" none =
        (.error (.recursionTooDeep "ping" limit), e') := by
  have hhi : (echo.run "ann" "hi" none).1 = .ok ("Hi!", []) := by cbv
  have hping : (echo.run "ann" "ping" none).1 = .error (.recursionTooDeep "ping" 1) := by cbv
  obtain ⟨-, -, hsame, -, -⟩ := depthLimit_only_cuts_off echo "ann" "hi" none
  obtain ⟨-, -, -, hcut, -⟩ := depthLimit_only_cuts_off echo "ann" "ping" none
  refine ⟨fun limit hlimit => ?_, fun limit hlimit => ?_⟩
  · rw [hsame limit hlimit _ _ (Prod.ext hhi rfl)]
  · exact hcut limit hlimit _ _ _ (Prod.ext hping rfl)

end Example

end Engine
end Repartee
