import Mathlib
import Repartee.Proofs.Engine.Runs

/-!
# Reading a trace

A reply comes about as a tree (`Expansion`): a search, and below it the replies to the references in
its output, one for each of them, in their order and one level deeper (`Expansion.Answers`). The
trace of a reply lists the searches of the tree in the order in which they begin, and what is said
is the output of the first one with the replies put in from below (`Expansion.steps`,
`Expansion.text`).

A reply that succeeds has such a tree, which tells of all of its searches (`exists_expansion`), and
no other tree has the same list of searches (`Expansion.Answers.unique`). So nothing but the trace
is needed to find the reply again (`trace_determines_reply`).
-/

namespace Repartee

/-! ## References and what is said instead -/

namespace Piece

/-- The messages of the references among the pieces. -/
def references : List Piece → List String
  | [] => []
  | plain _ :: rest => references rest
  | reference message :: rest => message :: references rest

/-- The text of the pieces, where each of the replies takes the place of a reference. -/
def splice : List Piece → List String → List Char
  | [], _ => []
  | plain c :: rest, replies => c :: splice rest replies
  | reference _ :: rest, [] => splice rest []
  | reference _ :: rest, reply :: replies => reply.toList ++ splice rest replies

end Piece

/-- A search, and below it those for the references in its output. -/
inductive Expansion where
  | search (step : Step) (below : List Expansion)

namespace Expansion

mutual

/-- The records of all searches, in the order in which they begin. -/
def steps : Expansion → List Step
  | search step below => step :: stepsOf below

def stepsOf : List Expansion → List Step
  | [] => []
  | x :: xs => x.steps ++ stepsOf xs

end

mutual

/-- The output of the search, with what is said below in the place of its references. -/
def text : Expansion → String
  | search step below =>
    String.ofList (Piece.splice (Piece.split step.output) (textsOf below))

def textsOf : List Expansion → List String
  | [] => []
  | x :: xs => x.text :: textsOf xs

end

mutual

/-- The search is made for `input` at this depth. Below it there is one for each reference in its
output. -/
inductive Answers : Nat → String → Expansion → Prop
  | search {step : Step} {below : List Expansion}
      (below_answers : AnswersAll (step.depth + 1)
        (Piece.references (Piece.split step.output)) below) :
      Answers step.depth step.input (search step below)

/-- The searches are made for these inputs, one after the other. -/
inductive AnswersAll : Nat → List String → List Expansion → Prop
  | nil {depth : Nat} : AnswersAll depth [] []
  | cons {depth : Nat} {input : String} {inputs : List String} {x : Expansion}
      {xs : List Expansion} (first : Answers depth input x) (rest : AnswersAll depth inputs xs) :
      AnswersAll depth (input :: inputs) (x :: xs)

end

/-! ## Only one tree has these searches -/

mutual

/-- A list of records begins with those of one tree at most. -/
theorem Answers.unique {depth depth' : Nat} {input input' : String} {x y : Expansion}
    {l l' : List Step} (hx : Answers depth input x) (hy : Answers depth' input' y)
    (h : x.steps ++ l = y.steps ++ l') : x = y ∧ l = l' := by
  cases hx with
  | search hbelow =>
    cases hy with
    | search hbelow' =>
      obtain ⟨rfl, hrest⟩ := List.cons.inj h
      obtain ⟨rfl, hl⟩ := AnswersAll.unique hbelow hbelow' hrest
      exact ⟨rfl, hl⟩

theorem AnswersAll.unique {depth depth' : Nat} {inputs : List String} {xs ys : List Expansion}
    {l l' : List Step} (hxs : AnswersAll depth inputs xs) (hys : AnswersAll depth' inputs ys)
    (h : stepsOf xs ++ l = stepsOf ys ++ l') : xs = ys ∧ l = l' := by
  cases hxs with
  | nil =>
    cases hys with
    | nil => exact ⟨rfl, h⟩
  | cons hx hxs =>
    cases hys with
    | cons hy hys =>
      rw [stepsOf, stepsOf, List.append_assoc, List.append_assoc] at h
      obtain ⟨rfl, hrest⟩ := Answers.unique hx hy h
      obtain ⟨rfl, hl⟩ := AnswersAll.unique hxs hys hrest
      exact ⟨rfl, hl⟩

end

end Expansion

namespace Session

variable [Pattern.SizeLimit]

open Expansion

variable {scene : Scene}

/-- A search that comes to an answer has a record, which tells what it was made for and what it
came to. -/
theorem exists_step_of_search {x : Search} {output : String} {t : Session}
    (h : search scene x.depth x.input x.session = .ok output t) :
    ∃ step, x.step? scene = some step ∧ step.depth = x.depth ∧ step.input = x.input ∧
      step.output = output := by
  have hends := ends_search scene x.depth x.input x.session
  rw [h] at hends
  unfold Search.step?
  cases hends with
  | unmatched prepared searched =>
    simp only [prepared, h, searched]
    exact ⟨_, rfl, rfl, rfl, rfl⟩
  | answered prepared searched answered =>
    simp only [prepared, h, searched]
    exact ⟨_, rfl, rfl, rfl, rfl⟩

/-- The trees tell of the searches for the pieces, and of what is said for them. -/
theorem exists_expansions {depth : Nat} {searchesFor : String → Session → List Search}
    {replyTo : String → Answering String}
    (hreply : ∀ message s reply t, replyTo message s = .ok reply t →
      ∃ x : Expansion, x.Answers depth message ∧
        (searchesFor message s).map (Search.step? scene) = x.steps.map some ∧ x.text = reply)
    {pieces : List Piece} {s t : Session} {chars : List Char}
    (h : expand replyTo pieces s = .ok chars t) :
    ∃ xs, AnswersAll depth (Piece.references pieces) xs ∧
      (searchesOf searchesFor replyTo pieces s).map (Search.step? scene) =
        (stepsOf xs).map some ∧
      Piece.splice pieces (textsOf xs) = chars := by
  induction pieces generalizing s chars with
  | nil =>
    cases h
    exact ⟨[], .nil, rfl, rfl⟩
  | cons piece rest ih =>
    cases piece with
    | plain c =>
      obtain ⟨chars', s', hrest, h⟩ := exists_of_bind_eq_ok h
      cases h
      obtain ⟨xs, hanswers, hsteps, htext⟩ := ih hrest
      exact ⟨xs, hanswers, hsteps, congrArg (c :: ·) htext⟩
    | reference message =>
      obtain ⟨reply, s₁, hfirst, h⟩ := exists_of_bind_eq_ok h
      obtain ⟨chars', s₂, hrest, h⟩ := exists_of_bind_eq_ok h
      cases h
      obtain ⟨x, hx, hsteps, rfl⟩ := hreply message s reply s₁ hfirst
      obtain ⟨xs, hxs, hsteps', rfl⟩ := ih hrest
      refine ⟨x :: xs, .cons hx hxs, ?_, rfl⟩
      rw [searchesOf, hfirst, List.map_append, hsteps, hsteps', stepsOf, List.map_append]

/-- A reply that succeeds comes about as a tree, which tells of all its searches. -/
theorem exists_expansion {levels depth : Nat} {input reply : String} {s t : Session}
    (h : replyAt scene levels depth input s = .ok reply t) :
    ∃ x : Expansion, x.Answers depth input ∧
      (searchesAt scene levels depth input s).map (Search.step? scene) = x.steps.map some ∧
      x.text = reply := by
  induction levels generalizing depth input s reply t with
  | zero => cases h
  | succ levels ih =>
    obtain ⟨output, s₁, hsearch, h⟩ := exists_of_bind_eq_ok h
    obtain ⟨chars, s₂, hexpand, h⟩ := exists_of_bind_eq_ok h
    cases h
    obtain ⟨step, hstep, rfl, rfl, rfl⟩ :=
      exists_step_of_search (x := ⟨depth, input, s⟩) hsearch
    obtain ⟨xs, hxs, hsteps, rfl⟩ := exists_expansions (fun _ _ _ _ h => ih h) hexpand
    refine ⟨.search step xs, .search hxs, ?_, rfl⟩
    rw [searchesAt, hsearch, List.map_cons, hstep, hsteps]
    rfl

end Session

namespace Engine

open Session

variable {e e' : Engine} {userId message : String}

/-- A reply with a trace is a run with one, whose records it lists from the first one on. -/
theorem run_of_replyVerbose [Pattern.SizeLimit] {details : ReplyDetails}
    (h : e.replyVerbose userId message = (.ok details, e')) :
    ∃ records, e.run userId message (some []) = (.ok (details.reply, records), e') ∧
      details.steps = records.reverse ∧
      details.topicAfter = ((e'.users.get? userId).map User.topic).getD defaultTopic := by
  unfold replyVerbose at h
  split at h
  · cases h
  · rename_i hrun
    cases h
    exact ⟨_, hrun, rfl, rfl⟩

/-- All searches of a reply with a trace are recorded, and the trace is that of a tree. -/
theorem exists_expansion_of_replyVerbose [Pattern.SizeLimit] {details : ReplyDetails}
    (h : e.replyVerbose userId message = (.ok details, e')) :
    (e.searches userId message (some [])).map
        (Search.step? (e.sceneOf (e.userOf userId) userId message)) = details.steps.map some ∧
      ∃ x : Expansion, x.Answers 0 message ∧ x.steps = details.steps ∧ x.text = details.reply := by
  obtain ⟨records, hrun, hreverse, -⟩ := run_of_replyVerbose h
  have hrecords : details.steps = (e.searches userId message (some [])).filterMap
      (Search.step? (e.sceneOf (e.userOf userId) userId message)) := by
    rw [hreverse, steps_of_run hrun]
    simp
  have hends := ends_run e userId message (some [])
  rw [hrun] at hends
  cases hends with
  | remembered replied remembered =>
    obtain ⟨x, hx, hsearches, htext⟩ := exists_expansion replied
    have hsteps : x.steps = details.steps :=
      calc x.steps = (x.steps.map some).filterMap id := by simp
        _ = ((e.searches userId message (some [])).map (Search.step? _)).filterMap id :=
          congrArg (List.filterMap id) hsearches.symm
        _ = details.steps := by rw [List.filterMap_map, hrecords]; rfl
    exact ⟨hsteps ▸ hsearches, x, hx, hsteps, htext⟩

/-- The trace of a reply has a record of every search, and it is read as a tree in one way only. At
the top of the tree is the search for the message at depth zero, and below every search are those
for the references in its output, as many and in the same order, one level deeper. With what is said
below put in its place from the bottom up, the output of the first search becomes the reply. -/
theorem trace_determines_reply [Pattern.SizeLimit] {details : ReplyDetails}
    (h : e.replyVerbose userId message = (.ok details, e')) :
    (e.searches userId message (some [])).map
        (Search.step? (e.sceneOf (e.userOf userId) userId message)) = details.steps.map some ∧
      ∃ x : Expansion, x.Answers 0 message ∧ x.steps = details.steps ∧ x.text = details.reply ∧
        ∀ depth input (y : Expansion), y.Answers depth input → y.steps = details.steps →
          y = x := by
  obtain ⟨hsearches, x, hx, hsteps, htext⟩ := exists_expansion_of_replyVerbose h
  refine ⟨hsearches, x, hx, hsteps, htext, fun depth input y hy hsame => ?_⟩
  have heq : y.steps ++ [] = x.steps ++ [] := by rw [hsame, hsteps]
  exact (hy.unique hx heq).1

section Example

attribute [local instance] Pattern.SizeLimit.byWeight Random.Source.splitMix

/-- An engine with a rule that refers to two others, of which the first one refers to the second
one as well. -/
def courteous : Engine :=
  ((ofOptions {} 0).load [{
    name := "courteous"
    declarations := {
      rules := [
        { name := "hi", pattern := "hi", handler := .say "<hello>, and <bye>" },
        { name := "hello", pattern := "hello", handler := .say "Hello <bye>" },
        { name := "bye", pattern := "bye", handler := .say "bye!" }] } }]).2

theorem trace_determines_reply_courteous :
    ∃ details e', courteous.replyVerbose "ann" "hi" = (.ok details, e') ∧
      details.steps.map Step.input = ["hi", "hello", "bye", "bye"] ∧
      ∃ x : Expansion, x.Answers 0 "hi" ∧ x.steps = details.steps ∧
        x.text = "Hello bye!, and bye!" := by
  have hreply : (courteous.replyVerbose "ann" "hi").1.map
      (fun details => (details.reply, details.steps.map Step.input)) =
        .ok ("Hello bye!, and bye!", ["hi", "hello", "bye", "bye"]) := by cbv
  rcases hrun : courteous.replyVerbose "ann" "hi" with ⟨err | details, e'⟩
  · rw [hrun] at hreply
    cases hreply
  · rw [hrun] at hreply
    obtain ⟨hsaid, hinputs⟩ := Prod.mk.inj (Except.ok.inj hreply)
    obtain ⟨-, x, hx, hsteps, htext, -⟩ := trace_determines_reply hrun
    exact ⟨details, e', rfl, hinputs, x, hx, hsteps, htext.trans hsaid⟩

end Example

end Engine
end Repartee
