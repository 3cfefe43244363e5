import Repartee.Proofs.Engine.Selection

/-!
# The searches of a reply

A reply comes to a search for the message and to one for every reference on the way (`searchesAt`).
What a search does to the memory is what the handler of its rule does, with the topic settled
(`memory_search`), and what it adds to the trace is its record, if it comes to an answer
(`trace_search`).

The reply is nothing but these searches, each of which finds the session as the one before has left
it (`chained_replyAt`). So whatever all searches keep holds throughout (`Chained.kept`), and the
trace is that of the searches (`Chained.trace`).
-/

namespace Repartee

/-- A search as it begins. -/
structure Search where
  /-- How many references lead from the message to this search. -/
  depth : Nat
  input : String
  session : Session

/-- A handler as it is called: its rule, what it sees, and what it may change as it finds it. -/
structure Invocation where
  rule : Rule
  context : Context
  before : Memory

namespace Invocation

/-- What the handler replies. -/
def reply (i : Invocation) : Reply :=
  ((i.rule.handler i.context).run i.before).value.1

/-- What the handler may change, as it leaves it. -/
def after (i : Invocation) : Memory :=
  ((i.rule.handler i.context).run i.before).value.2

/-- What is left when the topic is settled and one of the replies is picked. -/
def settled (d : Database) (i : Invocation) : Memory :=
  let m := Session.settleTopic d i.before.topic i.after
  { m with random := (i.reply.pick m.random).2 }

end Invocation

namespace Session

variable {scene : Scene}

/-! ## What an action leaves -/

section After

variable {α β : Type} {action : Answering α} {next : α → Answering β} {s t : Session}

theorem after_of_ok {a : α} (h : action s = .ok a t) : after action s = t := by
  unfold after
  rw [h]

theorem after_of_error {e : Error} (h : action s = .error e t) : after action s = t := by
  unfold after
  rw [h]

theorem after_congr {other : Answering α} (h : action s = other t) :
    after action s = after other t := by
  unfold after
  rw [h]

theorem bind_of_ok {a : α} (h : action s = .ok a t) : (action >>= next) s = next a t := by
  simp only [bind, EStateM.bind, h]

theorem bind_of_error {e : Error} (h : action s = .error e t) :
    (action >>= next) s = .error e t := by
  simp only [bind, EStateM.bind, h]

theorem exists_of_bind_eq_ok {b : β} (h : (action >>= next) s = .ok b t) :
    ∃ a s', action s = .ok a s' ∧ next a s' = .ok b t := by
  cases haction : action s with
  | error e s' =>
    rw [bind_of_error haction] at h
    cases h
  | ok a s' =>
    rw [bind_of_ok haction] at h
    exact ⟨a, s', rfl, h⟩

theorem after_bind_of_ok {a : α} (h : action s = .ok a t) :
    after (action >>= next) s = after (next a) t :=
  after_congr (bind_of_ok h)

theorem after_bind_of_error {e : Error} (h : action s = .error e t) :
    after (action >>= next) s = t :=
  after_of_error (bind_of_error h)

end After

end Session

namespace Search

variable [Pattern.SizeLimit]

open Session

/-- The rule that a search finds, and what the rule remembers of the input. -/
def found? (scene : Scene) (x : Search) : Option (Rule × Match) :=
  match Target.ofText? x.input (topicOf scene x.session).substitutions with
  | .error _ => none
  | .ok target =>
    ((topicOf scene x.session).search target scene.replies (bindingsOf x.session)).2

/-- The handler that a search calls, if it finds a rule. -/
def invocation? (scene : Scene) (x : Search) : Option Invocation :=
  (x.found? scene).map fun (rule, matched) =>
    ⟨rule, ⟨scene.userId, matched, scene.messages, scene.replies⟩, x.session.memory⟩

theorem before_of_invocation? {scene : Scene} {x : Search} {i : Invocation}
    (h : x.invocation? scene = some i) : i.before = x.session.memory := by
  obtain ⟨found, -, rfl⟩ := Option.map_eq_some_iff.mp h
  rfl

/-- The record of a search, if it comes to an answer. -/
def step? (scene : Scene) (x : Search) : Option Step :=
  match Target.ofText? x.input (topicOf scene x.session).substitutions,
      search scene x.depth x.input x.session with
  | .ok target, .ok output _ =>
    let (tried, found) :=
      (topicOf scene x.session).search target scene.replies (bindingsOf x.session)
    some (stepOf scene x.session x.depth x.input target tried (found.map (·.1.name)) output)
  | _, _ => none

/-- The record tells the depth and the input of the search, and the topic in which it was made. -/
theorem eq_of_step? {scene : Scene} {x : Search} {step : Step} (h : x.step? scene = some step) :
    step.depth = x.depth ∧ step.input = x.input ∧
      step.topic = (topicOf scene x.session).name := by
  unfold step? at h
  split at h
  · obtain rfl := Option.some.inj h
    exact ⟨rfl, rfl, rfl⟩
  · cases h

end Search

namespace Session

variable {scene : Scene}

/-! ## The searches for pieces of an output -/

/-- The searches for the references among the pieces, up to the first one that has no reply. -/
def searchesOf (searchesFor : String → Session → List Search)
    (replyTo : String → Answering String) : List Piece → Session → List Search
  | [], _ => []
  | .plain _ :: rest, s => searchesOf searchesFor replyTo rest s
  | .reference message :: rest, s =>
    searchesFor message s ++
      match replyTo message s with
      | .ok _ s => searchesOf searchesFor replyTo rest s
      | .error _ _ => []

section Pieces

variable {searchesFor : String → Session → List Search} {replyTo : String → Answering String}

theorem after_expand_plain (c : Char) (rest : List Piece) (s : Session) :
    after (expand replyTo (.plain c :: rest)) s = after (expand replyTo rest) s := by
  cases hrest : expand replyTo rest s with
  | error e t => exact (after_bind_of_error hrest).trans (after_of_error hrest).symm
  | ok chars t => exact (after_bind_of_ok hrest).trans (after_of_ok hrest).symm

theorem after_expand_reference (message : String) (rest : List Piece) (s : Session) :
    after (expand replyTo (.reference message :: rest)) s =
      match replyTo message s with
      | .ok _ t => after (expand replyTo rest) t
      | .error _ t => t := by
  cases hreply : replyTo message s with
  | error e t => exact after_bind_of_error hreply
  | ok reply t =>
    refine (after_bind_of_ok hreply).trans ?_
    cases hrest : expand replyTo rest t with
    | error e u => exact (after_bind_of_error hrest).trans (after_of_error hrest).symm
    | ok chars u => exact (after_bind_of_ok hrest).trans (after_of_ok hrest).symm

/-- All searches for the pieces are for a reference. -/
theorem exists_of_mem_searchesOf {pieces : List Piece} {s : Session} {x : Search}
    (hx : x ∈ searchesOf searchesFor replyTo pieces s) :
    ∃ message t, x ∈ searchesFor message t := by
  induction pieces generalizing s with
  | nil => exact (List.not_mem_nil hx).elim
  | cons piece rest ih =>
    cases piece with
    | plain c => exact ih hx
    | reference message =>
      rcases List.mem_append.mp hx with hx | hx
      · exact ⟨message, s, hx⟩
      · split at hx
        · exact ih hx
        · exact (List.not_mem_nil hx).elim

end Pieces

/-! ## A single search -/

theorem after_require {α : Type} (x : Except Error α) (s : Session) : after (require x) s = s := by
  cases x <;> rfl

/-- The session in which a rule has answered. -/
theorem after_answer (rule : Rule) (matched : Match) (s : Session) :
    (after (answer scene rule matched) s).memory = Invocation.settled scene.database
        ⟨rule, ⟨scene.userId, matched, scene.messages, scene.replies⟩, s.memory⟩ ∧
      (after (answer scene rule matched) s).trace = s.trace := by
  -- All that can fail comes behind the handler, and changes nothing.
  have hanswer : ∃ t template, answer scene rule matched s =
        require ((Template.fill matched template).mapError (.placeholder rule.name template)) t ∧
      t.memory = Invocation.settled scene.database
        ⟨rule, ⟨scene.userId, matched, scene.messages, scene.replies⟩, s.memory⟩ ∧
      t.trace = s.trace :=
    ⟨_, _, rfl, rfl, rfl⟩
  obtain ⟨t, template, hanswer, hmemory, htrace⟩ := hanswer
  rw [after_congr hanswer, after_require]
  exact ⟨hmemory, htrace⟩

variable [Pattern.SizeLimit]

/-- The session with one more record in its trace. -/
def recorded (s : Session) (step : Step) : Session :=
  { s with trace := s.trace.map (step :: ·) }

/-- The ways in which a search can end, with the session that it leaves. -/
inductive Ends (scene : Scene) (depth : Nat) (input : String) (s : Session) :
    EStateM.Result Error Session String → Prop
  /-- The input cannot be prepared. -/
  | unprepared {e} (prepared : Target.ofText? input (topicOf scene s).substitutions = .error e) :
      Ends scene depth input s (.error e s)
  | unmatched {target tried}
      (prepared : Target.ofText? input (topicOf scene s).substitutions = .ok target)
      (searched : (topicOf scene s).search target scene.replies (bindingsOf s) = (tried, none)) :
      Ends scene depth input s
        (.ok "" (s.recorded (stepOf scene s depth input target tried none "")))
  /-- The handler has run, and its template cannot be filled in. -/
  | unfilled {target tried rule matched e t}
      (prepared : Target.ofText? input (topicOf scene s).substitutions = .ok target)
      (searched : (topicOf scene s).search target scene.replies (bindingsOf s) =
        (tried, some (rule, matched)))
      (answered : answer scene rule matched s = .error e t) :
      Ends scene depth input s (.error e t)
  | answered {target tried rule matched output t}
      (prepared : Target.ofText? input (topicOf scene s).substitutions = .ok target)
      (searched : (topicOf scene s).search target scene.replies (bindingsOf s) =
        (tried, some (rule, matched)))
      (answered : answer scene rule matched s = .ok output t) :
      Ends scene depth input s
        (.ok output (t.recorded (stepOf scene s depth input target tried (some rule.name) output)))

theorem ends_search (scene : Scene) (depth : Nat) (input : String) (s : Session) :
    Ends scene depth input s (search scene depth input s) := by
  cases prepared : Target.ofText? input (topicOf scene s).substitutions with
  | error e =>
    rw [search_of_error prepared]
    exact .unprepared prepared
  | ok target =>
    rcases searched : (topicOf scene s).search target scene.replies (bindingsOf s) with
      ⟨tried, _ | ⟨rule, matched⟩⟩
    · rw [search_run prepared searched]
      exact .unmatched prepared searched
    · cases answered : answer scene rule matched s with
      | error e t =>
        have hrun : search scene depth input s = .error e t :=
          (search_run prepared searched).trans (bind_of_error answered)
        rw [hrun]
        exact .unfilled prepared searched answered
      | ok output t =>
        rw [(search_run prepared searched).trans (bind_of_ok answered)]
        exact .answered prepared searched answered

section Search

variable (scene : Scene) (depth : Nat) (input : String) (s : Session)

/-- A search changes the memory by the handler that it calls, if there is one. -/
theorem memory_search : (after (search scene depth input) s).memory =
    ((Search.invocation? scene ⟨depth, input, s⟩).map (·.settled scene.database)).getD
      s.memory := by
  unfold Search.invocation? Search.found? after
  have hends := ends_search scene depth input s
  generalize search scene depth input s = result at hends ⊢
  cases hends with
  | unprepared prepared =>
    simp only [prepared]
    rfl
  | unmatched prepared searched =>
    simp only [prepared, searched]
    rfl
  | unfilled prepared searched answered =>
    simp only [prepared, searched, ← after_of_error answered, (after_answer _ _ s).1]
    rfl
  | answered prepared searched answered =>
    simp only [prepared, searched, recorded, ← after_of_ok answered, (after_answer _ _ s).1]
    rfl

/-- A search adds its record to the trace, if it comes to an answer. -/
theorem trace_search : (after (search scene depth input) s).trace =
    s.trace.map ((Search.step? scene ⟨depth, input, s⟩).toList ++ ·) := by
  unfold Search.step? after
  have hends := ends_search scene depth input s
  generalize search scene depth input s = result at hends ⊢
  cases hends with
  | unprepared prepared => simp [prepared]
  | unmatched prepared searched =>
    simp only [prepared, searched]
    rfl
  | unfilled prepared searched answered =>
    simp [prepared, ← after_of_error answered, (after_answer _ _ s).2]
  | answered prepared searched answered =>
    simp only [prepared, searched, recorded, ← after_of_ok answered, (after_answer _ _ s).2]
    rfl

end Search

/-! ## Searches one after the other -/

/-- The searches are made one after the other, and lead from one session to another. -/
inductive Chained (scene : Scene) : Session → List Search → Session → Prop
  | nil (s : Session) : Chained scene s [] s
  | cons {x : Search} {xs : List Search} {t : Session}
      (rest : Chained scene (after (search scene x.depth x.input) x.session) xs t) :
      Chained scene x.session (x :: xs) t

section Chained

variable {s t u : Session} {xs ys : List Search}

theorem Chained.append (h : Chained scene s xs t) (h' : Chained scene t ys u) :
    Chained scene s (xs ++ ys) u := by
  induction h with
  | nil s => exact h'
  | cons rest ih => exact .cons (ih h')

/-- What every search keeps holds at the start of each of them and behind the last. -/
theorem Chained.kept {p : Session → Prop} (h : Chained scene s xs t)
    (hp : ∀ depth input s, p s → p (after (search scene depth input) s)) (hs : p s) :
    (∀ x ∈ xs, p x.session) ∧ p t := by
  induction h with
  | nil s => exact ⟨fun x hx => (List.not_mem_nil hx).elim, hs⟩
  | cons rest ih =>
    obtain ⟨hrest, hend⟩ := ih (hp _ _ _ hs)
    exact ⟨List.forall_mem_cons.mpr ⟨hs, hrest⟩, hend⟩

/-- The searches add their records to the trace, as far as they come to an answer. -/
theorem Chained.trace (h : Chained scene s xs t) :
    t.trace = s.trace.map ((xs.filterMap (Search.step? scene)).reverse ++ ·) := by
  induction h with
  | nil s => simp
  | @cons x xs t rest ih =>
    rw [ih, trace_search]
    cases hstep : Search.step? scene x <;> simp [hstep, Function.comp_def]

end Chained

/-! ## The searches of a whole reply -/

/-- The searches that the reply to `input` comes to, in the order in which they begin. -/
def searchesAt (scene : Scene) : (levels depth : Nat) → (input : String) → Session → List Search
  | 0, _, _, _ => []
  | levels + 1, depth, input, s =>
    ⟨depth, input, s⟩ ::
      match search scene depth input s with
      | .ok output s =>
        searchesOf (searchesAt scene levels (depth + 1)) (replyAt scene levels (depth + 1))
          (Piece.split output) s
      | .error _ _ => []

/-- If the reply to every reference is nothing but its searches, so is that to the pieces. -/
theorem chained_expand {searchesFor : String → Session → List Search}
    {replyTo : String → Answering String}
    (h : ∀ message s, Chained scene s (searchesFor message s) (after (replyTo message) s))
    (pieces : List Piece) (s : Session) :
    Chained scene s (searchesOf searchesFor replyTo pieces s)
      (after (expand replyTo pieces) s) := by
  induction pieces generalizing s with
  | nil => exact .nil s
  | cons piece rest ih =>
    cases piece with
    | plain c =>
      rw [after_expand_plain]
      exact ih s
    | reference message =>
      have hmessage := h message s
      rw [after_expand_reference, searchesOf]
      cases hreply : replyTo message s with
      | error e t =>
        rw [after_of_error hreply] at hmessage
        exact hmessage.append (.nil t)
      | ok reply t =>
        rw [after_of_ok hreply] at hmessage
        exact hmessage.append (ih t)

theorem after_replyAt (scene : Scene) (levels depth : Nat) (input : String) (s : Session) :
    after (replyAt scene (levels + 1) depth input) s =
      match search scene depth input s with
      | .ok output t =>
        after (expand (replyAt scene levels (depth + 1)) (Piece.split output)) t
      | .error _ t => t := by
  cases hsearch : search scene depth input s with
  | error e t => exact after_bind_of_error hsearch
  | ok output t =>
    refine (after_bind_of_ok hsearch).trans ?_
    cases hexpand : expand (replyAt scene levels (depth + 1)) (Piece.split output) t with
    | error e u => exact (after_bind_of_error hexpand).trans (after_of_error hexpand).symm
    | ok chars u => exact (after_bind_of_ok hexpand).trans (after_of_ok hexpand).symm

/-- A reply is nothing but its searches, one after the other, whether it succeeds or not. -/
theorem chained_replyAt (scene : Scene) (levels depth : Nat) (input : String) (s : Session) :
    Chained scene s (searchesAt scene levels depth input s)
      (after (replyAt scene levels depth input) s) := by
  induction levels generalizing depth input s with
  | zero => exact .nil s
  | succ levels ih =>
    rw [after_replyAt, searchesAt]
    refine Chained.cons (x := ⟨depth, input, s⟩) ?_
    cases hsearch : search scene depth input s with
    | error e t =>
      rw [after_of_error hsearch]
      exact .nil t
    | ok output t =>
      rw [after_of_ok hsearch]
      exact chained_expand (fun message s => ih (depth + 1) message s) (Piece.split output) t

/-- The searches of a reply are as deep as the reply, or up to as many levels deeper as it may go.
-/
theorem depth_of_mem_searchesAt {levels depth : Nat} {input : String} {s : Session} {x : Search}
    (hx : x ∈ searchesAt scene levels depth input s) :
    depth ≤ x.depth ∧ x.depth < depth + levels := by
  induction levels generalizing depth input s with
  | zero => exact (List.not_mem_nil hx).elim
  | succ levels ih =>
    rcases List.mem_cons.mp hx with rfl | hx
    · exact ⟨le_rfl, Nat.lt_add_of_pos_right levels.succ_pos⟩
    · split at hx
      · obtain ⟨message, t, hx⟩ := exists_of_mem_searchesOf hx
        have := ih hx
        omega
      · exact (List.not_mem_nil hx).elim

end Session
end Repartee
