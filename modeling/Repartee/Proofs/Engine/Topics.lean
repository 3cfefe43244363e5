import Mathlib
import Repartee.Proofs.Engine.Runs

/-!
# The topics of users

A user is always found in a topic that is there. The databases of reachable engines hold the default
topic, and every topic under its own name (`Reachable.named`), so there is somewhere to go. A
conversation begins in a topic that is there (`hasTopic_openingOf`), and a search leaves the user in
one, whatever topic its handler has named (`hasTopic_search`). Hence so does the whole reply, and
each of its searches is made in the topic that the user is in when it begins (`topics_exist`).
-/

namespace Repartee

/-! ## Databases -/

namespace Database

/-- The default topic is there, and every topic stands under its own name. -/
structure Named (d : Database) : Prop where
  default : d.hasTopic defaultTopic = true
  name_eq : ∀ name t, d.topics.get? name = some t → t.name = name

theorem hasTopic_sort (d : Database) (name : String) : d.sort.hasTopic name = d.hasTopic name := by
  unfold hasTopic Table.contains sort
  rw [Table.get?_mapValues, Option.isSome_map]

theorem name_foldl_insert (t : Topic) (rules : List Rule) :
    (rules.foldl Topic.insert t).name = t.name := by
  induction rules generalizing t with
  | nil => rfl
  | cons r rules ih =>
    have hname : (t.insert r).name = t.name := by
      unfold Topic.insert
      split <;> rfl
    rw [List.foldl_cons, ih, hname]

theorem Named.topicNamed {d : Database} (h : d.Named) (name : String) :
    (d.topicNamed name).name = name := by
  unfold Database.topicNamed
  cases ht : d.topics.get? name with
  | none => rfl
  | some t => exact h.name_eq name t ht

theorem named_empty : Named empty where
  default := by simp [hasTopic, Table.contains, empty, Table.get?_insert]
  name_eq name t h := by
    rw [empty, Table.get?_insert] at h
    split at h
    · rename_i heq
      rw [← Option.some.inj h, heq]
    · cases h

theorem Named.sort {d : Database} (h : d.Named) : d.sort.Named where
  default := (hasTopic_sort d defaultTopic).trans h.default
  name_eq name t ht := by
    rw [Database.sort, Table.get?_mapValues] at ht
    obtain ⟨u, hu, rfl⟩ := Option.map_eq_some_iff.mp ht
    exact (Topic.name_sort u).trans (h.name_eq name u hu)

theorem Named.insert {d : Database} (h : d.Named) {t : Topic} {name : String} (ht : t.name = name) :
    Named { d with topics := d.topics.insert name t } where
  default := by
    unfold hasTopic Table.contains
    rw [Table.get?_insert]
    split
    · rfl
    · exact h.default
  name_eq other u hu := by
    rw [Table.get?_insert] at hu
    split at hu
    · rename_i heq
      rw [← Option.some.inj hu, ht, heq]
    · exact h.name_eq other u hu

theorem Named.addScript [Pattern.SizeLimit] {d d' : Database} (h : d.Named) {bot : Variables}
    {s : Script} (hadd : Database.addScript bot d s = .ok d') : d'.Named := by
  obtain ⟨alternates, rules, name, -, rfl⟩ := exists_of_addScript hadd
  refine h.insert ?_
  rw [Topic.foldl_addSubstitution]
  exact (name_foldl_insert _ rules).trans (h.topicNamed name)

theorem named_of_build [Pattern.SizeLimit] {scripts : List Script} {candidates : Nat}
    {bot : Variables} {d : Database} (h : build scripts candidates bot = .ok d) : d.Named := by
  have hstart : Named { empty with scripts } := ⟨named_empty.default, named_empty.name_eq⟩
  exact holds_of_build hstart (fun _ _ _ _ hd => hd.addScript) (fun _ hd => hd.sort) h

/-- A topic that is there is the one that stands for its name. -/
theorem get?_of_hasTopic {d : Database} {name : String} (h : d.hasTopic name = true) :
    d.topics.get? name = some (d.topicOrDefault name) := by
  obtain ⟨t, ht⟩ := Option.isSome_iff_exists.mp h
  rw [topicOrDefault, ht]
  rfl

end Database

/-! ## Searches -/

namespace Session

variable {scene : Scene}

theorem hasTopic_settled {d : Database} (hdefault : d.hasTopic defaultTopic = true)
    {i : Invocation} (hbefore : d.hasTopic i.before.topic = true) :
    d.hasTopic (i.settled d).topic = true := by
  unfold Invocation.settled settleTopic
  simp only
  split
  · rename_i h
    rcases Bool.or_eq_true_iff.mp h with hsame | hthere
    · rw [of_decide_eq_true hsame]
      exact hbefore
    · exact hthere
  · exact hdefault

/-- A search leaves the user in a topic that is there. -/
theorem hasTopic_search [Pattern.SizeLimit] (hdefault : scene.database.hasTopic defaultTopic = true)
    (depth : Nat) (input : String) (s : Session)
    (hs : scene.database.hasTopic s.memory.topic = true) :
    scene.database.hasTopic (after (search scene depth input) s).memory.topic = true := by
  rw [memory_search]
  cases hcall : Search.invocation? scene ⟨depth, input, s⟩ with
  | none => exact hs
  | some i =>
    have hbefore := Search.before_of_invocation? hcall
    exact hasTopic_settled hdefault (hbefore ▸ hs)

end Session

namespace Engine

open Session

theorem Reachable.named [Pattern.SizeLimit] {e : Engine} (h : e.Reachable) : e.database.Named :=
  h.holds Database.named_empty (fun _ _ _ _ => Database.named_of_build) fun _ hd => hd.sort

variable {e : Engine}

/-- A conversation begins in a topic that is there. -/
theorem hasTopic_openingOf (he : e.database.Named) (userId : String)
    (trace : Option (List Step)) :
    e.database.sort.hasTopic (e.openingOf userId trace).memory.topic = true := by
  show e.database.sort.hasTopic (e.userOf userId).topic = true
  unfold userOf userFor
  simp only
  split
  · assumption
  · exact he.sort.default

/-- In a reachable engine the default topic is there. A run leaves the user in a topic that is
there, whether it finds a reply or not. Each of its searches is made in the topic that the user is
in at that moment, which is there; this is the topic that is recorded. -/
theorem topics_exist [Pattern.SizeLimit] {e : Engine} (he : e.Reachable) :
    e.database.hasTopic defaultTopic = true ∧
    ∀ userId message trace,
      let scene := e.sceneOf (e.userOf userId) userId message
      (∃ user, (e.run userId message trace).2.users.get? userId = some user ∧
        (e.run userId message trace).2.database.hasTopic user.topic = true) ∧
      (∀ x ∈ e.searches userId message trace,
        scene.database.topics.get? x.session.memory.topic = some (topicOf scene x.session)) ∧
      ∀ reply steps e', e.run userId message trace = (.ok (reply, steps), e') →
        ∀ step ∈ steps, step ∈ trace.getD [] ∨ ∃ x ∈ e.searches userId message trace,
          step.topic = x.session.memory.topic ∧ e'.database.hasTopic step.topic = true := by
  refine ⟨he.named.default, fun userId message trace => ?_⟩
  intro scene
  have hnamed : scene.database.Named := he.named.sort
  obtain ⟨hsearches, hend⟩ := (e.chained_searches userId message trace).kept
    (hasTopic_search hnamed.default) (hasTopic_openingOf he.named userId trace)
  refine ⟨?_, fun x hx => Database.get?_of_hasTopic (hsearches x hx), ?_⟩
  · obtain ⟨user, husers, htopic⟩ := @users_run _ e userId message trace
    refine ⟨user, ?_, ?_⟩
    · rw [husers, Table.get?_insert, if_pos rfl]
    · rw [database_run, htopic]
      exact hend
  · intro reply steps e' hrun step hstep
    have hdatabase := database_run e userId message trace
    rw [hrun] at hdatabase
    rcases exists_search_of_step hrun hstep with hstep | ⟨x, hx, hstep⟩
    · exact .inl hstep
    · obtain ⟨-, -, htopic⟩ := Search.eq_of_step? hstep
      have hthere := hsearches x hx
      have hname : step.topic = x.session.memory.topic :=
        htopic.trans (hnamed.name_eq _ _ (Database.get?_of_hasTopic hthere))
      refine .inr ⟨x, hx, hname, ?_⟩
      rw [hdatabase, hname]
      exact hthere

section Example

attribute [local instance] Pattern.SizeLimit.byWeight Random.Source.splitMix

/-- An engine with a handler that names a topic which is not there, and whose reply then fails. -/
def wanderer : Engine :=
  ((ofOptions {} 0).load [{
    name := "wanderer"
    declarations := {
      rules := [
        { name := "go", pattern := "go"
          handler := fun _ => do
            Memory.setTopic "nowhere"
            return .text (Template.slot "gone") }] } }]).2

theorem topics_exist_wanderer :
    (wanderer.run "ann" "go" none).1 =
        .error (.placeholder "wanderer.go" (Template.slot "gone") (.unknownKey "gone")) ∧
      ∃ user, (wanderer.run "ann" "go" none).2.users.get? "ann" = some user ∧
        (wanderer.run "ann" "go" none).2.database.hasTopic user.topic = true := by
  have hfails : (wanderer.run "ann" "go" none).1 =
      .error (.placeholder "wanderer.go" (Template.slot "gone") (.unknownKey "gone")) := by cbv
  have he : wanderer.Reachable := .load (.ofOptions {} 0) _
  obtain ⟨-, hruns⟩ := topics_exist he
  exact ⟨hfails, (hruns "ann" "go" none).1⟩

end Example

end Engine
end Repartee
