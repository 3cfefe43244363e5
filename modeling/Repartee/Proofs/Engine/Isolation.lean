import Repartee.Proofs.Engine.Expansion
import Repartee.Proofs.Engine.Topics

/-!
# Topics keep to themselves

A reply depends on the database by the searches that it comes to and by nothing else
(`replyAt_congr`), and a search depends on the topic in which it is made (`search_withDatabase`).
All searches of a successful reply are recorded, each with its topic. So two databases with the same
topics give the same reply if they agree on the topics in the trace and on the one that the user is
in by then, for which the message and the reply are prepared (`topics_isolate`).
-/

namespace Repartee

def Scene.withDatabase (scene : Scene) (database : Database) : Scene :=
  { scene with database }

namespace Session

variable {scene : Scene}

/-! ## Replies with the same searches -/

theorem bind_congr_of_eq {α β : Type} {action action' : Answering α} {next next' : α → Answering β}
    {s : Session} (h : action s = action' s)
    (hnext : ∀ a t, action s = .ok a t → next a t = next' a t) :
    (action >>= next) s = (action' >>= next') s := by
  cases haction : action s with
  | error e t => rw [bind_of_error haction, bind_of_error (h.symm.trans haction)]
  | ok a t => rw [bind_of_ok haction, bind_of_ok (h.symm.trans haction), hnext a t haction]

/-- What is said for the pieces is the same if it is so for all references that are searched for. -/
theorem expand_congr {p : Search → Prop} {searchesFor : String → Session → List Search}
    {replyTo replyTo' : String → Answering String}
    (hreply : ∀ message s, (∀ x ∈ searchesFor message s, p x) →
      replyTo message s = replyTo' message s)
    {pieces : List Piece} {s : Session}
    (h : ∀ x ∈ searchesOf searchesFor replyTo pieces s, p x) :
    expand replyTo pieces s = expand replyTo' pieces s := by
  induction pieces generalizing s with
  | nil => rfl
  | cons piece rest ih =>
    cases piece with
    | plain c => exact bind_congr_of_eq (ih h) fun _ _ _ => rfl
    | reference message =>
      rw [searchesOf, List.forall_mem_append] at h
      obtain ⟨hfirst, hrest⟩ := h
      refine bind_congr_of_eq (hreply message s hfirst) fun reply t hok => ?_
      rw [hok] at hrest
      exact bind_congr_of_eq (ih hrest) fun _ _ _ => rfl

variable [Pattern.SizeLimit]

/-- A reply depends on the database by the searches that it comes to and by nothing else. -/
theorem replyAt_congr {database : Database} {levels depth : Nat} {input : String} {s : Session}
    (h : ∀ x ∈ searchesAt scene levels depth input s,
      search scene x.depth x.input x.session =
        search (scene.withDatabase database) x.depth x.input x.session) :
    replyAt scene levels depth input s =
      replyAt (scene.withDatabase database) levels depth input s := by
  induction levels generalizing depth input s with
  | zero => rfl
  | succ levels ih =>
    rw [searchesAt, List.forall_mem_cons] at h
    obtain ⟨hfirst, hrest⟩ := h
    refine bind_congr_of_eq hfirst fun output t hok => ?_
    simp only [hok] at hrest
    exact bind_congr_of_eq (expand_congr (fun _ _ => ih) hrest) fun _ _ _ => rfl

/-- A search depends on the database by the topic in which it is made, and by which topics there
are. -/
theorem search_withDatabase {database : Database}
    (hthere : ∀ name, database.hasTopic name = scene.database.hasTopic name) {s : Session}
    (htopic : topicOf (scene.withDatabase database) s = topicOf scene s) (depth : Nat)
    (input : String) :
    search (scene.withDatabase database) depth input s = search scene depth input s := by
  have hsettle : settleTopic database = settleTopic scene.database := by
    funext before m
    unfold settleTopic
    rw [hthere]
  have hanswer : answer (scene.withDatabase database) = answer scene := by
    funext rule matched
    unfold answer Scene.withDatabase
    simp only [hsettle]
  rw [search_eq, search_eq, hanswer]
  unfold stepOf
  rw [htopic]
  rfl

end Session

/-! ## Databases that agree on a topic -/

namespace Database

variable {d d' : Database} {name : String}

/-- The databases hold the same rules of the topic, in the same order, and the same substitutions.
-/
structure AgreesOn (d d' : Database) (name : String) : Prop where
  rules : (d'.topicNamed name).rules = (d.topicNamed name).rules
  substitutions : (d'.topicNamed name).substitutions = (d.topicNamed name).substitutions

/-- Once they are sorted, databases that agree on a topic hold the same under its name. -/
theorem AgreesOn.topicNamed_sort_eq (h : d.AgreesOn d' name) (hd : d.Built) (hd' : d'.Built)
    (hnamed : d.Named) (hnamed' : d'.Named) : d'.sort.topicNamed name = d.sort.topicNamed name := by
  rw [topicNamed_sort, topicNamed_sort, (hd.topicNamed name).sort_eq, (hd'.topicNamed name).sort_eq,
    hnamed.topicNamed, hnamed'.topicNamed, h.rules, h.substitutions]

theorem topicOrDefault_of_hasTopic (h : d.hasTopic name = true) :
    d.topicOrDefault name = d.topicNamed name := by
  rw [topicNamed, get?_of_hasTopic h]
  rfl

end Database

namespace Engine

open Session

/-- The engine with another database. -/
def withDatabase (e : Engine) (database : Database) : Engine :=
  { e with database }

variable {e e' : Engine} {d : Database} {userId message : String}

/-- A conversation finds the user in the same state. -/
theorem userOf_withDatabase (hthere : ∀ name, d.hasTopic name = e.database.hasTopic name)
    (hsetup : Script.newUserVariables d.scripts userId =
      Script.newUserVariables e.database.scripts userId) :
    (e.withDatabase d).userOf userId = e.userOf userId := by
  have hthere' : ∀ name, d.sort.hasTopic name = e.database.sort.hasTopic name := fun name => by
    rw [Database.hasTopic_sort, Database.hasTopic_sort, hthere]
  have hscripts : Script.newUserVariables d.sort.scripts userId =
      Script.newUserVariables e.database.sort.scripts userId := hsetup
  unfold userOf userFor withDatabase
  simp only [hthere', hscripts]

/-- If a reply succeeds with a trace, all of its searches are the same with a database that has the
same topics and agrees on those in the trace. -/
theorem searches_withDatabase [Pattern.SizeLimit] {details : ReplyDetails}
    (hbuilt : e.database.Built) (hnamed : e.database.Named) (hbuilt' : d.Built) (hnamed' : d.Named)
    (hthere : ∀ name, d.hasTopic name = e.database.hasTopic name)
    (hreply : e.replyVerbose userId message = (.ok details, e'))
    (hagrees : ∀ step ∈ details.steps, e.database.AgreesOn d step.topic) :
    let scene := e.sceneOf (e.userOf userId) userId message
    ∀ x ∈ e.searches userId message (some []),
      search scene x.depth x.input x.session =
        search (scene.withDatabase d.sort) x.depth x.input x.session := by
  intro scene x hx
  have hthere' : ∀ name, d.sort.hasTopic name = scene.database.hasTopic name := fun name =>
    (Database.hasTopic_sort d name).trans
      ((hthere name).trans (Database.hasTopic_sort e.database name).symm)
  -- The search is made in a topic that is there, and this is the one that is recorded.
  have htopic : scene.database.hasTopic x.session.memory.topic = true :=
    ((e.chained_searches userId message (some [])).kept (hasTopic_search hnamed.sort.default)
      (hasTopic_openingOf hnamed userId (some []))).1 x hx
  obtain ⟨hrecorded, -⟩ := exists_expansion_of_replyVerbose hreply
  obtain ⟨step, hstep, hsome⟩ : ∃ step ∈ details.steps, some step = x.step? scene :=
    List.mem_map.mp (hrecorded ▸ List.mem_map_of_mem hx)
  have hname : step.topic = x.session.memory.topic :=
    (Search.eq_of_step? hsome.symm).2.2.trans
      (hnamed.sort.name_eq _ _ (Database.get?_of_hasTopic htopic))
  have hsame : topicOf (scene.withDatabase d.sort) x.session = topicOf scene x.session := by
    have hagree := hname ▸ hagrees step hstep
    have htopic' := (hthere' _).trans htopic
    exact (Database.topicOrDefault_of_hasTopic htopic').trans
      ((hagree.topicNamed_sort_eq hbuilt hbuilt' hnamed hnamed').trans
        (Database.topicOrDefault_of_hasTopic htopic).symm)
  exact (search_withDatabase hthere' hsame x.depth x.input).symm

theorem remember?_congr {database database' : Database} {user : User}
    (h : (database'.topicNamed user.topic).substitutions =
      (database.topicNamed user.topic).substitutions) (message reply : String) :
    remember? database' user message reply = remember? database user message reply := by
  simp only [remember?, h]

/-- If the reply comes about in the same way, and what becomes of the substitutions is the same in
the topic that it leads to, then so does the whole run. -/
theorem run_withDatabase [Pattern.SizeLimit] {trace : Option (List Step)}
    (huser : (e.withDatabase d).userOf userId = e.userOf userId)
    (hreply : (e.withDatabase d).replyOf userId message trace = e.replyOf userId message trace)
    (hsubstitutions :
      let topic := (e.closingOf userId message trace).memory.topic
      (d.topicNamed topic).substitutions = (e.database.topicNamed topic).substitutions) :
    (e.withDatabase d).run userId message trace =
      ((e.run userId message trace).1, (e.run userId message trace).2.withDatabase d.sort) := by
  have hwith : ∀ s, (e.withDatabase d).userWith userId s = e.userWith userId s := fun s => by
    unfold userWith
    rw [huser]
  rw [run_eq, run_eq, hreply]
  cases replied : e.replyOf userId message trace with
  | error err s =>
    simp only [hwith]
    rfl
  | ok reply s =>
    have hprepared :
        remember? (e.withDatabase d).database.sort (e.userWith userId s) message reply =
          remember? e.database.sort (e.userWith userId s) message reply := by
      refine remember?_congr ?_ message reply
      rw [after_of_replyOf_ok replied] at hsubstitutions
      rw [Database.topicNamed_sort, Database.topicNamed_sort, Topic.substitutions_sort,
        Topic.substitutions_sort]
      exact hsubstitutions
    simp only [hwith, hprepared]
    cases remember? e.database.sort (e.userWith userId s) message reply <;> rfl

/-- Two engines that differ in their databases alone, which have the same topics and prepare the
user in the same way, give the same reply with the same trace, and leave the same behind, if the
first one succeeds and the databases agree on all topics in its trace and on the topic that the user
is in afterwards. -/
theorem topics_isolate [Pattern.SizeLimit] {details : ReplyDetails} (hbuilt : e.database.Built)
    (hnamed : e.database.Named) (hbuilt' : d.Built) (hnamed' : d.Named)
    (hthere : ∀ name, d.hasTopic name = e.database.hasTopic name)
    (hsetup : Script.newUserVariables d.scripts userId =
      Script.newUserVariables e.database.scripts userId)
    (hreply : e.replyVerbose userId message = (.ok details, e'))
    (hagrees : ∀ name, name ∈ details.steps.map Step.topic ∨ name = details.topicAfter →
      e.database.AgreesOn d name) :
    (e.withDatabase d).replyVerbose userId message = (.ok details, e'.withDatabase d.sort) := by
  obtain ⟨records, hrun, -, hafter⟩ := run_of_replyVerbose hreply
  have huser := userOf_withDatabase hthere hsetup
  have hsame : (e.withDatabase d).replyOf userId message (some []) =
      e.replyOf userId message (some []) := by
    have hsearches := searches_withDatabase hbuilt hnamed hbuilt' hnamed' hthere hreply
      fun step hstep => hagrees _ (.inl (List.mem_map_of_mem hstep))
    unfold replyOf openingOf
    rw [huser]
    exact (replyAt_congr hsearches).symm
  have htopic : (e.closingOf userId message (some [])).memory.topic = details.topicAfter := by
    obtain ⟨user, husers, htopic⟩ := @users_run _ e userId message (some [])
    rw [hrun] at husers
    rw [hafter, husers, Table.get?_insert, if_pos rfl, ← htopic]
    rfl
  have hruns := run_withDatabase huser hsame (by
    rw [htopic]
    exact (hagrees _ (.inr rfl)).substitutions)
  unfold replyVerbose at hreply ⊢
  rw [hrun] at hreply
  rw [hruns, hrun]
  exact Prod.ext (Prod.mk.inj hreply).1 rfl

section Example

attribute [local instance] Pattern.SizeLimit.byWeight Random.Source.splitMix

/-- An engine with three topics. A greeting leads from the default topic to the cellar, while the
references in its reply are still to be replaced. -/
def house : Engine :=
  ((ofOptions {} 0).load [
    { name := "hall"
      declarations := {
        rules := [
          { name := "hi", pattern := "hi"
            handler := fun _ => do
              Memory.setTopic "cellar"
              return .text "Down here: <hi>" }] } },
    { name := "cellar", topic := some "cellar"
      declarations := { rules := [{ name := "hi", pattern := "hi", handler := .say "Boo!" }] } },
    { name := "attic", topic := some "attic"
      declarations := { rules := [{ name := "hi", pattern := "hi", handler := .say "Who?" }] } }]).2

/-- The database of the house, but for the rules in the attic. -/
def clearedAttic : Database :=
  { house.database with topics := house.database.topics.insert "attic" { name := "attic" } }

theorem get?_clearedAttic (name : String) : clearedAttic.topics.get? name =
    if name = "attic" then some { name := "attic" } else house.database.topics.get? name :=
  Table.get?_insert _ _ _ _

set_option maxRecDepth 4000 in
theorem topics_isolate_house :
    ∃ details e', house.replyVerbose "ann" "hi" = (.ok details, e') ∧
      details.reply = "Down here: Boo!" ∧
      details.steps.map Step.topic = ["all", "cellar"] ∧
      (house.withDatabase clearedAttic).replyVerbose "ann" "hi" =
        (.ok details, e'.withDatabase clearedAttic.sort) := by
  have hhouse : house.Reachable := .load (.ofOptions {} 0) _
  have hattic : house.database.hasTopic "attic" = true := by cbv
  have hreply : (house.replyVerbose "ann" "hi").1.map
      (fun details => (details.reply, details.steps.map Step.topic, details.topicAfter)) =
        .ok ("Down here: Boo!", ["all", "cellar"], "cellar") := by cbv
  have hbuilt : clearedAttic.Built := hhouse.built.insert (.new "attic") "attic"
  have hnamed : clearedAttic.Named := hhouse.named.insert rfl
  have hthere : ∀ name, clearedAttic.hasTopic name = house.database.hasTopic name := by
    intro name
    unfold Database.hasTopic Table.contains at *
    rw [get?_clearedAttic]
    split
    · rename_i heq
      rw [heq, hattic]
      rfl
    · rfl
  have hagrees : ∀ name, name ≠ "attic" → house.database.AgreesOn clearedAttic name := by
    intro name hne
    have hsame : clearedAttic.topicNamed name = house.database.topicNamed name := by
      unfold Database.topicNamed
      rw [get?_clearedAttic, if_neg hne]
    exact ⟨congrArg Topic.rules hsame, congrArg Topic.substitutions hsame⟩
  rcases hrun : house.replyVerbose "ann" "hi" with ⟨err | details, e'⟩
  · rw [hrun] at hreply
    cases hreply
  · rw [hrun] at hreply
    obtain ⟨hsaid, hrest⟩ := Prod.mk.inj (Except.ok.inj hreply)
    obtain ⟨htopics, hafter⟩ := Prod.mk.inj hrest
    refine ⟨details, e', rfl, hsaid, htopics, ?_⟩
    refine topics_isolate hhouse.built hhouse.named hbuilt hnamed hthere rfl hrun
      fun name hname => ?_
    rw [htopics, hafter] at hname
    refine hagrees name ?_
    rintro rfl
    simp at hname

end Example

end Engine
end Repartee
