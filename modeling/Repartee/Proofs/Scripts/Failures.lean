import Repartee.Proofs.Scripts.Rules

/-!
# What fails in the scripts

Nothing that users say makes the scripts fail, unless references lead too deep. Their rules are
right as they are written, and so is what they say, also where it contains a name that a user has
given. The contractions are written out within the lists of words, the number of which stays the
same.
-/

namespace Repartee.Scripts

open Template

/-! ## The scripts one by one -/

theorem proper_tour : tour.Proper Plain where
  topic := rfl
  setup _ _ h := h
  alternates := List.forall_mem_singleton.mpr (Pattern.exists_of_checkText rfl)
  rules := proper_tourRules
  substitutions := List.forall_mem_nil _

theorem proper_hokeyPokey : hokeyPokey.Proper Plain where
  topic := rfl
  setup _ _ h := ((h.insertText rfl).insertText rfl).insert (by decide)
  alternates := List.forall_mem_nil _
  rules := proper_hokeyPokeyRules
  substitutions := List.forall_mem_nil _

theorem keepsLength_contractions : contractions.KeepsLength :=
  fun _ _ => List.length_map _

theorem proper_danceFloor : danceFloor.Proper Plain where
  topic := rfl
  setup _ _ h := h
  alternates := List.forall_mem_nil _
  rules := proper_danceFloorRules
  substitutions := List.forall_mem_singleton.mpr keepsLength_contractions

theorem proper_waterworks : waterworks.Proper Plain where
  topic := rfl
  setup _ _ h := ((h.insertText rfl).insertText rfl).insertText rfl
  alternates := by
    refine List.forall_mem_cons.mpr ⟨Pattern.exists_of_checkText rfl, ?_⟩
    refine List.forall_mem_cons.mpr ⟨Pattern.exists_of_checkText rfl, ?_⟩
    exact List.forall_mem_singleton.mpr (Pattern.exists_of_checkText rfl)
  rules := proper_waterworksRules
  substitutions := List.forall_mem_nil _

theorem proper_builtin : ∀ s ∈ builtin, s.Proper Plain := by
  refine List.forall_mem_cons.mpr ⟨proper_tour, ?_⟩
  refine List.forall_mem_cons.mpr ⟨proper_hokeyPokey, ?_⟩
  refine List.forall_mem_cons.mpr ⟨proper_danceFloor, ?_⟩
  exact List.forall_mem_singleton.mpr proper_waterworks

/-! ## Conversations with the scripts -/

/-- The scripts can be loaded, and loaded again at any time, whatever anybody says in between. A
message gets a reply unless its references lead too deep. The template that a handler picks can be
filled in with the entries for the memos of its own rule, which are those that it sees. The
substitutions keep the number of lists. -/
theorem builtin_fails_by_recursion [Pattern.SizeLimit] [Random.Source] (options : Options)
    (entropy : UInt64) {calls : List Call}
    (hcalls : ∀ call ∈ calls, call.keepsScripts = true ∧ call.isOrdinary = true) :
    let loading := (Engine.ofOptions options entropy).load builtin
    let record := (loading.2.conduct calls).1
    let e := (loading.2.conduct calls).2
    ∃ count, loading.1 = .ok count ∧
      (∀ entry ∈ record, (entry.1 = .reload → entry.2 = .loaded (.ok count)) ∧
        ∀ err, entry.2.error? = some err → err.isRecursion = true) ∧
      (∀ userId message trace, ∀ i ∈ e.invocations userId message trace,
        Template.Fills i.rule.keys i.template ∧
        (∀ key, i.context.matched.contains key = true ↔ key ∈ i.rule.keys) ∧
        ∃ text, Template.fill i.context.matched i.template = .ok text) ∧
      ∀ name, ∀ s ∈ (e.database.topicNamed name).substitutions, s.KeepsLength := by
  have hrules : ∃ s ∈ builtin, s.declarations.rules ≠ [] :=
    ⟨tour, List.mem_cons_self, List.cons_ne_nil _ _⟩
  obtain ⟨count, hload, hsound, hrecord⟩ :=
    Engine.isRecursion_of_load (e := Engine.ofOptions options entropy) proper_builtin hrules
      plain_empty hcalls
  refine ⟨count, hload, hrecord, fun userId message trace i hi => ?_, hsound.substitutions⟩
  exact ⟨hsound.fills_template hi, hsound.contains_matched hi, hsound.exists_fill hi⟩

section Example

attribute [local instance] Pattern.SizeLimit.byWeight Random.Source.splitMix

/-- Ann has braces in her name. -/
def naming : List Call := [
  .reply "ann" "what is my name",
  .reload,
  .clearUser "bob",
  .replyVerbose "ann" "my name is \x7bann\x7d"]

theorem builtin_fails_by_recursion_naming :
    let loading := (Engine.ofOptions {} 0).load builtin
    let record := (loading.2.conduct naming).1
    (∃ count, loading.1 = .ok count) ∧
      ∀ entry ∈ record, ∀ err, entry.2.error? = some err → err.isRecursion = true := by
  have hcalls : ∀ call ∈ naming, call.keepsScripts = true ∧ call.isOrdinary = true := by decide
  obtain ⟨count, hload, hrecord, -⟩ := builtin_fails_by_recursion {} 0 hcalls
  exact ⟨⟨count, hload⟩, fun entry hentry => (hrecord entry hentry).2⟩

end Example

end Repartee.Scripts
