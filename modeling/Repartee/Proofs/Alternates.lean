import Repartee.Proofs.Engine.Loading
import Repartee.Proofs.Pattern.Canonical
import Repartee.Proofs.Pattern.References

/-!
# Alternates that are accepted

An alternate is read twice: when a script is loaded, its text has to be a simple pattern, and where
another pattern refers to it, the canonical text is read once more. Both come to the same tree, so
an alternate that is accepted can be used: it stands for what its own text stands for, and no
pattern is refused because of it (`Script.accepted_alternate_usable`).

The empty text is an exception. As a pattern it is the one that matches anything, and so it is
accepted, but as a value it cannot be read (`Script.not_accepted_alternate_usable_empty`).
-/

namespace Repartee

open Pattern Unicode Text

/-- A text that is accepted as a simple pattern can be read as one, unless it is empty. -/
theorem Pattern.exists_of_simple? [Pattern.SizeLimit] {content : String} {p : Pattern}
    (h : Pattern.simple? content = .ok p) (hne : content ≠ "") :
    ∃ tree, parse? .simple content = .ok tree ∧ p.canonical = Sequence.canonical tree := by
  unfold Pattern.simple? Pattern.read? at h
  rw [if_neg fun hempty => hne (String.isEmpty_iff.mp hempty)] at h
  obtain ⟨tree, hread, h⟩ := Except.bind_eq_ok_iff.mp h
  refine ⟨tree, hread, ?_⟩
  split at h
  · cases h
    rfl
  · split at h <;> cases h
    rfl

namespace Script

section Accepted

variable [Pattern.SizeLimit] {s : Script} {table : Variables} (h : s.alternates? = .ok table)

include h

theorem eq_alternateTable : table = s.alternateTable := by
  rw [alternates?_eq, Except.ofFailures_eq_ok_iff] at h
  exact h.2.symm

theorem exists_simple?_of_accepted {entry : String × String}
    (hmem : entry ∈ s.declarations.alternates) : ∃ p, Pattern.simple? entry.2 = .ok p := by
  rw [alternates?_eq, Except.ofFailures_eq_ok_iff] at h
  have hnone := List.filterMap_eq_nil_iff.mp h.1 entry hmem
  exact Except.error?_eq_none_iff.mp (Option.map_eq_none_iff.mp hnone)

variable {front back : List (String × String)} {key content : String}
  (hsplit : s.declarations.alternates = front ++ (key, content) :: back)
  (hlast : ∀ entry ∈ back, Text.lower entry.1 ≠ Text.lower key) (hne : content ≠ "")

include hsplit hlast hne

/-- The last alternate of a name is in the table with its canonical text. -/
theorem exists_value_of_accepted : ∃ tree, parse? .simple content = .ok tree ∧
    table.get? (Text.lower key) = some (.text (Sequence.canonical tree)) := by
  have hmem : (key, content) ∈ s.declarations.alternates := by
    rw [hsplit]
    exact List.mem_append_right front List.mem_cons_self
  obtain ⟨p, hp⟩ := exists_simple?_of_accepted h hmem
  obtain ⟨tree, hread, hcanonical⟩ := Pattern.exists_of_simple? hp hne
  have hentry : alternate? (key, content) =
      some (Text.lower key, .text (Sequence.canonical tree)) := by
    rw [alternate?, hp, ← hcanonical]
    rfl
  have hback : Text.lower key ∉ (back.filterMap alternate?).map Prod.fst := by
    intro hname
    obtain ⟨⟨name, value⟩, hvalue, rfl⟩ := List.mem_map.mp hname
    obtain ⟨entry, hentry, hvalue⟩ := List.mem_filterMap.mp hvalue
    obtain ⟨p, -, hp⟩ := Option.map_eq_some_iff.mp hvalue
    exact hlast entry hentry (congrArg Prod.fst hp)
  refine ⟨tree, hread, ?_⟩
  rw [eq_alternateTable h, alternateTable, hsplit, List.filterMap_append,
    List.filterMap_cons_some hentry]
  exact Table.get?_ofList_of_last _ hback

/-- An alternate that is accepted can be used, if its text is not empty and no later one has its
name. Whatever the variables of the bot and of the user are, no pattern is refused because of it,
and it stands for the language of its own text. -/
theorem accepted_alternate_usable :
    ∃ tree, parse? .simple content = .ok tree ∧ ∀ b : Bindings, b.alternates = table →
      (∀ raw e, Pattern.ofText? raw b = .error e →
        e.about? ≠ some (.alternate, Text.lower key)) ∧
      (∀ pattern e, Sequence.compile b pattern = .error e →
        e.about? ≠ some (.alternate, Text.lower key)) ∧
      b.language .alternate (Text.lower key) = Sequence.language (fun _ _ => 0) tree ∧
      ∃ r, b.resolve .alternate (Text.lower key) = .ok r ∧
        ∀ ws, ws ≠ [] → (∀ w ∈ ws, IsNormalWord w) →
          ((Regex.matchWhole? (Regex.textOf ws) r.factored).isSome = true ↔
            ws ∈ Sequence.language (fun _ _ => 0) tree) := by
  obtain ⟨tree, hread, hvalue⟩ := exists_value_of_accepted h hsplit hlast hne
  refine ⟨tree, hread, fun b hb => ?_⟩
  have hlookup : b.lookup .alternate (Text.lower key) = some (.text (Sequence.canonical tree)) := by
    rw [Bindings.lookup, hb]
    exact hvalue
  have hagain := parse?_canonical hread
  have hresolves : b.Resolves (.alternate, Text.lower key) := ⟨_, tree, hlookup, hagain⟩
  have hlanguage := Bindings.language_eq hlookup hagain
  obtain ⟨r, hr⟩ := hresolves.exists_resolve
  refine ⟨fun raw e he => about?_ne_of_ofText? he hresolves,
    fun pattern e he => Sequence.about?_ne_of_compile he hresolves, hlanguage, r, hr,
    fun ws hsome hws => ?_⟩
  rw [← hlanguage]
  exact (faithful_resolve hws hsome hr).matchWhole?_iff hws

end Accepted

section Example

attribute [local instance] SizeLimit.byWeight

/-- Of two shades the second one counts, and it may be written with blanks and in uppercase. -/
theorem accepted_alternate_usable_shade :
    let s : Script := { name := "a", declarations := {
      alternates := [("shade", "green"), ("Shade", "(Red | blue)")] } }
    ∃ table tree, s.alternates? = .ok table ∧ parse? .simple "(Red | blue)" = .ok tree ∧
      ∀ bot user, Bindings.language { alternates := table, bot, user } .alternate "shade" =
        Sequence.language (fun _ _ => 0) tree := by
  intro s
  have haccepted : s.alternates? = .ok (Table.empty.insert "shade" (.text "(red|blue)")) := rfl
  obtain ⟨tree, hread, husable⟩ := @accepted_alternate_usable _ s _ haccepted
    [("shade", "green")] [] "Shade" "(Red | blue)" rfl
    (fun entry hentry => absurd hentry List.not_mem_nil) (by decide)
  refine ⟨_, tree, haccepted, hread, fun bot user => ?_⟩
  obtain ⟨-, -, hlanguage, -⟩ := husable { alternates := _, bot, user } rfl
  exact hlanguage

/-- An empty alternate is accepted, and yet a pattern is refused because of it. -/
theorem not_accepted_alternate_usable_empty :
    let s : Script := { name := "a", declarations := { alternates := [("shade", "")] } }
    ∃ table, s.alternates? = .ok table ∧
      Pattern.ofText? "%a:shade" { alternates := table } =
        .error (.inVariable .alternate "shade" .empty) :=
  ⟨_, rfl, rfl⟩

end Example

end Script

end Repartee
