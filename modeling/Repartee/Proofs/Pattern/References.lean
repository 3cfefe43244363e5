import Repartee.Proofs.Pattern.Dependence
import Repartee.Proofs.Pattern.Recognition

/-!
# The reference that decides

A tree is compiled from left to right, so what fails it is the first of its references that has no
usable value (`Sequence.error?_regex`), unless it is too large. If this is a reference to a variable
of the user, the pattern is deferred, and otherwise it is refused: references behind the first one
are not looked at (`first_unresolved_decides`). Where a missing variable of the bot stands behind
one of the user, the pattern is deferred although it may never match
(`not_first_unresolved_decides_mood`).

No error but the one of a missing variable is taken for it, since a text that cannot be read is
never refused because of a variable (`about?_of_parse?`).
-/

namespace Repartee.Pattern

/-! ## Errors -/

namespace Error

/-- The variable that the error is about. -/
def about? : Error → Option (VariableKind × String)
  | variableNotFound kind name => some (kind, name)
  | badVariableValue kind name => some (kind, name)
  | inVariable kind name _ => some (kind, name)
  | _ => none

theorem missingVariable?_eq_none {e : Error} (h : e.about? = none) :
    e.missingVariable? = none := by
  cases e with
  | variableNotFound kind name => cases h
  | inVariable kind name source => cases h
  | _ => rfl

end Error

theorem Wildcard.about?_of_ofText? {text : String} {e : Error}
    (h : Wildcard.ofText? text = .error e) : e.about? = none := by
  unfold Wildcard.ofText? at h
  split at h
  · cases h
    rfl
  · split at h <;> cases h <;> rfl

namespace Draft

theorem about?_of_readReference {text : String} {e : Error}
    (h : readReference text = .error e) : e.about? = none := by
  unfold readReference at h
  split at h
  · split at h
    · split at h <;> cases h
      rfl
    · cases h
      rfl
  · cases h
    rfl

theorem about?_of_closeAlternative {current : List Node} {alternatives : List Sequence}
    {e : Error} (h : closeAlternative current alternatives = .error e) :
    e.about? = none := by
  unfold closeAlternative at h
  split at h <;> cases h
  rfl

theorem about?_of_openLayer {d : Draft} {opening : Opening} {e : Error}
    (h : d.openLayer opening = .error e) : e.about? = none := by
  unfold openLayer at h
  split at h <;> cases h
  rfl

/-- No token is refused because of a variable. -/
theorem about?_of_step {d : Draft} {t : Token} {e : Error} (h : d.step t = .error e) :
    e.about? = none := by
  unfold step at h
  split at h
  · cases h
    rfl
  · cases h
  · cases h
  · rcases Except.bind_eq_error_iff.mp h with h | ⟨_, _, h⟩
    · exact Wildcard.about?_of_ofText? h
    · cases h
  · rcases Except.bind_eq_error_iff.mp h with h | ⟨_, _, h⟩
    · exact about?_of_readReference h
    · cases h
  · exact about?_of_openLayer h
  · exact about?_of_openLayer h
  · exact about?_of_openLayer h
  · unfold takePipe at h
    split at h
    · rcases Except.bind_eq_error_iff.mp h with h | ⟨_, _, h⟩
      · exact about?_of_closeAlternative h
      · cases h
    · cases h
      rfl
  · unfold takeCloser at h
    split at h
    · split at h
      · rcases Except.bind_eq_error_iff.mp h with h | ⟨_, _, h⟩
        · exact about?_of_closeAlternative h
        · cases h
      · cases h
        rfl
    · cases h
      rfl

theorem about?_of_finish {d : Draft} {e : Error} (h : d.finish = .error e) :
    e.about? = none := by
  unfold finish at h
  split at h
  · cases h
    rfl
  · cases h
    rfl
  · split at h <;> cases h
    rfl

end Draft

/-- A text that cannot be read is not refused because of a variable. -/
theorem about?_of_parse? {enabled : TokenSet} {text : String} {e : Error}
    (h : parse? enabled text = .error e) : e.about? = none := by
  rcases Except.bind_eq_error_iff.mp h with h | ⟨d, -, h⟩
  · obtain ⟨d, t, h⟩ := Except.exists_of_foldlM_eq_error h
    exact Draft.about?_of_step h
  · exact Draft.about?_of_finish h

/-! ## The first reference that has no expression -/

section Regex

variable (resolve : Resolver)

/-- The failure of the first of the variables that cannot be resolved. -/
def firstFailure (xs : List (VariableKind × String)) : Option Error :=
  xs.findSome? fun x => (resolve x.1 x.2).error?

theorem firstFailure_append (xs ys : List (VariableKind × String)) :
    firstFailure resolve (xs ++ ys) = (firstFailure resolve xs).or (firstFailure resolve ys) :=
  List.findSome?_append

mutual

theorem Node.error?_regex : ∀ (node : Node) (first : Nat),
    (node.regex resolve first).error? = firstFailure resolve node.references
  | .wildcard w, first => rfl
  | .words us, first => rfl
  | .space, first => rfl
  | .reference kind name, first => by
    rw [Node.regex, Node.references, firstFailure, List.findSome?_singleton]
  | .memo node, first => by
    rw [Node.regex, Node.references, ← node.error?_regex (first + 1)]
    exact Except.error?_bind_pure _ _
  | .choice bracket alternatives, first => by
    rw [Node.regex, Node.references, ← error?_alternativesRegex alternatives first]
    exact Except.error?_bind_pure _ _

theorem Sequence.error?_regex : ∀ (nodes : List Node) (first : Nat),
    (Sequence.regex resolve first nodes).error? =
      firstFailure resolve (Sequence.references nodes)
  | [], first => rfl
  | node :: nodes, first => by
    rw [Sequence.regex, Sequence.references, firstFailure_append, ← node.error?_regex first,
      ← Sequence.error?_regex nodes (first + node.memos)]
    exact Except.error?_bind fun _ => Except.error?_bind_pure _ _

theorem error?_alternativesRegex : ∀ (alternatives : List (List Node)) (first : Nat),
    (alternativesRegex resolve first alternatives).error? =
      firstFailure resolve (referencesInAlternatives alternatives)
  | [], first => rfl
  | [alternative], first => by
    rw [alternativesRegex, Sequence.error?_regex alternative first, referencesInAlternatives,
      referencesInAlternatives, List.append_nil]
  | alternative :: next :: rest, first => by
    rw [referencesInAlternatives, firstFailure_append, ← Sequence.error?_regex alternative first,
      ← error?_alternativesRegex (next :: rest) (first + Sequence.memos alternative)]
    exact Except.error?_bind fun _ => Except.error?_bind_pure _ _

end

theorem firstFailure_eq_some_iff {xs : List (VariableKind × String)} {e : Error} :
    firstFailure resolve xs = some e ↔ ∃ before x after, xs = before ++ x :: after ∧
      resolve x.1 x.2 = .error e ∧ ∀ y ∈ before, ∃ r, resolve y.1 y.2 = .ok r := by
  unfold firstFailure
  simp only [List.findSome?_eq_some_iff, Except.error?_eq_some_iff, Except.error?_eq_none_iff]

end Regex

/-! ## Variables without a usable value -/

namespace Bindings

variable {b : Bindings} {kind : VariableKind} {name : String} {e : Error}

theorem resolves_iff {x : VariableKind × String} :
    b.Resolves x ↔ ∃ r, b.resolve x.1 x.2 = .ok r := by
  refine ⟨Resolves.exists_resolve, ?_⟩
  rintro ⟨r, hr⟩
  obtain ⟨content, tree, -, hlookup, hread, -⟩ := exists_value_of_resolve hr
  exact ⟨content, tree, hlookup, hread⟩

/-- The value of a variable is not refused because of another variable. -/
theorem about?_of_valueRegex? {content : String} (h : valueRegex? content = .error e) :
    e.about? = none := by
  rcases Except.bind_eq_error_iff.mp h with h | ⟨tree, hread, h⟩
  · exact about?_of_parse? h
  · have hnone : (Sequence.regex noVariables 0 tree).error? = none := by
      rw [Sequence.error?_regex, references_of_simple hread]
      rfl
    obtain ⟨r, hr⟩ := Except.error?_eq_none_iff.mp hnone
    rw [hr] at h
    cases h

/-- The ways in which a variable fails to stand for something. -/
theorem eq_of_resolve_eq_error (h : b.resolve kind name = .error e) :
    e = .variableNotFound kind name ∨ e = .badVariableValue kind name ∨
      ∃ source, e = .inVariable kind name source ∧ source.about? = none := by
  unfold resolve at h
  split at h
  · cases h
    exact .inl rfl
  · rename_i content _
    cases hvalue : valueRegex? content with
    | ok r =>
      rw [hvalue] at h
      cases h
    | error source =>
      rw [hvalue] at h
      cases h
      exact .inr (.inr ⟨source, rfl, about?_of_valueRegex? hvalue⟩)
  · cases h
    exact .inr (.inl rfl)

theorem about?_of_resolve (h : b.resolve kind name = .error e) :
    e.about? = some (kind, name) := by
  rcases eq_of_resolve_eq_error h with rfl | rfl | ⟨source, rfl, -⟩ <;> rfl

/-- What fails for want of a variable of the user is a reference to such a variable. -/
theorem kind_of_resolve (h : b.resolve kind name = .error e)
    (hmissing : e.missingVariable? = some .user) : kind = .user := by
  rcases eq_of_resolve_eq_error h with rfl | rfl | ⟨source, rfl, hsource⟩
  · exact Option.some.inj hmissing
  · cases hmissing
  · cases (Error.missingVariable?_eq_none hsource).symm.trans hmissing

theorem resolve_user (huser : b.user = ∅) (name : String) :
    b.resolve .user name = .error (.variableNotFound .user name) := by
  unfold resolve lookup
  rw [huser]
  rfl

/-- There is a usable value for all of the variables ahead of one of the user. -/
def Awaits (b : Bindings) (xs : List (VariableKind × String)) : Prop :=
  ∃ before name after, xs = before ++ (.user, name) :: after ∧ ∀ y ∈ before, b.Resolves y

theorem awaits_of_forall {xs : List (VariableKind × String)} (hmem : ∃ x ∈ xs, x.1 = .user)
    (h : ∀ x ∈ xs, ¬ b.Resolves x → x.1 = .user) : b.Awaits xs := by
  obtain ⟨x, hx, hkind⟩ := hmem
  have hfind : (xs.find? fun x => x.1 = .user).isSome = true :=
    List.find?_isSome.mpr ⟨x, hx, decide_eq_true hkind⟩
  obtain ⟨⟨kind, name⟩, hfirst⟩ := Option.isSome_iff_exists.mp hfind
  obtain ⟨huser, before, after, rfl, hbefore⟩ := List.find?_eq_some_iff_append.mp hfirst
  obtain rfl : kind = .user := of_decide_eq_true huser
  refine ⟨before, name, after, rfl, fun y hy => ?_⟩
  by_contra hbad
  have hy' := h y (List.mem_append_left _ hy) hbad
  simpa [hy'] using hbefore y hy

end Bindings

namespace Sequence

variable {b : Bindings} {tree : Sequence}

theorem error?_regexWith : (tree.regexWith b).error? =
    firstFailure b.resolve (references tree) :=
  error?_regex b.resolve tree 0

variable [SizeLimit]

theorem compile_of_error {e : Error} (h : tree.regexWith b = .error e) :
    tree.compile b = .error e := by
  unfold compile
  rw [h]
  rfl

/-- A tree is refused because of its size or because of a variable to which it refers. -/
theorem eq_of_compile_eq_error {e : Error} (h : tree.compile b = .error e) :
    e = .oversized ∨ ∃ before x after, references tree = before ++ x :: after ∧
      b.resolve x.1 x.2 = .error e ∧ ∀ y ∈ before, b.Resolves y := by
  rcases Except.bind_eq_error_iff.mp h with h | ⟨r, -, h⟩
  · have hfirst := Except.error?_eq_some_iff.mpr h
    rw [error?_regexWith, firstFailure_eq_some_iff] at hfirst
    obtain ⟨before, x, after, hsplit, hx, hbefore⟩ := hfirst
    refine .inr ⟨before, x, after, hsplit, hx, fun y hy => ?_⟩
    exact Bindings.resolves_iff.mpr (hbefore y hy)
  · split at h <;> cases h
    exact .inl rfl

/-- A variable with a usable value is not what fails a tree. -/
theorem about?_ne_of_compile {e : Error} (h : tree.compile b = .error e)
    {x : VariableKind × String} (hx : b.Resolves x) : e.about? ≠ some x := by
  rcases eq_of_compile_eq_error h with rfl | ⟨before, y, after, -, hy, -⟩
  · exact fun habout => by cases habout
  · rw [Bindings.about?_of_resolve hy]
    intro habout
    obtain rfl : y = x := Option.some.inj habout
    obtain ⟨r, hr⟩ := hx.exists_resolve
    cases hr.symm.trans hy

/-- The first variable that stands for nothing fails the tree. -/
theorem compile_of_split {before after : List (VariableKind × String)}
    {x : VariableKind × String} {e : Error} (hsplit : references tree = before ++ x :: after)
    (hx : b.resolve x.1 x.2 = .error e) (hbefore : ∀ y ∈ before, b.Resolves y) :
    tree.compile b = .error e := by
  refine compile_of_error (Except.error?_eq_some_iff.mp ?_)
  rw [error?_regexWith, firstFailure_eq_some_iff]
  exact ⟨before, x, after, hsplit, hx, fun y hy => Bindings.resolves_iff.mp (hbefore y hy)⟩

end Sequence

/-! ## Patterns that are refused or deferred -/

/-- A variable with a usable value is not why a text is refused. -/
theorem about?_ne_of_ofText? [SizeLimit] {raw : String} {b : Bindings} {e : Error}
    (h : Pattern.ofText? raw b = .error e) {x : VariableKind × String} (hx : b.Resolves x) :
    e.about? ≠ some x := by
  cases hread : parse? .full raw with
  | error e' =>
    have he : e' = e := by
      unfold Pattern.ofText? Pattern.read? at h
      rw [hread] at h
      split at h
      · cases h
      · exact Except.error.inj h
    rw [← he, about?_of_parse? hread]
    exact fun habout => by cases habout
  | ok tree =>
    rw [Pattern.ofText?, read?_eq hread] at h
    split at h
    · cases h
    · rename_i hcompile
      split at h <;> cases h
      exact Sequence.about?_ne_of_compile hcompile hx

section Read

variable [SizeLimit] {raw : String} {tree : Sequence} (hread : parse? .full raw = .ok tree)
  {b : Bindings}

include hread

theorem awaits_of_isDeferred {p : Pattern} (h : Pattern.ofText? raw b = .ok p)
    (hdeferred : p.isDeferred = true) : b.Awaits (Sequence.references tree) := by
  rw [Pattern.ofText?, read?_eq hread] at h
  split at h
  · cases h
    cases hdeferred
  · rename_i e hcompile
    split at h
    · rename_i hmissing
      rcases Sequence.eq_of_compile_eq_error hcompile with
        rfl | ⟨before, x, after, hsplit, hx, hbefore⟩
      · cases hmissing
      · obtain ⟨kind, name⟩ := x
        obtain rfl := Bindings.kind_of_resolve hx hmissing
        exact ⟨before, name, after, hsplit, hbefore⟩
    · cases h

/-- A pattern that waits for no variable of the user is refused if it refers to a variable without a
usable value. -/
theorem exists_error_of_not_awaits (h : ¬ b.Awaits (Sequence.references tree))
    {x : VariableKind × String} (hx : x ∈ Sequence.references tree) (hbad : ¬ b.Resolves x) :
    ∃ e y, Pattern.ofText? raw b = .error e ∧ e.about? = some y ∧
      y ∈ Sequence.references tree ∧ y.1 ≠ .user ∧ ¬ b.Resolves y := by
  cases hfirst : firstFailure b.resolve (Sequence.references tree) with
  | none =>
    have hfine := List.findSome?_eq_none_iff.mp hfirst x hx
    exact absurd (Bindings.resolves_iff.mpr (Except.error?_eq_none_iff.mp hfine)) hbad
  | some e =>
    obtain ⟨before, y, after, hsplit, hy, hbefore⟩ := (firstFailure_eq_some_iff _).mp hfirst
    have hresolves : ∀ z ∈ before, b.Resolves z := fun z hz =>
      Bindings.resolves_iff.mpr (hbefore z hz)
    obtain ⟨kind, name⟩ := y
    have hkind : kind ≠ .user := by
      rintro rfl
      exact h ⟨before, name, after, hsplit, hresolves⟩
    refine ⟨e, (kind, name), ?_, Bindings.about?_of_resolve hy, ?_, hkind, fun hgood => ?_⟩
    · rw [Pattern.ofText?, read?_eq hread, Sequence.compile_of_split hsplit hy hresolves]
      exact if_neg fun hmissing => hkind (Bindings.kind_of_resolve hy hmissing)
    · rw [hsplit]
      exact List.mem_append_right before List.mem_cons_self
    · obtain ⟨r, hr⟩ := Bindings.resolves_iff.mp hgood
      cases hr.symm.trans hy

variable (huser : b.user = ∅)

include huser

theorem ofText?_of_awaits (h : b.Awaits (Sequence.references tree)) :
    Pattern.ofText? raw b = .ok (.deferred raw tree b.alternates) := by
  obtain ⟨before, name, after, hsplit, hbefore⟩ := h
  rw [Pattern.ofText?, read?_eq hread,
    Sequence.compile_of_split hsplit (Bindings.resolve_user huser name) hbefore]
  exact if_pos rfl

end Read

/-- Where nothing is known of the user, the first reference without a usable value decides what
becomes of the pattern. If it is to a variable of the user, the pattern is deferred, and no other
pattern is. Otherwise the pattern is refused because of a variable of the bot or an alternate. So
one of these that has no usable value is noticed unless a reference to a variable of the user stands
before all that have none. -/
theorem first_unresolved_decides [SizeLimit] {raw : String} {tree : Sequence}
    (hread : parse? .full raw = .ok tree) {b : Bindings} (huser : b.user = ∅) :
    (∀ x ∈ Sequence.references tree, x.1 ≠ .user → ¬ b.Resolves x →
      ¬ b.Awaits (Sequence.references tree) →
        ∃ e y, Pattern.ofText? raw b = .error e ∧ e.about? = some y ∧
          y ∈ Sequence.references tree ∧ y.1 ≠ .user ∧ ¬ b.Resolves y) ∧
    ((∃ p, Pattern.ofText? raw b = .ok p ∧ p.isDeferred = true) ↔
      b.Awaits (Sequence.references tree)) ∧
    ((∃ x ∈ Sequence.references tree, x.1 = .user) →
      (∀ x ∈ Sequence.references tree, ¬ b.Resolves x → x.1 = .user) →
        ∃ p, Pattern.ofText? raw b = .ok p ∧ p.isDeferred = true) := by
  have hdeferred : b.Awaits (Sequence.references tree) →
      ∃ p, Pattern.ofText? raw b = .ok p ∧ p.isDeferred = true :=
    fun h => ⟨_, ofText?_of_awaits hread huser h, rfl⟩
  refine ⟨fun x hx _ hbad h => exists_error_of_not_awaits hread h hx hbad, ⟨?_, hdeferred⟩,
    fun hmem h => hdeferred (Bindings.awaits_of_forall hmem h)⟩
  rintro ⟨p, hp, hp'⟩
  exact awaits_of_isDeferred hread hp hp'

section Example

attribute [local instance] SizeLimit.byWeight

/-- A mood that the bot does not have is noticed ahead of a name that the user may have. -/
theorem first_unresolved_decides_mood :
    parse? .full "%b:mood %u:name" =
      .ok [.reference .bot "mood", .space, .reference .user "name"] ∧
    ∃ e y, Pattern.ofText? "%b:mood %u:name" {} = .error e ∧ e.about? = some y ∧
      y ∈ [(.bot, "mood"), (.user, "name")] ∧ y.1 ≠ .user ∧ ¬ Bindings.Resolves {} y := by
  have hread : parse? .full "%b:mood %u:name" =
      .ok [.reference .bot "mood", .space, .reference .user "name"] := rfl
  have hbad : ¬ Bindings.Resolves {} (.bot, "mood") := by
    rintro ⟨content, tree, hlookup, -⟩
    cases hlookup
  obtain ⟨hrefused, -, -⟩ := first_unresolved_decides hread (b := {}) rfl
  refine ⟨hread, hrefused (.bot, "mood") List.mem_cons_self (by decide) hbad ?_⟩
  rintro ⟨before, name, after, hsplit, hbefore⟩
  cases before with
  | nil => cases hsplit
  | cons y before =>
    obtain ⟨rfl, -⟩ := List.cons.inj hsplit
    exact hbad (hbefore _ List.mem_cons_self)

/-- Behind a reference to the name of the user, the missing mood is not noticed. -/
theorem not_first_unresolved_decides_mood :
    ∃ tree p, parse? .full "%u:name %b:mood" = .ok tree ∧
      (.bot, "mood") ∈ Sequence.references tree ∧ ¬ Bindings.Resolves {} (.bot, "mood") ∧
        Pattern.ofText? "%u:name %b:mood" {} = .ok p ∧ p.isDeferred = true := by
  refine ⟨_, _, rfl, List.mem_cons_of_mem _ List.mem_cons_self, ?_, rfl, rfl⟩
  rintro ⟨content, tree, hlookup, -⟩
  cases hlookup

end Example

end Repartee.Pattern
