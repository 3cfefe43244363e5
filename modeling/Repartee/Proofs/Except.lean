/-!
# Results of computations that may fail

How a computation of several steps comes to its result: every step came to one; and how it fails:
one of them did, and none behind it was taken. Where no step depends on the results of the others
but for the value that is put together, the failures of all steps can be listed, and the computation
fails with the first of them (`Except.ofFailures`, `foldlM_eq_ofFailures`).
-/

namespace Except

universe u v

variable {ε : Type u} {α β : Type v}

theorem bind_eq_ok_iff {x : Except ε α} {f : α → Except ε β} {b : β} :
    x >>= f = .ok b ↔ ∃ a, x = .ok a ∧ f a = .ok b := by
  constructor
  · intro h
    cases x with
    | error e => cases h
    | ok a => exact ⟨a, rfl, h⟩
  · rintro ⟨a, rfl, h⟩
    exact h

/-- A last step that cannot fail. -/
theorem bind_pure_eq_ok_iff {x : Except ε α} {f : α → β} {b : β} :
    (x >>= fun a => pure (f a)) = .ok b ↔ ∃ a, x = .ok a ∧ b = f a := by
  rw [bind_eq_ok_iff]
  exact exists_congr fun a => and_congr_right fun _ => ⟨fun h => (ok.inj h).symm, fun h => h ▸ rfl⟩

theorem bind_eq_error_iff {x : Except ε α} {f : α → Except ε β} {e : ε} :
    x >>= f = .error e ↔ x = .error e ∨ ∃ a, x = .ok a ∧ f a = .error e := by
  constructor
  · intro h
    cases x with
    | error e' => exact .inl (congrArg error (error.inj h))
    | ok a => exact .inr ⟨a, rfl, h⟩
  · rintro (rfl | ⟨a, rfl, h⟩)
    · rfl
    · exact h

theorem mapError_eq_ok_iff {ε' : Type u} {x : Except ε α} {f : ε → ε'} {a : α} :
    x.mapError f = .ok a ↔ x = .ok a := by
  cases x with
  | error e =>
    constructor <;> intro h <;> cases h
  | ok b =>
    constructor <;> intro h <;> cases h <;> rfl

/-- Each of the results of computations that are made one after the other is the result of one of
them. -/
theorem exists_of_mem_mapM {f : α → Except ε β} {as : List α} {bs : List β}
    (h : as.mapM f = .ok bs) {b : β} (hb : b ∈ bs) : ∃ a ∈ as, f a = .ok b := by
  induction as generalizing bs with
  | nil =>
    rw [List.mapM_nil] at h
    cases h
    exact (List.not_mem_nil hb).elim
  | cons a as ih =>
    rw [List.mapM_cons] at h
    obtain ⟨b', hfirst, h⟩ := bind_eq_ok_iff.mp h
    obtain ⟨bs', hrest, h⟩ := bind_eq_ok_iff.mp h
    cases h
    rcases List.mem_cons.mp hb with rfl | hb
    · exact ⟨a, List.mem_cons_self, hfirst⟩
    · obtain ⟨a', ha', hresult⟩ := ih hrest hb
      exact ⟨a', List.mem_cons_of_mem a ha', hresult⟩

/-- Where a fold fails, one of its steps does. -/
theorem exists_of_foldlM_eq_error {f : β → α → Except ε β} {as : List α} {b : β} {e : ε}
    (h : as.foldlM f b = .error e) : ∃ b a, f b a = .error e := by
  induction as generalizing b with
  | nil => cases h
  | cons a as ih =>
    rw [List.foldlM_cons] at h
    rcases bind_eq_error_iff.mp h with h | ⟨b', -, h⟩
    · exact ⟨b, a, h⟩
    · exact ih h

/-! ## The first of the failures -/

def error? : Except ε α → Option ε
  | error e => some e
  | ok _ => none

theorem error?_eq_none_iff {x : Except ε α} : x.error? = none ↔ ∃ a, x = .ok a := by
  cases x with
  | error e =>
    constructor
    · intro h
      cases h
    · rintro ⟨a, h⟩
      cases h
  | ok a => exact ⟨fun _ => ⟨a, rfl⟩, fun _ => rfl⟩

theorem error?_eq_some_iff {x : Except ε α} {e : ε} : x.error? = some e ↔ x = .error e := by
  cases x with
  | error e' =>
    exact ⟨fun h => congrArg error (Option.some.inj h), fun h => congrArg some (error.inj h)⟩
  | ok a =>
    constructor <;> intro h <;> cases h

/-- Of two steps the first one that fails is the failure, if that of the second does not depend on
the result of the first. -/
theorem error?_bind {second : Option ε} {x : Except ε α} {f : α → Except ε β}
    (h : ∀ a, (f a).error? = second) : (x >>= f).error? = x.error?.or second := by
  cases x with
  | error e => rfl
  | ok a => exact h a

theorem error?_bind_pure (x : Except ε α) (g : α → β) :
    (x >>= fun a => pure (g a)).error? = x.error? := by
  cases x <;> rfl

/-- The first of the failures, or the value if there are none. -/
def ofFailures : List ε → α → Except ε α
  | [], a => ok a
  | e :: _, _ => error e

theorem ofFailures_eq_ok_iff {failures : List ε} {a b : α} :
    ofFailures failures a = ok b ↔ failures = [] ∧ a = b := by
  cases failures <;> simp [ofFailures]

theorem ofFailures_bind {failures failures' : List ε} {a : α} {b : β} {f : α → Except ε β}
    (h : f a = ofFailures failures' b) :
    ofFailures failures a >>= f = ofFailures (failures ++ failures') b := by
  cases failures with
  | nil => exact h
  | cons e failures => rfl

theorem foldlM_eq_ofFailures {f : β → α → Except ε β} {failures : α → List ε} {g : β → α → β}
    (h : ∀ b a, f b a = ofFailures (failures a) (g b a)) (as : List α) (b : β) :
    as.foldlM f b = ofFailures (as.flatMap failures) (as.foldl g b) := by
  induction as generalizing b with
  | nil => rfl
  | cons a as ih =>
    rw [List.foldlM_cons, h, List.flatMap_cons]
    exact ofFailures_bind (ih (g b a))

theorem mapM_eq_ofFailures (f : α → Except ε β) (as : List α) :
    as.mapM f = ofFailures (as.filterMap fun a => (f a).error?)
      (as.filterMap fun a => (f a).toOption) := by
  induction as with
  | nil => rfl
  | cons a as ih =>
    rw [List.mapM_cons, ih, List.filterMap_cons, List.filterMap_cons]
    cases f a with
    | error e => rfl
    | ok b =>
      show ofFailures _ _ >>= _ = ofFailures (as.filterMap fun a => (f a).error?) _
      cases as.filterMap fun a => (f a).error? <;> rfl

end Except
