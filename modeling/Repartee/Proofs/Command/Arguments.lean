import Repartee.Command.Arguments
import Repartee.Proofs.Except
import Repartee.Proofs.Text.Words

/-!
# The two forms of an option with a value

Whether the value of an option stands behind an equals sign or in an argument of its own, it is the
same value that sets the option, unless the value itself begins with the name of the option and an
equals sign: then it loses them in the first form, as often as they stand there, and the two forms
of such an option alone never agree (`Command.option_spellings_agree`).
-/

namespace Repartee.Command

open Text

/-! ## The value behind the equals sign -/

section DropMarks

variable {mark cs : List Char}

theorem dropMarks_eq_self (h : ¬mark <+: cs) (fuel : Nat) : dropMarks mark fuel cs = cs := by
  cases fuel with
  | zero => rfl
  | succ fuel => exact if_neg (mt List.isPrefixOf_iff_prefix.mp h)

theorem dropMarks_append (fuel : Nat) :
    dropMarks mark (fuel + 1) (mark ++ cs) = dropMarks mark fuel cs := by
  have hprefix : mark.isPrefixOf (mark ++ cs) = true :=
    List.isPrefixOf_iff_prefix.mpr (List.prefix_append mark cs)
  rw [dropMarks, if_pos hprefix, List.drop_left]

/-- Fuel for as many marks as there are characters is enough. -/
theorem dropMarks_eq_of_length_le (hmark : mark ≠ []) {fuel fuel' : Nat} (h : cs.length ≤ fuel)
    (h' : cs.length ≤ fuel') : dropMarks mark fuel cs = dropMarks mark fuel' cs := by
  induction fuel generalizing fuel' cs with
  | zero =>
    obtain rfl := List.length_eq_zero_iff.mp (Nat.le_zero.mp h)
    exact (dropMarks_eq_self (mt List.prefix_nil.mp hmark) fuel').symm
  | succ fuel ih =>
    by_cases hprefix : mark <+: cs
    · obtain ⟨rest, rfl⟩ := hprefix
      have hpos : 0 < mark.length := List.length_pos_iff.mpr hmark
      rw [List.length_append] at h h'
      obtain ⟨fuel', rfl⟩ : ∃ n, fuel' = n + 1 := ⟨fuel' - 1, by omega⟩
      rw [dropMarks_append, dropMarks_append]
      exact ih (by omega) (by omega)
    · rw [dropMarks_eq_self hprefix, dropMarks_eq_self hprefix]

theorem length_dropMarks_le (fuel : Nat) : (dropMarks mark fuel cs).length ≤ cs.length := by
  induction fuel generalizing cs with
  | zero => exact Nat.le_refl _
  | succ fuel ih =>
    unfold dropMarks
    split
    · exact Nat.le_trans ih (List.length_drop ▸ Nat.sub_le _ _)
    · exact Nat.le_refl _

end DropMarks

namespace ValueOption

/-- The name of the option with the equals sign. -/
def mark (o : ValueOption) : List Char :=
  o.name.toList ++ ['=']

/-- The option and its value in one argument. -/
def inline (o : ValueOption) (value : String) : String :=
  o.name ++ "=" ++ value

/-- The value that is read from behind the equals sign. -/
def unmarked (o : ValueOption) (value : String) : String :=
  String.ofList (dropMarks o.mark value.toList.length value.toList)

variable {o : ValueOption} {value : String}

theorem toList_inline : (o.inline value).toList = o.mark ++ value.toList := by
  simp [inline, mark]

theorem mark_ne_nil : o.mark ≠ [] :=
  List.append_ne_nil_of_right_ne_nil _ (List.cons_ne_nil _ _)

theorem mark_prefix_iff : o.mark <+: value.toList ↔ ∃ v, value = o.inline v := by
  constructor
  · rintro ⟨rest, hrest⟩
    refine ⟨String.ofList rest, String.toList_injective ?_⟩
    rw [toList_inline, String.toList_ofList, hrest]
  · rintro ⟨v, rfl⟩
    exact ⟨v.toList, toList_inline.symm⟩

theorem head?_inline : (o.inline value).toList.head? = some '-' := by
  rw [toList_inline]
  cases o <;> rfl

theorem unmarked_of_not_inline (h : ¬∃ v, value = o.inline v) : o.unmarked value = value := by
  rw [unmarked, dropMarks_eq_self (mt mark_prefix_iff.mp h), String.ofList_toList]

theorem unmarked_inline : o.unmarked (o.inline value) = o.unmarked value := by
  have hlength : (o.mark ++ value.toList).length =
      o.name.toList.length + value.toList.length + 1 := by
    rw [mark, List.length_append, List.length_append, List.length_singleton]
    omega
  rw [unmarked, toList_inline, hlength, dropMarks_append, unmarked]
  exact congrArg _ (dropMarks_eq_of_length_le mark_ne_nil (Nat.le_add_left _ _) (Nat.le_refl _))

theorem unmarked_ne_inline : o.unmarked (o.inline value) ≠ o.inline value := by
  intro h
  have hlonger : value.toList.length < (o.inline value).toList.length := by
    rw [toList_inline, List.length_append]
    have := List.length_pos_iff.mpr (mark_ne_nil (o := o))
    omega
  rw [← h, unmarked_inline, unmarked, String.toList_ofList] at hlonger
  exact absurd (length_dropMarks_le _) (Nat.not_le.mpr hlonger)

/-- No mark of an option begins the mark of another, so it does not matter in which order they are
looked for. -/
theorem inlineValue?_inline : inlineValue? (o.inline value) = some (o, o.unmarked value) := by
  have hread : inlineValue? (o.inline value) = some (o, o.unmarked (o.inline value)) := by
    unfold inlineValue? unmarked
    rw [toList_inline]
    cases o <;> simp [all, mark, name]
  rw [hread, unmarked_inline]

end ValueOption

namespace Argument

theorem ofText_name (o : ValueOption) : ofText o.name = .option o := by
  cases o <;> rfl

/-- An argument with an equals sign is neither a flag nor the name of an option. -/
theorem ofText_of_mem {argument : String} (h : '=' ∈ argument.toList) :
    ofText argument = ofOther argument := by
  have hother : ∀ flag : String, '=' ∉ flag.toList → argument ≠ flag := by
    rintro flag hflag rfl
    exact hflag h
  have hname : ValueOption.ofName? argument = none := by
    unfold ValueOption.ofName?
    split <;> first | rfl | exact absurd rfl (hother _ (by decide))
  unfold ofText
  split <;> first | rw [hname] | exact absurd rfl (hother _ (by decide))

theorem ofText_inline (o : ValueOption) (value : String) :
    ofText (o.inline value) = .valued o (o.unmarked value) := by
  have hmem : '=' ∈ (o.inline value).toList := by
    simp [ValueOption.inline]
  rw [ofText_of_mem hmem, ofOther, ValueOption.inlineValue?_inline]

/-- Whether it is read without the arguments behind it. -/
def isAlone : Argument → Bool
  | .option _ | .rest | .word => false
  | _ => true

end Argument

/-! ## What options do -/

/-- The arguments are options, from the first to the last, each of them with its value. An unknown
one ends the reading where it stands, like one that asks for help. -/
inductive AreOptions : List String → Prop
  | nil : AreOptions []
  | alone {argument : String} {others : List String}
      (alone : (Argument.ofText argument).isAlone = true) (options : AreOptions others) :
      AreOptions (argument :: others)
  | valued {argument value : String} {o : ValueOption} {others : List String}
      (named : Argument.ofText argument = .option o) (options : AreOptions others) :
      AreOptions (argument :: value :: others)

/-- What arguments do to the settings, whatever stands behind them. -/
inductive Effect (s : Settings) (arguments : List String) : Prop
  | ends (result : Except UsageError Request)
      (reads : ∀ others, readFrom s (arguments ++ others) = result)
  | leadsTo (t : Settings)
      (reads : ∀ others, readFrom s (arguments ++ others) = readFrom t others)

section ReadFrom

variable {s : Settings} {argument value : String} {o : ValueOption} {others : List String}

theorem readFrom_option (h : Argument.ofText argument = .option o) :
    readFrom s (argument :: value :: others) = setOption s o value >>= (readFrom · others) := by
  rw [readFrom, h]

theorem readFrom_valued (h : Argument.ofText argument = .valued o value) :
    readFrom s (argument :: others) = setOption s o value >>= (readFrom · others) := by
  rw [readFrom, h]

end ReadFrom

namespace Effect

variable {s : Settings} {arguments more : List String}

theorem of_bind {result : Except UsageError Settings}
    (h : ∀ others, readFrom s (arguments ++ others) = result >>= (readFrom · others)) :
    Effect s arguments := by
  cases result with
  | error e => exact .ends _ h
  | ok t => exact .leadsTo t h

theorem append (h : Effect s arguments) (hmore : ∀ t, Effect t more) :
    Effect s (arguments ++ more) := by
  cases h with
  | ends result reads =>
    exact .ends result fun others => by rw [List.append_assoc, reads]
  | leadsTo t reads =>
    cases hmore t with
    | ends result readsMore =>
      exact .ends result fun others => by rw [List.append_assoc, reads, readsMore]
    | leadsTo u readsMore =>
      exact .leadsTo u fun others => by rw [List.append_assoc, reads, readsMore]

theorem of_isAlone {argument : String} (h : (Argument.ofText argument).isAlone = true) :
    Effect s [argument] := by
  cases harg : Argument.ofText argument with
  | help => exact .ends (.ok .help) fun others => by rw [List.singleton_append, readFrom, harg]
  | version =>
    exact .ends (.ok .version) fun others => by rw [List.singleton_append, readFrom, harg]
  | color on =>
    exact .leadsTo { s with color := on } fun others => by
      rw [List.singleton_append, readFrom, harg]
  | trace =>
    exact .leadsTo { s with trace := true } fun others => by
      rw [List.singleton_append, readFrom, harg]
  | debug =>
    exact .leadsTo { s with debug := true } fun others => by
      rw [List.singleton_append, readFrom, harg]
  | valued o value => exact .of_bind fun others => readFrom_valued harg
  | unknown =>
    exact .ends (.error (.unknownOption argument)) fun others => by
      rw [List.singleton_append, readFrom, harg]
  | rest | option | word =>
    rw [harg] at h
    cases h

theorem of_areOptions (h : AreOptions arguments) : Effect s arguments := by
  induction h generalizing s with
  | nil => exact .leadsTo s fun others => rfl
  | alone alone _ ih => exact (of_isAlone alone).append fun t => ih
  | @valued argument value o others named _ ih =>
    have hfirst : Effect s [argument, value] := .of_bind fun others => readFrom_option named
    exact hfirst.append fun t => ih

end Effect

/-! ## Whether the two forms agree -/

theorem finish_eq_ok_iff {s : Settings} {request : Request} :
    finish s = .ok request ↔ ¬(trim s.user).isEmpty = true ∧ request = .converse s := by
  by_cases hblank : (trim s.user).isEmpty = true <;> simp [finish, hblank, eq_comm]

theorem finish_eq_error_iff {s : Settings} {err : UsageError} :
    finish s = .error err ↔ (trim s.user).isEmpty = true ∧ err = .emptyUser := by
  by_cases hblank : (trim s.user).isEmpty = true <;> simp [finish, hblank, eq_comm]

theorem setOption_eq_error_iff {s : Settings} {o : ValueOption} {value : String}
    {err : UsageError} :
    setOption s o value = .error err ↔
      o ≠ .user ∧ number? value = none ∧ err = .badNumber o.name value := by
  cases o <;> cases hnumber : number? value <;> simp [setOption.eq_def, hnumber, eq_comm]

section Hyphen

variable {s : Settings} {o : ValueOption} {u value : String}

theorem number?_of_hyphen (h : value.toList.head? = some '-') : number? value = none := by
  obtain ⟨cs, hcs⟩ := List.head?_eq_some_iff.mp h
  have hread : ofDecimal? ('-' :: cs) = none := if_neg fun hdigits => absurd hdigits.2 (by simp)
  unfold number?
  rw [hcs]
  exact congrArg (Option.filter _) hread

theorem isEmpty_trim_of_hyphen (h : value.toList.head? = some '-') :
    ¬(trim value).isEmpty = true := by
  rw [isEmpty_trim_iff]
  intro hblank
  exact absurd (hblank '-' (List.mem_of_head? h)) (by decide)

/-- What becomes of an option that is the last argument tells its value, if the value begins with a
hyphen: it is a name for the user, but no number. -/
theorem finish_setOption_of_hyphen (h : value.toList.head? = some '-') :
    (setOption s o value >>= finish) =
      if o = .user then .ok (.converse { s with user := value })
      else .error (.badNumber o.name value) := by
  by_cases huser : o = .user
  · subst huser
    have hfinish : finish { s with user := value } = .ok (.converse { s with user := value }) :=
      finish_eq_ok_iff.mpr ⟨isEmpty_trim_of_hyphen h, rfl⟩
    exact hfinish
  · have hset : setOption s o value = .error (.badNumber o.name value) :=
      setOption_eq_error_iff.mpr ⟨huser, number?_of_hyphen h, rfl⟩
    rw [hset, if_neg huser]
    rfl

/-- Nothing but the same value does what a value does that begins with a hyphen. -/
theorem eq_of_finish_setOption (hvalue : value.toList.head? = some '-')
    (h : (setOption s o u >>= finish) = (setOption s o value >>= finish)) : u = value := by
  rw [finish_setOption_of_hyphen hvalue] at h
  by_cases huser : o = .user
  · subst huser
    have hfinish : finish { s with user := u } = .ok (.converse { s with user := value }) := h
    exact congrArg Settings.user (Request.converse.inj (finish_eq_ok_iff.mp hfinish).2).symm
  · rw [if_neg huser, Except.bind_eq_error_iff] at h
    rcases h with hset | ⟨t, -, hfinish⟩
    · exact (UsageError.badNumber.inj (setOption_eq_error_iff.mp hset).2.2).2.symm
    · cases (finish_eq_error_iff.mp hfinish).2

end Hyphen

/-- Behind options, arguments that are read alike from all settings are read alike. -/
theorem ofArguments?_congr {front xs ys : List String} (hfront : AreOptions front)
    (h : ∀ s, readFrom s xs = readFrom s ys) (terminal : Bool) :
    Request.ofArguments? terminal (front ++ xs) = Request.ofArguments? terminal (front ++ ys) := by
  unfold Request.ofArguments?
  cases Effect.of_areOptions (s := { color := terminal }) hfront with
  | ends result reads => rw [reads, reads]
  | leadsTo t reads => rw [reads, reads, h]

/-- For all values but those that are themselves the option with a value in one argument, the two
forms of an option mean the same, whatever options are in front of them and whatever follows; those
values are read in the first form without the mark that they begin with. -/
theorem option_spellings_agree (o : ValueOption) (value : String) :
    ((∀ {front}, AreOptions front → ∀ terminal others,
        Request.ofArguments? terminal (front ++ o.inline value :: others) =
          Request.ofArguments? terminal (front ++ o.name :: value :: others)) ↔
      ¬∃ v, value = o.inline v) ∧
    ∀ {front}, AreOptions front → ∀ terminal others,
      Request.ofArguments? terminal (front ++ o.inline (o.inline value) :: others) =
        Request.ofArguments? terminal (front ++ o.inline value :: others) := by
  have hinline : ∀ v s others,
      readFrom s (o.inline v :: others) = setOption s o (o.unmarked v) >>= (readFrom · others) :=
    fun v s others => readFrom_valued (Argument.ofText_inline o v)
  have hseparate : ∀ s others,
      readFrom s (o.name :: value :: others) = setOption s o value >>= (readFrom · others) :=
    fun s others => readFrom_option (Argument.ofText_name o)
  refine ⟨⟨?_, fun h front hfront terminal others => ?_⟩, fun hfront terminal others => ?_⟩
  · rintro hagree ⟨v, rfl⟩
    have halone := hagree .nil false []
    rw [List.nil_append, List.nil_append, Request.ofArguments?, Request.ofArguments?, hinline,
      hseparate] at halone
    exact ValueOption.unmarked_ne_inline (eq_of_finish_setOption ValueOption.head?_inline halone)
  · refine ofArguments?_congr hfront (fun s => ?_) terminal
    rw [hinline, hseparate, ValueOption.unmarked_of_not_inline h]
  · refine ofArguments?_congr hfront (fun s => ?_) terminal
    rw [hinline, hinline, ValueOption.unmarked_inline]

/-- The value looks like another option, and so does the one in front of it. -/
theorem option_spellings_agree_depth :
    let front := ["--no-color", "--user", "--depth", "--history=3"]
    AreOptions front ∧ (¬∃ v, "--seed=7" = ValueOption.depth.inline v) ∧
      Request.ofArguments? true (front ++ ["--depth=--seed=7", "hi"]) =
        Request.ofArguments? true (front ++ ["--depth", "--seed=7", "hi"]) ∧
      Request.ofArguments? true (front ++ ["--depth", "--seed=7", "hi"]) =
        .error (.badNumber "--depth" "--seed=7") := by
  intro front
  have hfront : AreOptions front := .alone rfl (.valued rfl (.alone rfl .nil))
  have hvalue : ¬∃ v, "--seed=7" = ValueOption.depth.inline v :=
    mt ValueOption.mark_prefix_iff.mpr (by decide)
  exact ⟨hfront, hvalue, (option_spellings_agree .depth "--seed=7").1.mpr hvalue hfront true ["hi"],
    rfl⟩

/-- A value that is the option with a number as its value in one argument is no number, but in the
first form it is read as one. -/
theorem not_option_spellings_agree_depth :
    ¬∀ o value front, AreOptions front → ∀ terminal others,
      Request.ofArguments? terminal (front ++ ValueOption.inline o value :: others) =
        Request.ofArguments? terminal (front ++ o.name :: value :: others) := by
  intro h
  have hinline : Request.ofArguments? false ["--depth=--depth=5", "hello robot"] =
      .ok (.converse {
        message := some "hello robot"
        options := { depthLimit := 5 }
        color := false }) := rfl
  have hseparate : Request.ofArguments? false ["--depth", "--depth=5", "hello robot"] =
      .error (.badNumber "--depth" "--depth=5") := rfl
  have hagree := h .depth "--depth=5" [] .nil false ["hello robot"]
  cases hinline.symm.trans (hagree.trans hseparate)

end Repartee.Command
