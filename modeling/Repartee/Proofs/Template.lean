import Repartee.Proofs.Except
import Repartee.Proofs.Handling
import Repartee.Proofs.Table
import Repartee.Template

/-!
# Templates that can be filled in

The templates that are accepted are put together from accepted ones (`Template.fillFrom_append`). A
text without braces stands for itself, as does any text whose braces are escaped
(`Template.fill_escapeBraces`). Whether a template is accepted depends on the match by the keys for
which there are entries (`Template.fills_iff`).
-/

namespace Repartee

namespace Template

/-! ## Filling in, character by character -/

section FillFrom

variable {m : Match} {key cs ds out : List Char} {c : Char}

theorem fillFrom_plain (hopen : c ≠ '\x7b') (hclose : c ≠ '\x7d') :
    fillFrom m none (c :: cs) = (fillFrom m none cs).map (c :: ·) := by
  rw [fillFrom]
  · rfl
  all_goals simp_all

theorem fillFrom_open (h : cs.head? ≠ some '\x7b') :
    fillFrom m none ('\x7b' :: cs) = fillFrom m (some []) cs := by
  rw [fillFrom]
  rintro ds rfl
  exact h rfl

theorem fillFrom_key (hopen : c ≠ '\x7b') (hclose : c ≠ '\x7d') :
    fillFrom m (some key) (c :: cs) = fillFrom m (some (c :: key)) cs := by
  rw [fillFrom]
  · exact hopen
  · exact hclose

theorem fillFrom_keys (h : ∀ c ∈ ds, c ≠ '\x7b' ∧ c ≠ '\x7d') :
    fillFrom m (some key) (ds ++ cs) = fillFrom m (some (ds.reverse ++ key)) cs := by
  induction ds generalizing key with
  | nil => rfl
  | cons d ds ih =>
    obtain ⟨⟨hopen, hclose⟩, hrest⟩ := List.forall_mem_cons.mp h
    rw [List.cons_append, fillFrom_key hopen hclose, ih hrest, List.reverse_cons, List.append_assoc]
    rfl

theorem fillFrom_close {entry : String} (h : m.get? (String.ofList key.reverse) = some entry) :
    fillFrom m (some key) ('\x7d' :: cs) = (fillFrom m none cs).map (entry.toList ++ ·) := by
  rw [fillFrom, h]
  rfl

/-- Behind an accepted template, nothing is left of it for what follows. -/
theorem fillFrom_append {state : Option (List Char)} (h : fillFrom m state cs = .ok out)
    (ds : List Char) : fillFrom m state (cs ++ ds) = (fillFrom m none ds).map (out ++ ·) := by
  have hcons : ∀ {c : Char} {out : List Char}, (fillFrom m none ds).map (c :: out ++ ·) =
      ((fillFrom m none ds).map (out ++ ·)).map (c :: ·) := fun {c out} => by
    cases fillFrom m none ds <;> rfl
  -- where the text ends within a key, it is not accepted: so `ds` is always filled in afresh
  fun_induction fillFrom m state cs generalizing out with
  | case1 =>
    cases h
    show fillFrom m none ds = _
    cases fillFrom m none ds <;> rfl
  | case2 cs ih =>
    obtain ⟨out, hrest, h⟩ := Except.bind_eq_ok_iff.mp h
    cases h
    rw [hcons, ← ih hrest]
    rfl
  | case3 cs hopen ih =>
    rw [← ih h]
    cases cs with
    | nil => cases h
    | cons c cs =>
      refine fillFrom_open fun hhead => hopen cs ?_
      rw [Option.some.inj hhead]
  | case4 cs ih =>
    obtain ⟨out, hrest, h⟩ := Except.bind_eq_ok_iff.mp h
    cases h
    rw [hcons, ← ih hrest]
    rfl
  | case5 => cases h
  | case6 c cs _ hopen _ hclose ih =>
    obtain ⟨out, hrest, h⟩ := Except.bind_eq_ok_iff.mp h
    cases h
    rw [hcons, ← ih hrest]
    exact fillFrom_plain hopen hclose
  | case7 => cases h
  | case8 => cases h
  | case9 => cases h
  | case10 key cs entry hentry ih =>
    obtain ⟨out, hrest, h⟩ := Except.bind_eq_ok_iff.mp h
    cases h
    rw [List.cons_append, fillFrom_close hentry, ih hrest]
    cases fillFrom m none ds <;> simp [Except.map]
  | case11 key c cs hopen hclose ih =>
    rw [← ih h]
    exact fillFrom_key hopen hclose

/-- A match with more entries accepts the same templates. -/
theorem fillFrom_mono {m' : Match} {state : Option (List Char)}
    (hmore : ∀ key, m.contains key = true → m'.contains key = true)
    (h : fillFrom m state cs = .ok out) : ∃ out', fillFrom m' state cs = .ok out' := by
  fun_induction fillFrom m state cs generalizing out with
  | case1 => exact ⟨[], rfl⟩
  | case2 cs ih =>
    obtain ⟨out, hrest, -⟩ := Except.bind_eq_ok_iff.mp h
    obtain ⟨out', hrest'⟩ := ih hrest
    exact ⟨'\x7b' :: out', Except.bind_eq_ok_iff.mpr ⟨out', hrest', rfl⟩⟩
  | case3 cs hopen ih =>
    obtain ⟨out', hrest'⟩ := ih h
    refine ⟨out', (fillFrom_open fun hhead => ?_).trans hrest'⟩
    obtain ⟨ds, rfl⟩ := List.head?_eq_some_iff.mp hhead
    exact hopen ds rfl
  | case4 cs ih =>
    obtain ⟨out, hrest, -⟩ := Except.bind_eq_ok_iff.mp h
    obtain ⟨out', hrest'⟩ := ih hrest
    exact ⟨'\x7d' :: out', Except.bind_eq_ok_iff.mpr ⟨out', hrest', rfl⟩⟩
  | case5 => cases h
  | case6 c cs _ hopen _ hclose ih =>
    obtain ⟨out, hrest, -⟩ := Except.bind_eq_ok_iff.mp h
    obtain ⟨out', hrest'⟩ := ih hrest
    refine ⟨c :: out', ?_⟩
    rw [fillFrom_plain hopen hclose, hrest']
    rfl
  | case7 => cases h
  | case8 => cases h
  | case9 => cases h
  | case10 key cs entry hentry ih =>
    obtain ⟨out, hrest, -⟩ := Except.bind_eq_ok_iff.mp h
    obtain ⟨out', hrest'⟩ := ih hrest
    obtain ⟨entry', hentry'⟩ := Option.isSome_iff_exists.mp
      (hmore _ (Option.isSome_iff_exists.mpr ⟨entry, hentry⟩))
    refine ⟨entry'.toList ++ out', ?_⟩
    rw [fillFrom_close hentry', hrest']
    rfl
  | case11 key c cs hopen hclose ih =>
    obtain ⟨out', hrest'⟩ := ih h
    exact ⟨out', (fillFrom_key hopen hclose).trans hrest'⟩

end FillFrom

/-! ## Templates as a whole -/

section Fill

variable (m : Match) {s t out : String}

theorem fill_eq_ok_iff : fill m s = .ok out ↔ fillFrom m none s.toList = .ok out.toList := by
  unfold fill
  rw [Except.bind_eq_ok_iff]
  constructor
  · rintro ⟨chars, h, heq⟩
    cases heq
    rw [String.toList_ofList]
    exact h
  · intro h
    exact ⟨out.toList, h, congrArg Except.ok String.ofList_toList⟩

theorem fill_append (h : fill m s = .ok out) : fill m (s ++ t) = (fill m t).map (out ++ ·) := by
  rw [fill_eq_ok_iff] at h
  unfold fill
  rw [String.toList_append, fillFrom_append h]
  cases fillFrom m none t.toList with
  | error e => rfl
  | ok chars =>
    refine congrArg Except.ok ?_
    rw [String.ofList_append, String.ofList_toList]

/-- There is no brace in the text. -/
def NoBraces (s : String) : Prop :=
  ∀ c ∈ s.toList, c ≠ '\x7b' ∧ c ≠ '\x7d'

instance (s : String) : Decidable (NoBraces s) :=
  List.decidableBAll _ s.toList

/-- None of the characters is a brace. -/
def isPlain (cs : List Char) : Bool :=
  cs.all fun c => c != '\x7b' && c != '\x7d'

theorem noBraces_ofList {cs : List Char} (h : isPlain cs = true) : NoBraces (String.ofList cs) := by
  unfold NoBraces
  rw [String.toList_ofList]
  intro c hc
  simpa using List.all_eq_true.mp h c hc

theorem NoBraces.append (hs : NoBraces s) (ht : NoBraces t) : NoBraces (s ++ t) := by
  unfold NoBraces
  rw [String.toList_append]
  exact List.forall_mem_append.mpr ⟨hs, ht⟩

theorem NoBraces.head?_append (h : NoBraces s) (cs : List Char) :
    (s.toList ++ '\x7d' :: cs).head? ≠ some '\x7b' := by
  unfold NoBraces at h
  cases hs : s.toList with
  | nil => simp
  | cons c ds =>
    rw [hs] at h
    exact fun hhead => (h c List.mem_cons_self).1 (Option.some.inj hhead)

theorem toList_slot (key : String) : (slot key).toList = '\x7b' :: (key.toList ++ ['\x7d']) := by
  unfold slot
  rw [String.toList_append, String.toList_append]
  rfl

/-- An entry is put in as it is. -/
theorem fillFrom_slot {m : Match} {key entry : String} (hplain : NoBraces key)
    (hentry : m.get? key = some entry) (cs : List Char) :
    fillFrom m none ('\x7b' :: (key.toList ++ '\x7d' :: cs)) =
      (fillFrom m none cs).map (entry.toList ++ ·) := by
  have hname : String.ofList (key.toList.reverse ++ []).reverse = key := by
    rw [List.append_nil, List.reverse_reverse, String.ofList_toList]
  rw [← hname] at hentry
  rw [fillFrom_open (hplain.head?_append cs), fillFrom_keys hplain, fillFrom_close hentry]

theorem fill_of_noBraces (h : NoBraces s) : fill m s = .ok s := by
  rw [fill_eq_ok_iff]
  unfold NoBraces at h
  generalize s.toList = cs at h ⊢
  induction cs with
  | nil => rfl
  | cons c cs ih =>
    obtain ⟨⟨hopen, hclose⟩, hrest⟩ := List.forall_mem_cons.mp h
    rw [fillFrom_plain hopen hclose, ih hrest]
    rfl

/-- Escaped braces come back as they were. -/
theorem fill_escapeBraces (s : String) : fill m (escapeBraces s) = .ok s := by
  rw [fill_eq_ok_iff, escapeBraces, String.toList_ofList]
  induction s.toList with
  | nil => rfl
  | cons c cs ih =>
    rw [List.flatMap_cons]
    split
    · rename_i hbrace
      rcases hbrace with rfl | rfl
      · exact Except.bind_eq_ok_iff.mpr ⟨cs, ih, rfl⟩
      · exact Except.bind_eq_ok_iff.mpr ⟨cs, ih, rfl⟩
    · rename_i hplain
      obtain ⟨hopen, hclose⟩ := not_or.mp hplain
      rw [List.singleton_append, fillFrom_plain hopen hclose, ih]
      rfl

end Fill

/-! ## Templates for the entries under given keys -/

/-- The template can be filled in with any match that has entries under these keys. -/
def Fills (keys : List String) (template : String) : Prop :=
  ∀ m : Match, (∀ key ∈ keys, m.contains key = true) → ∃ text, fill m template = .ok text

section Fills

variable {keys : List String} {s t : String}

/-- A match with an empty entry under each of the keys. -/
def blankMatch (keys : List String) : Match :=
  Table.ofList (keys.map fun key => (key, ""))

theorem contains_blankMatch {key : String} :
    (blankMatch keys).contains key = true ↔ key ∈ keys := by
  rw [blankMatch, Table.contains_ofList, List.map_map]
  exact iff_of_eq (congrArg (key ∈ ·) (List.map_id keys))

/-- Only the keys matter, not what the entries are. -/
theorem fills_iff : Fills keys s ↔ (fill (blankMatch keys) s).toOption.isSome = true := by
  have hsome : (fill (blankMatch keys) s).toOption.isSome = true ↔
      ∃ text, fill (blankMatch keys) s = .ok text := by
    cases fill (blankMatch keys) s <;> simp [Except.toOption]
  rw [hsome]
  constructor
  · exact fun h => h _ fun key hkey => contains_blankMatch.mpr hkey
  · rintro ⟨text, h⟩ m hm
    obtain ⟨chars, hchars⟩ := fillFrom_mono (fun key hkey => hm key (contains_blankMatch.mp hkey))
      ((fill_eq_ok_iff _).mp h)
    exact ⟨String.ofList chars, Except.bind_eq_ok_iff.mpr ⟨chars, hchars, rfl⟩⟩

instance (keys : List String) (s : String) : Decidable (Fills keys s) :=
  decidable_of_iff _ fills_iff.symm

/-- The braces have to be in pairs, and there has to be an entry. -/
example : Fills ["x"] "\x7bx\x7d\x7b\x7b" ∧ ¬Fills ["x"] "\x7by\x7d" ∧ ¬Fills ["x"] "\x7bx" := by
  decide

theorem Fills.append (hs : Fills keys s) (ht : Fills keys t) : Fills keys (s ++ t) := by
  intro m hm
  obtain ⟨out, hout⟩ := hs m hm
  obtain ⟨out', hout'⟩ := ht m hm
  exact ⟨out ++ out', by rw [fill_append m hout, hout']; rfl⟩

theorem fills_of_noBraces (h : NoBraces s) : Fills keys s :=
  fun m _ => ⟨s, fill_of_noBraces m h⟩

/-- The place of an entry can be filled in if there is the entry. -/
theorem fills_slot {key : String} (hkey : key ∈ keys) (hplain : NoBraces key) :
    Fills keys (slot key) := by
  intro m hm
  obtain ⟨entry, hentry⟩ := Option.isSome_iff_exists.mp (hm key hkey)
  refine ⟨entry, (fill_eq_ok_iff m).mpr ?_⟩
  rw [toList_slot, fillFrom_slot hplain hentry []]
  exact congrArg Except.ok (List.append_nil _)

theorem fills_ofList {cs : List Char} (h : isPlain cs = true) : Fills keys (String.ofList cs) :=
  fills_of_noBraces (noBraces_ofList h)

theorem Fills.text (h : Fills keys s) {cs : List Char} (hcs : isPlain cs = true) :
    Fills keys (s ++ String.ofList cs) :=
  h.append (fills_ofList hcs)

theorem fills_around {before after : String} (hbefore : NoBraces before) (h : Fills keys t)
    (hafter : NoBraces after) : Fills keys (before ++ t ++ after) :=
  ((fills_of_noBraces hbefore).append h).append (fills_of_noBraces hafter)

theorem fills_escapeBraces (s : String) : Fills keys (escapeBraces s) :=
  fun m _ => ⟨s, fill_escapeBraces m s⟩

end Fills

end Template

/-! ## Replies -/

namespace Reply

/-- The texts of which one may be picked. -/
def templates : Reply → List String
  | text content => [content]
  | choices options => options
  | weighted options => options.map Prod.fst
  | nothing => []

/-- All texts of the reply can be filled in. -/
def Fills (keys : List String) (reply : Reply) : Prop :=
  ∀ template ∈ reply.templates, Template.Fills keys template

variable {keys : List String} {reply : Reply}

theorem Fills.pick (h : reply.Fills keys) (r : Random) :
    Template.Fills keys (reply.pick r).1 := by
  have hempty : Template.Fills keys "" := Template.fills_ofList rfl
  cases reply with
  | text content => exact h content List.mem_cons_self
  | choices options =>
    show Template.Fills keys ((r.choose options).1.getD "")
    cases hchoice : (r.choose options).1 with
    | none => exact hempty
    | some option => exact h option (Random.mem_of_choose hchoice)
  | weighted options =>
    show Template.Fills keys ((r.chooseWeighted options).1.getD "")
    cases hchoice : (r.chooseWeighted options).1 with
    | none => exact hempty
    | some option => exact h option (Random.mem_of_chooseWeighted hchoice)
  | nothing => exact hempty

end Reply
end Repartee
