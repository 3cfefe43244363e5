import Repartee.Proofs.Template

/-!
# The parts of templates

A template is made of parts: characters other than braces, braces that are written twice, and keys
between braces. There is no choice in reading it, since no part begins with another one
(`Part.eq_of_append_eq`). What can be filled in is what is made of parts whose keys are there
(`exists_parts_of_fillFrom`), and it becomes what the parts stand for (`fillFrom_parts`).
-/

namespace Repartee.Template

inductive Part where
  /-- A character that stands for itself. -/
  | plain (c : Char)
  /-- An opening brace, written twice. -/
  | opening
  /-- A closing brace, written twice. -/
  | closing
  /-- The place of the entry under the key. -/
  | entry (key : String)
  deriving Repr, DecidableEq

namespace Part

/-- The part as it is written. -/
def text : Part → List Char
  | plain c => [c]
  | opening => ['\x7b', '\x7b']
  | closing => ['\x7d', '\x7d']
  | entry key => '\x7b' :: (key.toList ++ ['\x7d'])

def meaning (m : Match) : Part → List Char
  | plain c => [c]
  | opening => ['\x7b']
  | closing => ['\x7d']
  | entry key => ((m.get? key).getD "").toList

/-- A character has to be other than a brace, and a key has to be free of braces and be there. -/
def Allowed (m : Match) : Part → Prop
  | plain c => c ≠ '\x7b' ∧ c ≠ '\x7d'
  | opening | closing => True
  | entry key => NoBraces key ∧ m.contains key = true

instance (m : Match) : (p : Part) → Decidable (p.Allowed m)
  | plain c => inferInstanceAs (Decidable (c ≠ '\x7b' ∧ c ≠ '\x7d'))
  | opening | closing => inferInstanceAs (Decidable True)
  | entry key => inferInstanceAs (Decidable (NoBraces key ∧ m.contains key = true))

end Part

/-! ## No part begins with another one -/

namespace Part

variable {m : Match} {p q : Part}

/-- The part with which a text begins. -/
def first? : List Char → Option Part
  | '\x7b' :: '\x7b' :: _ => some opening
  | '\x7b' :: cs => some (entry (String.ofList (cs.takeWhile (· != '\x7d'))))
  | '\x7d' :: '\x7d' :: _ => some closing
  | '\x7d' :: _ => none
  | c :: _ => some (plain c)
  | [] => none

theorem first?_append (h : p.Allowed m) (cs : List Char) : first? (p.text ++ cs) = some p := by
  cases p with
  | plain c =>
    obtain ⟨hopen, hclose⟩ := h
    show first? (c :: cs) = _
    rw [first?]
    all_goals simp_all
  | opening => rfl
  | closing => rfl
  | entry key =>
    have hkey : (key.toList ++ '\x7d' :: cs).takeWhile (· != '\x7d') = key.toList := by
      rw [List.takeWhile_append_of_pos fun c hc => by simpa using (h.1 c hc).2,
        List.takeWhile_cons_of_neg (by decide), List.append_nil]
    rw [text, List.cons_append, List.append_assoc, List.singleton_append, first?, hkey,
      String.ofList_toList]
    rintro ds hds
    exact h.1.head?_append cs (by rw [hds]; rfl)

/-- No allowed part begins with another one. -/
theorem eq_of_append_eq (hp : p.Allowed m) (hq : q.Allowed m) {cs ds : List Char}
    (h : p.text ++ cs = q.text ++ ds) : p = q ∧ cs = ds := by
  have hpart : some p = some q := by
    rw [← first?_append hp cs, h, first?_append hq ds]
  obtain rfl := Option.some.inj hpart
  exact ⟨rfl, List.append_cancel_left h⟩

end Part

/-! ## What is accepted -/

section Parts

variable {m : Match} {parts : List Part} {cs out : List Char}

theorem fillFrom_part {p : Part} (h : p.Allowed m) :
    fillFrom m none p.text = .ok (p.meaning m) := by
  cases p with
  | plain c =>
    rw [Part.text, fillFrom_plain h.1 h.2]
    rfl
  | opening => rfl
  | closing => rfl
  | entry key =>
    obtain ⟨hplain, hthere⟩ := h
    obtain ⟨entry, hentry⟩ := Option.isSome_iff_exists.mp hthere
    rw [Part.text, Part.meaning, hentry, fillFrom_slot hplain hentry []]
    exact congrArg Except.ok (List.append_nil _)

/-- Parts that are allowed are filled in one after the other. -/
theorem fillFrom_parts (h : ∀ p ∈ parts, p.Allowed m) :
    fillFrom m none (parts.flatMap Part.text) = .ok (parts.flatMap (Part.meaning m)) := by
  induction parts with
  | nil => rfl
  | cons p parts ih =>
    obtain ⟨hp, hparts⟩ := List.forall_mem_cons.mp h
    rw [List.flatMap_cons, fillFrom_append (fillFrom_part hp), ih hparts, List.flatMap_cons]
    rfl

/-- The template is made of these parts, and the text of what they stand for. -/
structure MadeOf (m : Match) (template text : List Char) (parts : List Part) : Prop where
  allowed : ∀ p ∈ parts, p.Allowed m
  template_eq : template = parts.flatMap Part.text
  text_eq : text = parts.flatMap (Part.meaning m)

theorem MadeOf.cons {p : Part} (hp : p.Allowed m) (h : MadeOf m cs out parts) :
    MadeOf m (p.text ++ cs) (p.meaning m ++ out) (p :: parts) := by
  obtain ⟨hparts, rfl, rfl⟩ := h
  exact ⟨List.forall_mem_cons.mpr ⟨hp, hparts⟩, rfl, rfl⟩

/-- The text of a key that is being read. -/
def pending : Option (List Char) → List Char
  | none => []
  | some key => '\x7b' :: key.reverse

/-- What can be filled in is made of parts. -/
theorem exists_parts_of_fillFrom {state : Option (List Char)}
    (hstate : ∀ key ∈ state, ∀ c ∈ key, c ≠ '\x7b' ∧ c ≠ '\x7d')
    (h : fillFrom m state cs = .ok out) : ∃ parts, MadeOf m (pending state ++ cs) out parts := by
  have hnone : ∀ key ∈ (none : Option (List Char)), ∀ c ∈ key, c ≠ '\x7b' ∧ c ≠ '\x7d' :=
    fun key hkey => absurd hkey (Option.not_mem_none key)
  fun_induction fillFrom m state cs generalizing out with
  | case1 =>
    cases h
    exact ⟨[], fun p hp => absurd hp List.not_mem_nil, rfl, rfl⟩
  | case2 cs ih =>
    obtain ⟨out, hrest, rfl⟩ := Except.bind_pure_eq_ok_iff.mp h
    obtain ⟨parts, hparts⟩ := ih hnone hrest
    exact ⟨_, hparts.cons (p := .opening) trivial⟩
  | case3 cs hopen ih =>
    refine ih (fun key hkey c hc => ?_) h
    obtain rfl := Option.some.inj hkey
    exact absurd hc List.not_mem_nil
  | case4 cs ih =>
    obtain ⟨out, hrest, rfl⟩ := Except.bind_pure_eq_ok_iff.mp h
    obtain ⟨parts, hparts⟩ := ih hnone hrest
    exact ⟨_, hparts.cons (p := .closing) trivial⟩
  | case5 => cases h
  | case6 c cs _ hopen _ hclose ih =>
    obtain ⟨out, hrest, rfl⟩ := Except.bind_pure_eq_ok_iff.mp h
    obtain ⟨parts, hparts⟩ := ih hnone hrest
    exact ⟨_, hparts.cons (p := .plain c) ⟨hopen, hclose⟩⟩
  | case7 => cases h
  | case8 => cases h
  | case9 => cases h
  | case10 key cs entry hentry ih =>
    obtain ⟨out, hrest, rfl⟩ := Except.bind_pure_eq_ok_iff.mp h
    obtain ⟨parts, hparts⟩ := ih hnone hrest
    have hplain : NoBraces (String.ofList key.reverse) := by
      unfold NoBraces
      rw [String.toList_ofList]
      exact fun c hc => hstate key rfl c (List.mem_reverse.mp hc)
    have hall := hparts.cons (p := .entry (String.ofList key.reverse))
      ⟨hplain, Option.isSome_iff_exists.mpr ⟨entry, hentry⟩⟩
    rw [Part.text, Part.meaning, hentry, String.toList_ofList] at hall
    exact ⟨.entry (String.ofList key.reverse) :: parts, by simpa [pending] using hall⟩
  | case11 key c cs hopen hclose ih =>
    have hkey : pending (some key) ++ c :: cs = pending (some (c :: key)) ++ cs := by
      simp [pending]
    rw [hkey]
    refine ih (fun key' hkey' => ?_) h
    obtain rfl := Option.some.inj hkey'
    exact List.forall_mem_cons.mpr ⟨⟨hopen, hclose⟩, hstate key rfl⟩

/-- A template is accepted if it is made of parts, which it is in one way at most, since nowhere in
it could another part be read. It becomes what the parts stand for, and entries are put in as they
are. So templates that are accepted may be put together, and a text with its braces escaped comes
back as it was. -/
theorem fill_accepts_parts (m : Match) :
    (∀ template text, fill m template = .ok text ↔
      ∃ parts, MadeOf m template.toList text.toList parts) ∧
    (∀ p parts, (∀ x ∈ p :: parts, x.Allowed m) →
      ∀ q : Part, q.Allowed m → q.text <+: (p :: parts).flatMap Part.text → q = p) ∧
    (∀ s t text text', fill m s = .ok text → fill m t = .ok text' →
      fill m (s ++ t) = .ok (text ++ text')) ∧
    ∀ s, fill m (escapeBraces s) = .ok s := by
  refine ⟨fun template text => ?_, fun p parts hparts q hq hprefix => ?_,
    fun s t text text' hs ht => ?_, fill_escapeBraces m⟩
  · rw [fill_eq_ok_iff]
    constructor
    · intro h
      exact exists_parts_of_fillFrom (fun key hkey => absurd hkey (Option.not_mem_none key)) h
    · rintro ⟨parts, hparts, htemplate, htext⟩
      rw [htemplate, htext, fillFrom_parts hparts]
  · obtain ⟨rest, hrest⟩ := hprefix
    exact (Part.eq_of_append_eq hq (hparts p List.mem_cons_self) hrest).1
  · rw [fill_append m hs, ht]
    rfl

/-- Three braces in front of a key are a brace and an entry, and three behind it the end of it and a
brace. -/
theorem fill_accepts_parts_braces :
    let m : Match := Table.ofList [("match0", "\x7bx\x7d")]
    fill m "\x7b\x7b\x7bmatch0\x7d\x7d\x7d" = .ok "\x7b\x7bx\x7d\x7d" ∧
      fill m ("\x7bmatch0\x7d" ++ "\x7d\x7d") = .ok ("\x7bx\x7d" ++ "\x7d") := by
  intro m
  obtain ⟨hfill, -, happend, -⟩ := fill_accepts_parts m
  refine ⟨(hfill _ _).mpr ⟨[.opening, .entry "match0", .closing], ?_, ?_, ?_⟩, ?_⟩
  · decide
  · decide
  · decide
  · exact happend _ _ _ _ rfl rfl

end Parts

end Repartee.Template
