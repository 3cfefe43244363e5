import Repartee.Proofs.Pattern.Spans
import Repartee.Proofs.Target

/-!
# The entries for memos

Every memo has its two entries in a match, the normal words and the raw words of its own span
(`Match.get?_addCaptures`): the keys of different memos are different, and so are those of the two
patterns. For a wildcard, the normal words are as many as it asks for (`wildcard_memo_bounds`). The
raw words may be missing where there are normal words, and the other way round, since they are those
of which the tokens begin within the span or at its end (`Rule.raw_entries_emptiness`).
-/

namespace Repartee

open Repartee.Text Repartee.Pattern

/-! ## Keys -/

theorem decimal_injective : Function.Injective decimal := by
  intro m n h
  have := congrArg (fun s => ofDecimal? s.toList) h
  simpa only [ofDecimal?_decimal, Option.some.injEq] using this

theorem captureName_injective : Function.Injective captureName :=
  fun _ _ h => decimal_injective ((String.append_right_inj "match").mp h)

theorem captureName_ne_raw (index other : Nat) :
    captureName index ≠ "raw_" ++ captureName other := by
  intro h
  have := congrArg (fun s => s.toList.head?) h
  simp [captureName] at this

namespace Match

section Keys

variable {mark : String} {index : Nat} {indices : List Nat}

theorem mem_memoKeys_normal :
    mark ++ captureName index ∈ indices.flatMap (memoKeys mark) ↔ index ∈ indices := by
  simp [memoKeys, String.append_assoc, captureName_ne_raw, captureName_injective.eq_iff]

theorem mem_memoKeys_raw :
    mark ++ "raw_" ++ captureName index ∈ indices.flatMap (memoKeys mark) ↔ index ∈ indices := by
  simp [memoKeys, String.append_assoc, (captureName_ne_raw _ _).symm, captureName_injective.eq_iff]

/-- The keys for the message are not those for the reply before it. -/
theorem not_mem_memoKeys_replyMark {key : String} (h : key ∈ memoKeys "" index) :
    key ∉ indices.flatMap (memoKeys replyMark) := by
  intro hreply
  obtain ⟨other, -, hreply⟩ := List.mem_flatMap.mp hreply
  simp only [memoKeys, List.mem_cons, List.not_mem_nil, or_false] at h hreply
  -- The second characters of the keys tell them apart.
  have hsecond : key.toList[1]? = some 'a' := by
    rcases h with rfl | rfl <;> simp [captureName]
  rcases hreply with rfl | rfl <;> simp [replyMark] at hsecond

end Keys

theorem memoKey_ne_raw (mark : String) (index : Nat) :
    mark ++ captureName index ≠ mark ++ "raw_" ++ captureName index := by
  rw [String.append_assoc]
  exact fun h => captureName_ne_raw _ _ ((String.append_right_inj mark).mp h)

/-! ## Entries -/

/-- The normal words and the raw words of a memo. -/
def entriesOf (t : Target) (c : Pattern.Capture) : String × String :=
  match c.span with
  | some (start, stop) => (slice t.normalized start stop, t.rawSpan start stop)
  | none => ("", "")

variable {mark : String} {t : Target} {m : Match} {captures : List Pattern.Capture}

theorem addCaptures_cons (c : Pattern.Capture) :
    addCaptures mark t m (c :: captures) =
      addCaptures mark t ((m.insert (mark ++ captureName c.index) (entriesOf t c).1).insert
        (mark ++ "raw_" ++ captureName c.index) (entriesOf t c).2) captures := by
  unfold addCaptures entriesOf
  rw [List.foldl_cons]
  cases c.span <;> rfl

theorem get?_addCaptures_of_not_mem {key : String}
    (h : key ∉ (captures.map Pattern.Capture.index).flatMap (memoKeys mark)) :
    (addCaptures mark t m captures).get? key = m.get? key := by
  induction captures generalizing m with
  | nil => rfl
  | cons c captures ih =>
    rw [List.map_cons, List.flatMap_cons, List.mem_append, not_or] at h
    obtain ⟨hkeys, hrest⟩ := h
    simp only [memoKeys, List.mem_cons, List.not_mem_nil, or_false, not_or] at hkeys
    rw [addCaptures_cons, ih hrest, Table.get?_insert, Table.get?_insert, if_neg hkeys.2,
      if_neg hkeys.1]

/-- Every memo has the entries of its own span. -/
theorem get?_addCaptures (distinct : (captures.map Pattern.Capture.index).Nodup)
    {c : Pattern.Capture} (hc : c ∈ captures) :
    (addCaptures mark t m captures).get? (mark ++ captureName c.index) =
        some (entriesOf t c).1 ∧
      (addCaptures mark t m captures).get? (mark ++ "raw_" ++ captureName c.index) =
        some (entriesOf t c).2 := by
  induction captures generalizing m with
  | nil => cases hc
  | cons d captures ih =>
    obtain ⟨hfresh, hdistinct⟩ := List.nodup_cons.mp distinct
    rw [addCaptures_cons]
    rcases List.mem_cons.mp hc with rfl | hc
    · rw [get?_addCaptures_of_not_mem (mt mem_memoKeys_normal.mp hfresh),
        get?_addCaptures_of_not_mem (mt mem_memoKeys_raw.mp hfresh)]
      simp only [Table.get?_insert, if_neg (memoKey_ne_raw mark c.index), if_true, and_self]
    · exact ih hdistinct hc

variable [Pattern.SizeLimit]

/-- The memo with this number has its two entries, under keys that begin with `mark`. That the one
is empty exactly if the other is comes down to this: the tokens of some raw word begin within the
span of the memo or at its end exactly if the span is not empty. -/
def EmptinessCriterion (found : Match) (mark : String) (p : Pattern) (b : Bindings) (t : Target)
    (index : Nat) : Prop :=
  ∃ captures span normal raw, p.captures? b t.normalized = some captures ∧
    captures[index]? = some ⟨index, span⟩ ∧
    found.get? (mark ++ captureName index) = some normal ∧
    found.get? (mark ++ "raw_" ++ captureName index) = some raw ∧
    ((raw = "" ↔ normal = "") ↔ ∀ start stop, span = some (start, stop) →
      (start < stop ↔ t.BeginsWithin start stop))

theorem EmptinessCriterion.congr {found found' : Match} {p : Pattern} {b : Bindings} {index : Nat}
    (h : found.EmptinessCriterion mark p b t index)
    (hkeys : ∀ key ∈ memoKeys mark index, found'.get? key = found.get? key) :
    found'.EmptinessCriterion mark p b t index := by
  obtain ⟨captures, span, normal, raw, hcaptures, hspan, hnormal, hraw, hiff⟩ := h
  rw [← hkeys _ (by simp [memoKeys])] at hnormal hraw
  exact ⟨captures, span, normal, raw, hcaptures, hspan, hnormal, hraw, hiff⟩

end Match

section Compiled

variable [Pattern.SizeLimit] {text : String} {b now : Bindings} {p : Pattern}
  {captures : List Pattern.Capture} (h : Pattern.ofText? text b = .ok p)

include h

theorem getElem?_of_captures? {s : String} (hcaptures : p.captures? now s = some captures)
    {index : Nat} (hindex : index < p.memos) :
    ∃ span, captures[index]? = some ⟨index, span⟩ := by
  have hindices := congrArg (fun indices => indices[index]?) (captures?_indices h hcaptures)
  simp only [List.getElem?_map, List.getElem?_range hindex] at hindices
  obtain ⟨⟨number, span⟩, hspan, rfl⟩ := Option.map_eq_some_iff.mp hindices
  exact ⟨span, hspan⟩

theorem get?_addCaptures_of_captures? {s : String} (hcaptures : p.captures? now s = some captures)
    {c : Pattern.Capture} (hc : c ∈ captures) (mark : String) (t : Target) (m : Match) :
    (Match.addCaptures mark t m captures).get? (mark ++ captureName c.index) =
        some (Match.entriesOf t c).1 ∧
      (Match.addCaptures mark t m captures).get? (mark ++ "raw_" ++ captureName c.index) =
        some (Match.entriesOf t c).2 :=
  Match.get?_addCaptures (captures?_indices h hcaptures ▸ List.nodup_range) hc

theorem emptinessCriterion_addCaptures {t : Target} (aligned : t.Aligned)
    (hcaptures : p.captures? now t.normalized = some captures) {index : Nat}
    (hindex : index < p.memos) (mark : String) (m : Match) :
    (Match.addCaptures mark t m captures).EmptinessCriterion mark p now t index := by
  obtain ⟨span, hspan⟩ := getElem?_of_captures? h hcaptures hindex
  have hmem := List.mem_of_getElem? hspan
  obtain ⟨hnormal, hraw⟩ := get?_addCaptures_of_captures? h hcaptures hmem mark t m
  refine ⟨captures, span, _, _, hcaptures, hspan, hnormal, hraw, ?_⟩
  cases span with
  | none => simp [Match.entriesOf]
  | some bytes =>
    obtain ⟨start, stop⟩ := bytes
    obtain ⟨tree, target, -, -, -, r, i, j, -, hmatch, -, hstart, hstop⟩ :=
      capture_of_memo h aligned.isNormalWord hcaptures hmem rfl
    have hslice : slice t.normalized start stop = "" ↔ ¬ start < stop := by
      rw [hstart, hstop]
      exact slice_eq_empty_iff hmatch.le t.normalized
    have hraw : t.rawSpan start stop = "" ↔ ¬ t.BeginsWithin start stop :=
      Target.rawSpan_eq_empty_iff aligned
    refine ((iff_congr hraw hslice).trans (not_iff_not.trans iff_comm)).trans ⟨?_, ?_⟩
    · rintro hiff start stop ⟨⟩
      exact hiff
    · exact fun hiff => hiff start stop rfl

/-- A memo before a wildcard that took part has taken in whole words, as many of them as the
wildcard asks for and all of its class. One that took no part has empty entries. -/
theorem wildcard_memo_bounds {ws : List String} (hws : ∀ w ∈ ws, IsNormalWord w)
    (hcaptures : p.captures? now (unwords ws) = some captures) {tree : Sequence}
    (htree : p.tree? = some tree) {index : Nat} {w : Wildcard}
    (htarget : (Sequence.memoTargets tree)[index]? = some (.wildcard w)) :
    ∃ span, captures[index]? = some ⟨index, span⟩ ∧
      (∀ start stop, span = some (start, stop) → ∃ done us todo, ws = done ++ us ++ todo ∧
        w.min ≤ us.length ∧ (∀ most ∈ w.max, us.length ≤ most) ∧
        (∀ u ∈ us, ∀ c ∈ u.toList, w.kind.accepts c = true) ∧
        start = wordStart done ∧ stop = wordStop (done ++ us) ∧
        slice (unwords ws) start stop = unwords us) ∧
      (span = none → ∀ (mark : String) (t : Target) (m : Match),
        (Match.addCaptures mark t m captures).get? (mark ++ captureName index) = some "" ∧
        (Match.addCaptures mark t m captures).get? (mark ++ "raw_" ++ captureName index) =
          some "") := by
  have hindex : index < p.memos := by
    rw [Pattern.memos, htree, Option.map_some, Option.getD_some, ← Sequence.length_memoTargets]
    exact (List.getElem?_eq_some_iff.mp htarget).1
  obtain ⟨span, hspan⟩ := getElem?_of_captures? h hcaptures hindex
  have hmem := List.mem_of_getElem? hspan
  refine ⟨span, hspan, ?_, ?_⟩
  · rintro start stop rfl
    obtain ⟨tree', target, htree', htarget', hshaped, r, i, j, hr, hmatch, hsettled, rfl, rfl⟩ :=
      capture_of_memo h hws hcaptures hmem rfl
    cases htree.symm.trans htree'
    cases htarget.symm.trans htarget'
    obtain rfl := Except.ok.inj hr
    rcases stretch_of_matches hws (Regex.Faithful.words hws w) (trailsOnly_words hws w) hsettled
        hmatch with
      ⟨-, hnil⟩ | ⟨done, us, todo, hne, ⟨hmin, hmax, hkind⟩, rfl, hstart, hstop | ⟨hmay, -⟩⟩
    · exact absurd (Nat.le_trans w.min_pos hnil.1) (by decide)
    · refine ⟨done, us, todo, rfl, hmin, hmax, hkind, hstart, hstop, ?_⟩
      rw [hstart, hstop, slice_words done todo hne]
    · exact hmay.elim
  · rintro rfl mark t m
    exact get?_addCaptures_of_captures? h hcaptures hmem mark t m

end Compiled

section Numbers

attribute [local instance] Pattern.SizeLimit.byWeight

/-- Two numbers are taken in, which is all that the optional wildcard can. -/
theorem wildcard_memo_bounds_numbers :
    let w := Wildcard.clamp .digits 1 (some 2)
    (∃ p, Pattern.ofText? "[_#~2] go" {} = .ok p ∧
      p.tree? = some [.choice .optional [[.memo (.wildcard w)]], .space, .words ["go"]] ∧
      p.captures? {} (unwords ["7", "8", "go"]) = some [⟨0, some (0, 3)⟩]) ∧
    ∃ done us todo, ["7", "8", "go"] = done ++ us ++ todo ∧ us.length ≤ 2 ∧ 0 = wordStart done ∧
      3 = wordStop (done ++ us) ∧ slice (unwords ["7", "8", "go"]) 0 3 = unwords us := by
  intro w
  obtain ⟨p, hread, htree, hcaptures⟩ : ∃ p, Pattern.ofText? "[_#~2] go" {} = .ok p ∧
      p.tree? = some [.choice .optional [[.memo (.wildcard w)]], .space, .words ["go"]] ∧
      p.captures? {} (unwords ["7", "8", "go"]) = some [⟨0, some (0, 3)⟩] := ⟨_, rfl, rfl, rfl⟩
  refine ⟨⟨p, hread, htree, hcaptures⟩, ?_⟩
  have hws : ∀ v ∈ ["7", "8", "go"], IsNormalWord v := by
    simp only [List.forall_mem_cons]
    exact ⟨⟨by decide, List.all_eq_true.mp rfl⟩, ⟨by decide, List.all_eq_true.mp rfl⟩,
      ⟨by decide, List.all_eq_true.mp rfl⟩, fun v hv => absurd hv List.not_mem_nil⟩
  have htarget : (Sequence.memoTargets [.choice .optional [[.memo (.wildcard w)]], .space,
      .words ["go"]])[0]? = some (.wildcard w) := rfl
  obtain ⟨span, hspan, htook, -⟩ := wildcard_memo_bounds hread hws hcaptures htree htarget
  cases hspan
  obtain ⟨done, us, todo, hsplit, -, hmost, -, hstart, hstop, hslice⟩ := htook 0 3 rfl
  exact ⟨done, us, todo, hsplit, hmost 2 rfl, hstart, hstop, hslice⟩

end Numbers

namespace Rule

variable {name : String} {d : RuleDefinition} {alternates bot : Variables} {r : Rule}

/-- The criterion by which the raw words of a memo are empty together with its normal words, for all
that a rule remembers of the message and of the reply before it. -/
theorem raw_entries_emptiness [Pattern.SizeLimit] (h : Rule.compile? name d alternates bot = .ok r)
    {message : Target} {text : String} {substitutions : List Substitution}
    (hmessage : Target.ofText? text substitutions = .ok message) {replies : List Target}
    (hreplies : ∀ last ∈ replies.head?, ∃ text substitutions,
      Target.ofText? text substitutions = .ok last)
    {b : Pattern.Bindings} {found : Match} (hfound : r.match? message replies b = some found) :
    (∀ index < r.pattern.memos, found.EmptinessCriterion "" r.pattern b message index) ∧
      ∀ index < r.previous.memos, ∃ last ∈ replies.head?,
        found.EmptinessCriterion Match.replyMark r.previous b last index := by
  obtain ⟨hpattern, hprevious⟩ := patterns_of_compile? h
  have haligned := Target.aligned_of_ofText? hmessage
  obtain ⟨captures, hcaptures, ⟨habsent, rfl⟩ | ⟨last, hlast, captures', hcaptures', rfl⟩⟩ :=
    exists_captures_of_matchNormal? hfound
  · refine ⟨fun index hindex =>
      emptinessCriterion_addCaptures hpattern haligned hcaptures hindex _ _, fun index hindex => ?_⟩
    rw [Pattern.memos_of_not_isPresent habsent] at hindex
    cases hindex
  · obtain ⟨text', substitutions', hread⟩ := hreplies last hlast
    refine ⟨fun index hindex => ?_, fun index hindex => ⟨last, hlast, emptinessCriterion_addCaptures
      hprevious (Target.aligned_of_ofText? hread) hcaptures' hindex _ _⟩⟩
    refine (emptinessCriterion_addCaptures hpattern haligned hcaptures hindex "" ∅).congr ?_
    exact fun key hkey =>
      Match.get?_addCaptures_of_not_mem (Match.not_mem_memoKeys_replyMark hkey)

/-- A rule for the water with an optional word to be remembered. -/
def waterRule (previous : String) : RuleDefinition where
  name := "water"
  pattern := "turn _[the] water on"
  previous := previous
  handler := .say "It is on."

section Water

attribute [local instance] Pattern.SizeLimit.byWeight

/-- The optional word is there, and so is what is remembered of the reply. -/
theorem raw_entries_emptiness_water :
    ∃ r message last found, Rule.compile? "water" (waterRule "shall i _*") ∅ ∅ = .ok r ∧
      Target.ofText? "Turn the water on!" [] = .ok message ∧
      Target.ofText? "Shall I help?" [] = .ok last ∧ r.match? message [last] {} = some found ∧
      found.EmptinessCriterion "" r.pattern {} message 0 ∧
      found.EmptinessCriterion Match.replyMark r.previous {} last 0 := by
  obtain ⟨r, message, last, found, hr, hmessage, hlast, hfound, hmemos, hprevious⟩ :
      ∃ r message last found, Rule.compile? "water" (waterRule "shall i _*") ∅ ∅ = .ok r ∧
        Target.ofText? "Turn the water on!" [] = .ok message ∧
        Target.ofText? "Shall I help?" [] = .ok last ∧ r.match? message [last] {} = some found ∧
        0 < r.pattern.memos ∧ 0 < r.previous.memos :=
    ⟨_, _, _, _, rfl, rfl, rfl, rfl, by decide, by decide⟩
  have hreplies : ∀ reply ∈ [last].head?, ∃ text substitutions,
      Target.ofText? text substitutions = .ok reply := by
    rintro reply ⟨⟩
    exact ⟨_, _, hlast⟩
  obtain ⟨hpattern, hreply⟩ := raw_entries_emptiness hr hmessage hreplies hfound
  obtain ⟨reply, ⟨⟩, hcriterion⟩ := hreply 0 hprevious
  exact ⟨r, message, last, found, hr, hmessage, hlast, hfound, hpattern 0 hmemos, hcriterion⟩

/-- Where the optional word is missing, the next word counts as its raw words. -/
theorem not_raw_entries_emptiness_water :
    ∃ r message found, Rule.compile? "water" (waterRule "") ∅ ∅ = .ok r ∧
      Target.ofText? "Turn water on!" [] = .ok message ∧ r.match? message [] {} = some found ∧
      0 < r.pattern.memos ∧ found.get? (captureName 0) = some "" ∧
      found.get? ("raw_" ++ captureName 0) = some "water" ∧ ¬ ("water" = "" ↔ "" = "") :=
  ⟨_, _, _, rfl, rfl, rfl, by decide, rfl, rfl, by decide⟩

end Water

end Rule

end Repartee
