import Repartee.Proofs.Entries
import Repartee.Proofs.Pattern.Markers

/-!
# The numbers of memos

A memo has the number of its marker in the canonical text of the pattern, counted from 0 and from
left to right, and its group in the compiled pattern has that number (`NumbersMarkers`). A match has
two keys for every memo of the message pattern and two for every memo of the other pattern, all of
them different (`Match.nodup_keysFor`), and what a handler reads under the key of a memo and as its
raw words are the two entries of that memo (`Rule.memo_numbering`).
-/

namespace Repartee

open Repartee.Text Repartee.Pattern

namespace Match

/-! ## Keys -/

theorem length_flatMap_memoKeys (mark : String) (indices : List Nat) :
    (indices.flatMap (memoKeys mark)).length = 2 * indices.length := by
  induction indices with
  | nil => rfl
  | cons index indices ih =>
    rw [List.flatMap_cons, List.length_append, ih, List.length_cons]
    show 2 + 2 * indices.length = _
    omega

theorem length_keysFor (memos previous : Nat) :
    (keysFor memos previous).length = 2 * memos + 2 * previous := by
  rw [keysFor, List.length_append, length_flatMap_memoKeys, length_flatMap_memoKeys,
    List.length_range, List.length_range]

theorem nodup_memoKeys (mark : String) (index : Nat) : (memoKeys mark index).Nodup := by
  simpa [memoKeys] using memoKey_ne_raw mark index

theorem disjoint_memoKeys {mark : String} {index other : Nat} (h : index ≠ other) :
    (memoKeys mark index).Disjoint (memoKeys mark other) := by
  intro key hkey hother
  have hmem : key ∈ [other].flatMap (memoKeys mark) := by simpa using hother
  simp only [memoKeys, List.mem_cons, List.not_mem_nil, or_false] at hkey
  rcases hkey with rfl | rfl
  · exact h (List.mem_singleton.mp (mem_memoKeys_normal.mp hmem))
  · exact h (List.mem_singleton.mp (mem_memoKeys_raw.mp hmem))

theorem nodup_flatMap_memoKeys (mark : String) {indices : List Nat} (h : indices.Nodup) :
    (indices.flatMap (memoKeys mark)).Nodup :=
  List.nodup_flatMap.mpr
    ⟨fun index _ => nodup_memoKeys mark index, h.imp fun hne => disjoint_memoKeys hne⟩

theorem nodup_keysFor (memos previous : Nat) : (keysFor memos previous).Nodup := by
  refine (nodup_flatMap_memoKeys "" List.nodup_range).append
    (nodup_flatMap_memoKeys replyMark List.nodup_range) fun key hkey => ?_
  obtain ⟨index, -, hkey⟩ := List.mem_flatMap.mp hkey
  exact not_mem_memoKeys_replyMark hkey

/-! ## The key of the raw words -/

theorem rawKey_captureName (index : Nat) :
    rawKey (captureName index) = "raw_" ++ captureName index := by
  have hmark : replyMark.toList.isPrefixOf (captureName index).toList = false := by
    rw [captureName, String.toList_append]
    rfl
  rw [rawKey, hmark]
  rfl

theorem rawKey_replyMark (key : String) :
    rawKey (replyMark ++ key) = replyMark ++ "raw_" ++ key := by
  have hmark : replyMark.toList.isPrefixOf (replyMark ++ key).toList = true := by
    rw [String.toList_append]
    exact List.isPrefixOf_iff_prefix.mpr (List.prefix_append _ _)
  rw [rawKey, if_pos hmark, String.toList_append, ← String.length_toList, List.drop_left,
    String.ofList_toList]

/-! ## What a handler reads -/

/-- A handler that is given the match reads under the key of the memo the normal words of its span,
and as their raw words, which have a key of their own, the raw words of its span. -/
def HasEntries [Pattern.SizeLimit] (found : Match) (mark : String) (p : Pattern) (b : Bindings)
    (t : Target) (index : Nat) : Prop :=
  ∃ captures span, p.captures? b t.normalized = some captures ∧
    captures[index]? = some ⟨index, span⟩ ∧ ∀ c : Context, c.matched = found →
      c.get? (mark ++ captureName index) = some (entriesOf t ⟨index, span⟩).1 ∧
      c.get? (mark ++ "raw_" ++ captureName index) = some (entriesOf t ⟨index, span⟩).2 ∧
      c.raw? (mark ++ captureName index) = c.get? (mark ++ "raw_" ++ captureName index)

end Match

section Compiled

variable {text : String} {b now : Bindings} {p : Pattern} {captures : List Pattern.Capture}

theorem hasEntries_addCaptures [Pattern.SizeLimit] (h : Pattern.ofText? text b = .ok p) {t : Target}
    (hcaptures : p.captures? now t.normalized = some captures) {index : Nat}
    (hindex : index < p.memos) {mark : String}
    (hraw : Match.rawKey (mark ++ captureName index) = mark ++ "raw_" ++ captureName index)
    {m found : Match} (hfound : ∀ key ∈ Match.memoKeys mark index,
      found.get? key = (Match.addCaptures mark t m captures).get? key) :
    found.HasEntries mark p now t index := by
  obtain ⟨span, hspan⟩ := getElem?_of_captures? h hcaptures hindex
  obtain ⟨hnormal, hrawWords⟩ :=
    get?_addCaptures_of_captures? h hcaptures (List.mem_of_getElem? hspan) mark t m
  rw [← hfound _ (by simp [Match.memoKeys])] at hnormal hrawWords
  refine ⟨captures, span, hcaptures, hspan, ?_⟩
  rintro c rfl
  exact ⟨hnormal, hrawWords, congrArg c.matched.get? hraw⟩

end Compiled

namespace Rule

variable {name : String} {d : RuleDefinition} {alternates bot : Variables} {r : Rule}

theorem names_perm_of_match? [Pattern.SizeLimit] (h : Rule.compile? name d alternates bot = .ok r)
    {message : Target} {replies : List Target} {b : Bindings} {found : Match}
    (hfound : r.match? message replies b = some found) :
    found.names.Perm (Match.keysFor r.pattern.memos r.previous.memos) := by
  rw [List.perm_ext_iff_of_nodup found.nodup_names (Match.nodup_keysFor _ _)]
  exact fun key => Table.mem_names_iff.trans (contains_of_matchNormal? h hfound)

/-- In the compiled patterns of a rule, the groups are numbered as the memo markers in the canonical
text. A match has the keys of their numbers and no others, and a handler finds under them the normal
words and the raw words of each memo. -/
theorem memo_numbering [Pattern.SizeLimit] (h : Rule.compile? name d alternates bot = .ok r) :
    (∀ p ∈ [r.pattern, r.previous], ∀ now regex, p.regex? now = some regex →
      NumbersMarkers (bindingsFor p { alternates, bot } now).resolve p regex) ∧
    ∀ message replies b found, r.match? message replies b = some found →
      found.names.Perm (Match.keysFor r.pattern.memos r.previous.memos) ∧
      found.names.length = 2 * r.pattern.memos + 2 * r.previous.memos ∧
      (∀ index < r.pattern.memos, found.HasEntries "" r.pattern b message index) ∧
      ∀ index < r.previous.memos, ∃ last ∈ replies.head?,
        found.HasEntries Match.replyMark r.previous b last index := by
  obtain ⟨hpattern, hprevious⟩ := patterns_of_compile? h
  refine ⟨?_, fun message replies b found hfound => ?_⟩
  · simp only [List.forall_mem_cons, List.not_mem_nil, false_imp_iff, implies_true, and_true]
    exact ⟨fun now regex => numbersMarkers_of_regex? hpattern,
      fun now regex => numbersMarkers_of_regex? hprevious⟩
  have hnames := names_perm_of_match? h hfound
  refine ⟨hnames, hnames.length_eq.trans (Match.length_keysFor _ _), ?_⟩
  have hmessage : ∀ index, Match.rawKey ("" ++ captureName index) =
      "" ++ "raw_" ++ captureName index := by
    intro index
    rw [String.empty_append, String.empty_append]
    exact Match.rawKey_captureName index
  have hreply : ∀ index, Match.rawKey (Match.replyMark ++ captureName index) =
      Match.replyMark ++ "raw_" ++ captureName index :=
    fun index => Match.rawKey_replyMark (captureName index)
  obtain ⟨captures, hcaptures, ⟨habsent, rfl⟩ | ⟨last, hlast, captures', hcaptures', rfl⟩⟩ :=
    exists_captures_of_matchNormal? hfound
  · refine ⟨fun index hindex => hasEntries_addCaptures hpattern hcaptures hindex (hmessage index)
      fun key _ => rfl, fun index hindex => ?_⟩
    rw [Pattern.memos_of_not_isPresent habsent] at hindex
    cases hindex
  · refine ⟨fun index hindex => hasEntries_addCaptures hpattern hcaptures hindex (hmessage index)
      fun key hkey => Match.get?_addCaptures_of_not_mem (Match.not_mem_memoKeys_replyMark hkey), ?_⟩
    exact fun index hindex => ⟨last, hlast,
      hasEntries_addCaptures hprevious hcaptures' hindex (hreply index) fun key _ => rfl⟩

/-- A rule with a memo inside another one, and with one more in the pattern for the reply. -/
def tellRule : RuleDefinition where
  name := "tell"
  pattern := "_(tell _@|ask @) about _*"
  previous := "shall i _*"
  handler := .say "What about them?"

section Example

attribute [local instance] Pattern.SizeLimit.byWeight

/-- The outer memo has the number 0, the one inside it 1, and the last one 2. -/
theorem memo_numbering_tell :
    ∃ r message last found regex, Rule.compile? "tell" tellRule ∅ ∅ = .ok r ∧
      Target.ofText? "Tell Fred about cats!" [] = .ok message ∧
      Target.ofText? "Shall I help?" [] = .ok last ∧ r.match? message [last] {} = some found ∧
      r.pattern.regex? {} = some regex ∧ regex.captureIndices = [0, 1, 2] ∧
      found.names.length = 8 ∧ found.HasEntries "" r.pattern {} message 1 ∧
      found.HasEntries Match.replyMark r.previous {} last 0 := by
  obtain ⟨r, message, last, found, regex, hr, hmessage, hlast, hfound, hregex, hmemos, hprevious⟩ :
      ∃ r message last found regex, Rule.compile? "tell" tellRule ∅ ∅ = .ok r ∧
        Target.ofText? "Tell Fred about cats!" [] = .ok message ∧
        Target.ofText? "Shall I help?" [] = .ok last ∧ r.match? message [last] {} = some found ∧
        r.pattern.regex? {} = some regex ∧ r.pattern.memos = 3 ∧ r.previous.memos = 1 :=
    ⟨_, _, _, _, _, rfl, rfl, rfl, rfl, rfl, rfl, rfl⟩
  obtain ⟨hnumbers, hentries⟩ := memo_numbering hr
  obtain ⟨-, hlength, hpattern, hreply⟩ := hentries message [last] {} found hfound
  have hindices := (hnumbers r.pattern List.mem_cons_self {} regex hregex).numbers
  rw [hmemos] at hindices hlength hpattern
  rw [hprevious] at hlength hreply
  obtain ⟨reply, ⟨⟩, hlastEntries⟩ := hreply 0 (by decide)
  exact ⟨r, message, last, found, regex, hr, hmessage, hlast, hfound, hregex, hindices, hlength,
    hpattern 1 (by decide), hlastEntries⟩

end Example

end Rule

end Repartee
