import Repartee.Proofs.Engine.Expansion
import Repartee.Proofs.Reference
import Repartee.Text.Bytes

/-!
# Replies in the place of references

The references in the output of a rule are replaced in one pass over its pieces. This comes to the
same as finding the places of all references first, then the replies to them, and then putting the
replies in from the back to the front, so that the places in front stay valid
(`Session.expand_eq_expandInPlace`).

Either way, the replies are those to the references of the text from left to right, each found in
the session that the one before has left, and they stand between the plain stretches of the text,
which are said as they are. The first reference that has no reply is the last one that is searched
for (`Session.expand_splices`).
-/

namespace Repartee

/-! ## Pieces of a text that is cut -/

namespace Piece

theorem references_append (pieces rest : List Piece) :
    references (pieces ++ rest) = references pieces ++ references rest := by
  induction pieces with
  | nil => rfl
  | cons piece pieces ih =>
    cases piece with
    | plain c => exact ih
    | reference message => exact congrArg (message :: ·) ih

theorem references_map_plain (cs : List Char) : references (cs.map plain) = [] := by
  induction cs with
  | nil => rfl
  | cons c cs ih => exact ih

theorem references_ofCuts (cuts : List (List Char × String)) (last : List Char) :
    references (ofCuts cuts last) = cuts.map Prod.snd := by
  induction cuts with
  | nil => exact references_map_plain last
  | cons cut cuts ih =>
    rw [ofCuts_cons, references_append, references_map_plain, references, ih]
    rfl

theorem splice_map_plain_append (cs : List Char) (pieces : List Piece) (replies : List String) :
    splice (cs.map plain ++ pieces) replies = cs ++ splice pieces replies := by
  induction cs with
  | nil => rfl
  | cons c cs ih => exact congrArg (c :: ·) ih

theorem splice_ofCuts {cuts : List (List Char × String)} (last : List Char) {replies : List String}
    (h : replies.length = cuts.length) : splice (ofCuts cuts last) replies =
      ((cuts.zip replies).flatMap fun x => x.1.1 ++ x.2.toList) ++ last := by
  induction cuts generalizing replies with
  | nil =>
    obtain rfl := List.length_eq_zero_iff.mp h
    have hlast := splice_map_plain_append last [] []
    rw [List.append_nil] at hlast
    exact hlast.trans (List.append_nil last)
  | cons cut cuts ih =>
    cases replies with
    | nil => cases h
    | cons reply replies =>
      rw [ofCuts_cons, splice_map_plain_append, splice, ih (Nat.succ.inj h), List.zip_cons_cons,
        List.flatMap_cons, List.append_assoc, List.append_assoc]

/-- The text that is made of the pieces. -/
def source : List Piece → List Char
  | [] => []
  | plain c :: rest => c :: source rest
  | reference message :: rest => '<' :: (message.toList ++ '>' :: source rest)

theorem source_map_plain_append (cs : List Char) (pieces : List Piece) :
    source (cs.map plain ++ pieces) = cs ++ source pieces := by
  induction cs with
  | nil => rfl
  | cons c cs ih => exact congrArg (c :: ·) ih

theorem Cuts.source_eq {cs last : List Char} {cuts : List (List Char × String)}
    (h : Cuts cs cuts last) : source (ofCuts cuts last) = cs := by
  induction h with
  | @plain last unmarked =>
    have hlast := source_map_plain_append last []
    rw [List.append_nil] at hlast
    exact hlast.trans (List.append_nil last)
  | reference unmarked nearest inline tail ih =>
    rw [ofCuts_cons, source_map_plain_append, source, ih]

theorem source_split (text : String) : source (split text) = text.toList := by
  obtain ⟨cuts, last, hcuts⟩ := exists_cuts text.toList
  rw [split, hcuts.piecesAfter_eq, hcuts.source_eq]

/-! ## Replacing from the back to the front -/

/-- The places of the references among the pieces, with their brackets, in bytes. The first piece
begins at `start`. -/
def spans : Nat → List Piece → List (Nat × Nat)
  | _, [] => []
  | start, plain c :: rest => spans (start + Text.byteSize [c]) rest
  | start, reference message :: rest =>
    let stop := start + Text.byteSize ('<' :: (message.toList ++ ['>']))
    (start, stop) :: spans stop rest

/-- The text with another one in the place of a stretch of it. -/
def replaceSpan (span : Nat × Nat) (text : List Char) (cs : List Char) : List Char :=
  Text.takeBytes span.1 cs ++ text ++ Text.dropBytes span.2 cs

theorem replaceSpan_byteSize (front old new rest : List Char) :
    replaceSpan (Text.byteSize front, Text.byteSize (front ++ old)) new (front ++ old ++ rest) =
      front ++ new ++ rest := by
  unfold replaceSpan
  rw [Text.dropBytes_byteSize_append, List.append_assoc front old rest,
    Text.takeBytes_byteSize_append]

/-- The replies are put in from the last one to the first one. What is in front of the pieces stays
as it is. -/
theorem foldr_replaceSpan {pieces : List Piece} {replies : List String}
    (h : replies.length = (references pieces).length) (front : List Char) :
    ((spans (Text.byteSize front) pieces).zip replies).foldr
        (fun edit => replaceSpan edit.1 edit.2.toList) (front ++ source pieces) =
      front ++ splice pieces replies := by
  induction pieces generalizing front replies with
  | nil => rfl
  | cons piece rest ih =>
    cases piece with
    | plain c =>
      have hrest := ih h (front ++ [c])
      rw [Text.byteSize_append, List.append_assoc, List.append_assoc] at hrest
      exact hrest
    | reference message =>
      cases replies with
      | nil => cases h
      | cons reply replies =>
        have hrest := ih (Nat.succ.inj h) (front ++ ('<' :: (message.toList ++ ['>'])))
        have hsource : front ++ source (reference message :: rest) =
            front ++ ('<' :: (message.toList ++ ['>'])) ++ source rest := by
          simp [source]
        rw [spans, ← Text.byteSize_append, List.zip_cons_cons, List.foldr_cons, hsource, hrest,
          replaceSpan_byteSize, splice, List.append_assoc]

end Piece

namespace Session

/-! ## What becomes of a result -/

section Map

variable {α β : Type} {action : Answering α} {f : α → β} {s t : Session}

theorem map_eq_ok_iff {b : β} :
    (f <$> action) s = .ok b t ↔ ∃ a, action s = .ok a t ∧ f a = b := by
  simp only [Functor.map, EStateM.map]
  cases action s <;> simp [and_comm]

theorem map_eq_error_iff {e : Error} : (f <$> action) s = .error e t ↔ action s = .error e t := by
  simp only [Functor.map, EStateM.map]
  cases action s <;> simp

theorem map_congr {g : α → β} (h : ∀ a t, action s = .ok a t → f a = g a) :
    (f <$> action) s = (g <$> action) s := by
  simp only [Functor.map, EStateM.map]
  cases haction : action s with
  | error e t => rfl
  | ok a t => exact congrArg (EStateM.Result.ok · t) (h a t haction)

end Map

variable {replyTo : String → Answering String}

/-! ## Replies, one after the other -/

/-- The messages are answered in their order, each in the session that the one before has left. -/
inductive Replies (replyTo : String → Answering String) :
    Session → List String → List String → Session → Prop
  | nil {s : Session} : Replies replyTo s [] [] s
  | cons {s t u : Session} {message reply : String} {messages replies : List String}
      (first : replyTo message s = .ok reply t) (rest : Replies replyTo t messages replies u) :
      Replies replyTo s (message :: messages) (reply :: replies) u

theorem Replies.length_eq {s t : Session} {messages replies : List String}
    (h : Replies replyTo s messages replies t) : replies.length = messages.length := by
  induction h with
  | nil => rfl
  | cons first rest ih => exact congrArg Nat.succ ih

theorem mapM_eq_ok_iff {messages replies : List String} {s t : Session} :
    (messages.mapM replyTo) s = .ok replies t ↔ Replies replyTo s messages replies t := by
  induction messages generalizing s replies with
  | nil =>
    rw [List.mapM_nil]
    constructor
    · intro h
      cases h
      exact .nil
    · intro h
      cases h
      rfl
  | cons message messages ih =>
    rw [List.mapM_cons]
    constructor
    · intro h
      obtain ⟨reply, u, hfirst, h⟩ := exists_of_bind_eq_ok h
      obtain ⟨replies', v, hrest, h⟩ := exists_of_bind_eq_ok h
      cases h
      exact .cons hfirst (ih.mp hrest)
    · intro h
      cases h with
      | cons hfirst hrest =>
        rw [bind_of_ok hfirst, bind_of_ok (ih.mpr hrest)]
        rfl

/-- One of the messages has no reply, and those in front of it have. -/
theorem mapM_eq_error_iff {messages : List String} {s t : Session} {e : Error} :
    (messages.mapM replyTo) s = .error e t ↔ ∃ front message later replies u,
      messages = front ++ message :: later ∧ Replies replyTo s front replies u ∧
        replyTo message u = .error e t := by
  induction messages generalizing s with
  | nil =>
    rw [List.mapM_nil]
    constructor
    · intro h
      cases h
    · rintro ⟨front, message, later, replies, u, hsplit, -⟩
      cases front <;> cases hsplit
  | cons message messages ih =>
    rw [List.mapM_cons]
    constructor
    · intro h
      cases hfirst : replyTo message s with
      | error e' t' =>
        rw [bind_of_error hfirst] at h
        cases h
        exact ⟨[], message, messages, [], s, rfl, .nil, hfirst⟩
      | ok reply u =>
        rw [bind_of_ok hfirst] at h
        cases hrest : (messages.mapM replyTo) u with
        | error e' t' =>
          rw [bind_of_error hrest] at h
          cases h
          obtain ⟨front, message', later, replies, v, rfl, hfront, hlast⟩ := ih.mp hrest
          exact ⟨message :: front, message', later, reply :: replies, v, rfl, .cons hfirst hfront,
            hlast⟩
        | ok replies t' =>
          rw [bind_of_ok hrest] at h
          cases h
    · rintro ⟨front, message', later, replies, u, hsplit, hfront, hlast⟩
      cases hfront with
      | nil =>
        obtain ⟨rfl, rfl⟩ := List.cons.inj hsplit
        exact bind_of_error hlast
      | cons hfirst hfront =>
        obtain ⟨rfl, rfl⟩ := List.cons.inj hsplit
        rw [bind_of_ok hfirst]
        exact bind_of_error (ih.mpr ⟨_, message', later, _, u, rfl, hfront, hlast⟩)

/-! ## Both ways to put them in -/

/-- All replies are found before the first of them is put in. -/
theorem expand_eq (replyTo : String → Answering String) (pieces : List Piece) :
    expand replyTo pieces =
      Piece.splice pieces <$> (Piece.references pieces).mapM replyTo := by
  induction pieces with
  | nil => rfl
  | cons piece rest ih =>
    cases piece with
    | plain c => simp [expand, Piece.references, Piece.splice, ih]
    | reference message => simp [expand, Piece.references, Piece.splice, ih]

/-- Finds the places of the references in a text, then the replies to them, and puts these in from
the back to the front. -/
def expandInPlace (replyTo : String → Answering String) (text : String) : Answering String := do
  let pieces := Piece.split text
  let replies ← (Piece.references pieces).mapM replyTo
  return String.ofList <| ((Piece.spans 0 pieces).zip replies).foldr
    (fun edit => Piece.replaceSpan edit.1 edit.2.toList) text.toList

theorem expand_eq_expandInPlace (replyTo : String → Answering String) (text : String) :
    String.ofList <$> expand replyTo (Piece.split text) = expandInPlace replyTo text := by
  unfold expandInPlace
  simp only [bind_pure_comp]
  rw [expand_eq, ← comp_map]
  funext s
  refine map_congr fun replies t h => ?_
  have hlength := (mapM_eq_ok_iff.mp h).length_eq
  have hreplaced := Piece.foldr_replaceSpan hlength []
  rw [List.nil_append, List.nil_append, Piece.source_split] at hreplaced
  exact congrArg String.ofList hreplaced.symm

/-- A reply is a search with the references in its output put in. -/
theorem replyAt_succ [Pattern.SizeLimit] (scene : Scene) (levels depth : Nat) (input : String) :
    replyAt scene (levels + 1) depth input =
      search scene depth input >>= expandInPlace (replyAt scene levels (depth + 1)) := by
  rw [replyAt]
  refine bind_congr fun output => ?_
  rw [← expand_eq_expandInPlace]
  exact bind_pure_comp _ _

/-! ## The first reference that has no reply -/

section Searches

variable {searchesFor : String → Session → List Search}

theorem searchesOf_eq_references (pieces : List Piece) (s : Session) :
    searchesOf searchesFor replyTo pieces s =
      searchesOf searchesFor replyTo ((Piece.references pieces).map .reference) s := by
  induction pieces generalizing s with
  | nil => rfl
  | cons piece rest ih =>
    cases piece with
    | plain c => exact ih s
    | reference message =>
      rw [Piece.references, List.map_cons, searchesOf, searchesOf]
      cases replyTo message s with
      | error e t => rfl
      | ok reply t => exact congrArg (searchesFor message s ++ ·) (ih t)

/-- Nothing is searched for behind a reference that has no reply. -/
theorem searchesOf_of_error {front replies : List String} {message : String} {s t u : Session}
    {e : Error} (hfront : Replies replyTo s front replies u)
    (hlast : replyTo message u = .error e t) (later : List String) :
    searchesOf searchesFor replyTo ((front ++ message :: later).map .reference) s =
      searchesOf searchesFor replyTo ((front ++ [message]).map .reference) s := by
  induction hfront with
  | nil =>
    rw [List.nil_append, List.nil_append, List.map_cons, List.map_cons, searchesOf, searchesOf,
      hlast]
  | @cons s _ _ message' _ _ _ first rest ih =>
    rw [List.cons_append, List.cons_append, List.map_cons, List.map_cons, searchesOf, searchesOf,
      first]
    exact congrArg (searchesFor message' s ++ ·) (ih hlast)

end Searches

/-- There is one way to cut a text at its references. What the text comes to is its plain stretches
as they are, and between them the replies to the references, which are found from left to right, one
level deeper, each in the session that the one before has left. If one of the references has no
reply, this is the error, and none behind it is searched for. All of this holds just as well where
the replies are put in from the back to the front, and this is what becomes of the output of every
search. -/
theorem expand_splices [Pattern.SizeLimit] (scene : Scene) (levels depth : Nat) (text : String)
    (s : Session) :
    let replyTo := replyAt scene levels (depth + 1)
    (∀ input, replyAt scene (levels + 1) depth input =
      search scene depth input >>= expandInPlace replyTo) ∧
    String.ofList <$> expand replyTo (Piece.split text) = expandInPlace replyTo text ∧
    ∃ cuts last,
      (∀ cuts' last', Piece.Cuts text.toList cuts' last' ↔ cuts' = cuts ∧ last' = last) ∧
      (∀ chars t, expand replyTo (Piece.split text) s = .ok chars t ↔
        ∃ replies, Replies replyTo s (cuts.map Prod.snd) replies t ∧
          chars = ((cuts.zip replies).flatMap fun x => x.1.1 ++ x.2.toList) ++ last) ∧
      ∀ e t, expand replyTo (Piece.split text) s = .error e t ↔
        ∃ front message later replies u, cuts.map Prod.snd = front ++ message :: later ∧
          Replies replyTo s front replies u ∧ replyTo message u = .error e t ∧
          searchesOf (searchesAt scene levels (depth + 1)) replyTo (Piece.split text) s =
            searchesOf (searchesAt scene levels (depth + 1)) replyTo
              ((front ++ [message]).map .reference) s := by
  intro replyTo
  obtain ⟨cuts, last, hcuts⟩ := Piece.exists_cuts text.toList
  have hpieces : Piece.split text = Piece.ofCuts cuts last := hcuts.piecesAfter_eq
  have hreferences : Piece.references (Piece.split text) = cuts.map Prod.snd := by
    rw [hpieces, Piece.references_ofCuts]
  refine ⟨replyAt_succ scene levels depth, expand_eq_expandInPlace replyTo text, cuts, last,
    fun cuts' last' => ⟨fun h => h.unique hcuts, ?_⟩, fun chars t => ?_, fun e t => ?_⟩
  · rintro ⟨rfl, rfl⟩
    exact hcuts
  · rw [expand_eq, map_eq_ok_iff, hreferences]
    refine exists_congr fun replies => ?_
    rw [mapM_eq_ok_iff]
    refine and_congr_right fun h => ?_
    have hlength := h.length_eq
    rw [List.length_map] at hlength
    rw [hpieces, Piece.splice_ofCuts last hlength, eq_comm]
  · rw [expand_eq, map_eq_error_iff, hreferences, mapM_eq_error_iff]
    constructor
    · rintro ⟨front, message, later, replies, u, hsplit, hfront, hlast⟩
      refine ⟨front, message, later, replies, u, hsplit, hfront, hlast, ?_⟩
      rw [searchesOf_eq_references, hreferences, hsplit]
      exact searchesOf_of_error hfront hlast later
    · rintro ⟨front, message, later, replies, u, hsplit, hfront, hlast, -⟩
      exact ⟨front, message, later, replies, u, hsplit, hfront, hlast⟩

/-- A reply is not read again, and where the second one goes does not depend on how long the first
one is. -/
example (s : Session) :
    expandInPlace (fun message => pure (message ++ "<ü>")) "é<a>, <bc>" s =
      .ok "éa<ü>, bc<ü>" s := by
  rfl

end Session

end Repartee
