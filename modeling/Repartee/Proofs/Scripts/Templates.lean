import Repartee.Proofs.Engine.Checks
import Repartee.Scripts.Builtin

/-!
# What the scripts say

Every handler of the scripts returns templates for what its own rule remembers. The names that users
give are escaped, and the values of the variables of the bot are put into templates as they are, so
these have to be without braces (`Plain`). All handlers keep it that way, since none of them gives
the bot a value that comes from a message.
-/

namespace Repartee.Scripts

open Handling Template

/-- The values of the variables are shown without braces. -/
def Plain (bot : Variables) : Prop :=
  ∀ name value, bot.get? name = some value → NoBraces value.render

section Plain

variable {bot : Variables} {name : String}

theorem plain_empty : Plain ∅ :=
  fun _ _ h => by cases h

theorem Plain.insert (h : Plain bot) {value : Value} (hvalue : NoBraces value.render) :
    Plain (bot.insert name value) := by
  intro other value' hother
  rw [Table.get?_insert] at hother
  split at hother
  · exact Option.some.inj hother ▸ hvalue
  · exact h other value' hother

theorem Plain.insertText (h : Plain bot) {cs : List Char} (hcs : isPlain cs = true) :
    Plain (bot.insert name (.text (String.ofList cs))) :=
  h.insert (noBraces_ofList hcs)

theorem yields_botText (name : String) : Yields Plain NoBraces (Memory.botText name) := by
  intro m hm
  refine ⟨?_, hm⟩
  rw [result_botText]
  cases hvalue : m.bot.get? name with
  | none => exact noBraces_ofList rfl
  | some value => exact hm name value hvalue

theorem yields_setBot {value : Value} (h : NoBraces value.render) :
    Yields Plain (fun _ => True) (Memory.setBot name value) :=
  .setBot fun _ hbot => hbot.insert h

theorem noBraces_cons {cs : List Char} {items : List String} (h : isPlain cs = true)
    (hitems : ∀ x ∈ items, NoBraces x) : ∀ x ∈ String.ofList cs :: items, NoBraces x :=
  List.forall_mem_cons.mpr ⟨noBraces_ofList h, hitems⟩

theorem yields_choose {items : List String} (x : String) (hitems : ∀ item ∈ items, NoBraces item)
    (hx : NoBraces x) :
    Yields Plain (fun choice => NoBraces (choice.getD x)) (Memory.choose items) :=
  .choose x hitems hx

end Plain

/-! ## Entries of the match -/

section Slots

variable {n m : Nat}

/-- The place of what a memo of the pattern has remembered of the message. -/
theorem fills_memo {key : String} {i : Nat} (hkey : key ∈ Match.memoKeys "" i)
    (hplain : NoBraces key) (hi : i < n) : Template.Fills (Match.keysFor n m) (slot key) :=
  fills_slot (List.mem_append_left _ (List.mem_flatMap.mpr ⟨i, List.mem_range.mpr hi, hkey⟩)) hplain

theorem fills_match0 : Template.Fills (Match.keysFor (n + 1) m) (slot "match0") :=
  fills_memo (i := 0) (by decide) (noBraces_ofList rfl) (by omega)

theorem fills_match1 : Template.Fills (Match.keysFor (n + 2) m) (slot "match1") :=
  fills_memo (i := 1) (by decide) (noBraces_ofList rfl) (by omega)

theorem fills_rawMatch0 : Template.Fills (Match.keysFor (n + 1) m) (slot "raw_match0") :=
  fills_memo (i := 0) (by decide) (noBraces_ofList rfl) (by omega)

/-- The place of what a memo has remembered of the reply before. -/
theorem fills_replyMatch0 : Template.Fills (Match.keysFor n (m + 1)) (slot "reply_match0") := by
  refine fills_slot (List.mem_append_right _ (List.mem_flatMap.mpr ⟨0, ?_, ?_⟩)) ?_
  · exact List.mem_range.mpr (by omega)
  · decide
  · exact noBraces_ofList rfl

end Slots

/-! ## Handlers -/

section Handlers

variable {keys : List String}

theorem fills_always {reply : Reply} (h : reply.Fills keys) :
    (Handler.always reply).Fills Plain keys :=
  fun _ => .pure h

/-- A template for these entries is all that the handler replies. -/
theorem yields_text {template : String} (h : Template.Fills keys template) :
    Yields Plain (Reply.Fills keys) (pure (.text template)) :=
  .pure (List.forall_mem_singleton.mpr h)

theorem yields_plain {template : String} (h : NoBraces template) :
    Yields Plain (Reply.Fills keys) (pure (.text template)) :=
  yields_text (fills_of_noBraces h)

/-! ### The tour -/

theorem fills_randomHelp : randomHelp.Fills Plain keys := by
  have hitems : ∀ x ∈ helpSubjects, NoBraces x :=
    noBraces_cons rfl (noBraces_cons rfl (noBraces_cons rfl (List.forall_mem_nil _)))
  have hchoice := yields_choose "fun stuff" hitems (noBraces_ofList rfl)
  refine fun c => .bind hchoice fun _ hsubject => ?_
  exact yields_plain ((NoBraces.append (noBraces_ofList rfl) hsubject).append (noBraces_ofList rfl))

theorem fills_sayRandom : sayRandom.Fills Plain keys := by
  have hitems : ∀ x ∈ ["it's fun", "potato"], NoBraces x :=
    noBraces_cons rfl (noBraces_cons rfl (List.forall_mem_nil _))
  have hchoice := yields_choose "potato" hitems (noBraces_ofList rfl)
  refine fun c => .bind hchoice fun _ hreason => ?_
  exact yields_plain ((NoBraces.append (noBraces_ofList rfl) hreason).append (noBraces_ofList rfl))

theorem fills_learnName : learnName.Fills Plain keys := by
  refine fun c => .bind (.of_bot fun _ => rfl) fun _ _ => yields_text ?_
  exact fills_around (noBraces_ofList rfl) (fills_escapeBraces _) (noBraces_ofList rfl)

theorem fills_recallName : recallName.Fills Plain keys := by
  refine fun c => .bind .get fun m _ => ?_
  cases m.user.get? "name" with
  | none => exact yields_plain (noBraces_ofList rfl)
  | some value =>
    have haround : ∀ before : String, NoBraces before →
        Template.Fills keys (before ++ escapeBraces value.render ++ ".") := fun before hbefore =>
      fills_around hbefore (fills_escapeBraces _) (noBraces_ofList rfl)
    refine .pure (List.forall_mem_cons.mpr ⟨haround _ (noBraces_ofList rfl), ?_⟩)
    exact List.forall_mem_singleton.mpr (haround _ (noBraces_ofList rfl))

/-! ### The hokey pokey -/

theorem noBraces_nextBodyPart (part : String) : NoBraces (nextBodyPart part) := by
  unfold nextBodyPart
  split <;> exact noBraces_ofList rfl

theorem fills_ifDanced {yes no : String} (hyes : NoBraces yes) (hno : NoBraces no) :
    (ifDanced yes no).Fills Plain keys := by
  refine fun c => .bind .get fun m _ => yields_plain ?_
  split
  · exact hyes
  · exact hno

theorem fills_getInMood {mood content : String} (hmood : NoBraces mood)
    (hcontent : NoBraces content) : (getInMood mood content).Fills Plain keys :=
  fun _ => .bind (yields_setBot hmood) fun _ _ => yields_plain hcontent

theorem fills_tellMood : tellMood.Fills Plain keys :=
  fun _ => .bind (yields_botText _) fun _ hmood =>
    yields_plain ((NoBraces.append (noBraces_ofList rfl) hmood).append (noBraces_ofList rfl))

theorem fills_greetByMood : greetByMood.Fills Plain keys := by
  refine fun c => .bind (yields_botText _) fun _ _ => yields_plain ?_
  split <;> exact noBraces_ofList rfl

theorem fills_tellBodyPart : tellBodyPart.Fills Plain keys :=
  fun _ => .bind (yields_botText _) fun _ hpart =>
    yields_plain ((NoBraces.append (noBraces_ofList rfl) hpart).append (noBraces_ofList rfl))

theorem fills_backToFirstPart : backToFirstPart.Fills Plain keys :=
  fun _ => .bind (yields_setBot (noBraces_ofList rfl)) fun _ _ => yields_plain (noBraces_ofList rfl)

theorem fills_tellFollowingPart : tellFollowingPart.Fills Plain keys := by
  refine fun c => .bind (yields_botText _) fun part hpart => yields_plain ?_
  exact (((NoBraces.append (noBraces_ofList rfl) hpart).append (noBraces_ofList rfl)).append
    (noBraces_nextBodyPart part)).append (noBraces_ofList rfl)

theorem fills_skipPart : skipPart.Fills Plain keys := by
  refine fun c => .bind (yields_botText _) fun part _ => ?_
  refine .bind (yields_setBot (noBraces_nextBodyPart part)) fun _ _ => yields_plain ?_
  exact (NoBraces.append (noBraces_ofList rfl) (noBraces_nextBodyPart part)).append
    (noBraces_ofList rfl)

theorem fills_danceOn : danceOn.Fills Plain keys := by
  refine fun c => .bind (yields_botText _) fun part hpart => ?_
  refine .bind (yields_setBot (noBraces_ofList rfl)) fun _ _ => ?_
  refine .bind (yields_setBot (noBraces_nextBodyPart part)) fun _ _ => yields_plain ?_
  exact (NoBraces.append (noBraces_ofList rfl) hpart).append (noBraces_ofList rfl)

theorem fills_goDancing : goDancing.Fills Plain keys :=
  fun _ => .bind (.of_bot fun _ => rfl) fun _ _ => yields_plain (noBraces_ofList rfl)

/-! ### The dance floor -/

theorem fills_leaveFloor : leaveFloor.Fills Plain keys :=
  fun _ => .bind (.of_bot fun _ => rfl) fun _ _ => yields_plain (noBraces_ofList rfl)

/-! ### The waterworks -/

theorem yields_stall : Yields Plain NoBraces stall := by
  have hstalls : ∀ x ∈ stalls, NoBraces x :=
    noBraces_cons rfl (noBraces_cons rfl (noBraces_cons rfl (List.forall_mem_nil _)))
  exact .bind (yields_choose "" hstalls (noBraces_ofList rfl)) fun _ hchoice => .pure hchoice

/-- The template, and something to bridge the time. -/
theorem yields_stalled {template : String} (h : Template.Fills keys template) :
    Yields Plain (Reply.Fills keys) (do return .text (template ++ (← stall))) :=
  .bind yields_stall fun _ hstall => yields_text (h.append (fills_of_noBraces hstall))

section Valve

variable (hvalve : Template.Fills keys (slot "match0"))

include hvalve

theorem fills_openMain : openMain.Fills Plain keys := by
  have haround : ∀ {before after : String}, NoBraces before → NoBraces after →
      Template.Fills keys (before ++ slot "match0" ++ after) := fun hbefore hafter =>
    fills_around hbefore hvalve hafter
  refine fun c => .bind (yields_botText _) fun _ _ => ?_
  split
  · exact yields_text (haround (noBraces_ofList rfl) (noBraces_ofList rfl))
  refine .bind (yields_botText _) fun _ _ => ?_
  split
  · exact yields_text (haround (noBraces_ofList rfl) (noBraces_ofList rfl))
  · exact .bind (yields_setBot (noBraces_ofList rfl)) fun _ _ =>
      yields_stalled (haround (noBraces_ofList rfl) (noBraces_ofList rfl))

theorem fills_openDrain : openDrain.Fills Plain keys := by
  refine fun c => .bind (yields_botText _) fun _ _ => ?_
  split
  · exact yields_plain (noBraces_ofList rfl)
  · exact .bind (yields_setBot (noBraces_ofList rfl)) fun _ _ =>
      yields_stalled (fills_around (noBraces_ofList rfl) hvalve (noBraces_ofList rfl))

theorem fills_closeValve {valve beginning : String} (h : NoBraces beginning) :
    (closeValve valve beginning).Fills Plain keys :=
  fun _ => .bind (yields_setBot (noBraces_ofList rfl)) fun _ _ =>
    yields_stalled (fills_around (h.append (noBraces_ofList rfl)) hvalve (noBraces_ofList rfl))

end Valve

theorem fills_turnOn : turnOn.Fills Plain keys := by
  refine fun c => .bind (yields_botText _) fun _ _ => ?_
  split
  · exact yields_plain (noBraces_ofList rfl)
  refine .bind (yields_botText _) fun _ _ => ?_
  split
  · exact yields_plain (noBraces_ofList rfl)
  refine .bind (yields_botText _) fun _ _ => ?_
  split
  · exact .bind (yields_setBot (noBraces_ofList rfl)) fun _ _ => yields_plain (noBraces_ofList rfl)
  · exact yields_plain (noBraces_ofList rfl)

theorem fills_drainHouse : drainHouse.Fills Plain keys := by
  refine fun c => .bind (yields_botText _) fun _ _ => ?_
  split
  · exact yields_plain (noBraces_ofList rfl)
  refine .bind (yields_botText _) fun _ _ => ?_
  split
  · exact .bind (yields_setBot (noBraces_ofList rfl)) fun _ _ => yields_plain (noBraces_ofList rfl)
  · exact yields_plain (noBraces_ofList rfl)

theorem fills_tellStatus {device beginning : String} (h : Template.Fills keys beginning) :
    (tellStatus device beginning).Fills Plain keys := by
  refine fun c => .bind (yields_botText _) fun _ hstatus => yields_text ?_
  exact ((h.text rfl).append (fills_of_noBraces hstatus)).text rfl

theorem fills_setSensor {status : String} (h : NoBraces status) :
    (setSensor status).Fills Plain keys :=
  fun _ => .bind (yields_setBot h) fun _ _ =>
    yields_plain ((NoBraces.append (noBraces_ofList rfl) h).append (noBraces_ofList rfl))

end Handlers

end Repartee.Scripts
