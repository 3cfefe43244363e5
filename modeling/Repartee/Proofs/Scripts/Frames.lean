import Repartee.Proofs.Handling
import Repartee.Scripts.Builtin

/-!
# Which variables the scripts write

The tour and the dance floor write no variables of the bot, and the hokey pokey writes three of its
own, when it is loaded as well as in its handlers.
-/

namespace Repartee.Scripts

open Handling

variable {names : List String} (c : Context)

@[simp] theorem writes_always (reply : Reply) : Writes names (Handler.always reply c) :=
  .pure _

@[simp] theorem writes_say (content : String) : Writes names (Handler.say content c) :=
  writes_always c _

@[simp] theorem writes_sayOneOf (options : List String) :
    Writes names (Handler.sayOneOf options c) :=
  writes_always c _

/-! ## The tour -/

@[simp] theorem writes_randomHelp : Writes names (randomHelp c) :=
  .bind (.choose _) fun _ => .pure _

@[simp] theorem writes_sayRandom : Writes names (sayRandom c) :=
  .bind (.choose _) fun _ => .pure _

@[simp] theorem writes_learnName : Writes names (learnName c) :=
  .of_bot fun _ => rfl

@[simp] theorem writes_recallName : Writes names (recallName c) := by
  refine .bind (.of_bot fun _ => rfl) fun m => ?_
  cases m.user.get? "name" with
  | none => exact .pure _
  | some value => exact .pure _

theorem writes_tourRules : ∀ r ∈ tourRules, ∀ c, Writes [] (r.handler c) := by
  simp [tourRules]

/-! ## The dance floor -/

@[simp] theorem writes_leaveFloor : Writes names (leaveFloor c) :=
  .of_bot fun _ => rfl

theorem writes_danceFloorRules : ∀ r ∈ danceFloorRules, ∀ c, Writes [] (r.handler c) := by
  simp [danceFloorRules]

/-! ## The hokey pokey -/

/-- The variables of the bot that the hokey pokey writes. -/
def hokeyPokeyNames : List String :=
  ["mood", "bodypart", "danced"]

@[simp] theorem writes_ifDanced (yes no : String) : Writes names (ifDanced yes no c) :=
  .of_bot fun _ => rfl

@[simp] theorem writes_getInMood (mood content : String) :
    Writes hokeyPokeyNames (getInMood mood content c) :=
  .bind (.setBot (by decide) _) fun _ => .pure _

@[simp] theorem writes_tellMood : Writes names (tellMood c) :=
  .of_bot fun _ => rfl

@[simp] theorem writes_greetByMood : Writes names (greetByMood c) :=
  .of_bot fun _ => rfl

@[simp] theorem writes_tellBodyPart : Writes names (tellBodyPart c) :=
  .of_bot fun _ => rfl

@[simp] theorem writes_backToFirstPart : Writes hokeyPokeyNames (backToFirstPart c) :=
  .bind (.setBot (by decide) _) fun _ => .pure _

@[simp] theorem writes_tellFollowingPart : Writes names (tellFollowingPart c) :=
  .of_bot fun _ => rfl

@[simp] theorem writes_skipPart : Writes hokeyPokeyNames (skipPart c) :=
  .bind (.of_bot fun _ => rfl) fun _ =>
    .bind (.setBot (by decide) _) fun _ => .pure _

@[simp] theorem writes_danceOn : Writes hokeyPokeyNames (danceOn c) :=
  .bind (.of_bot fun _ => rfl) fun _ =>
    .bind (.setBot (by decide) _) fun _ =>
      .bind (.setBot (by decide) _) fun _ => .pure _

@[simp] theorem writes_goDancing : Writes names (goDancing c) :=
  .of_bot fun _ => rfl

theorem writes_hokeyPokeyRules :
    ∀ r ∈ hokeyPokeyRules, ∀ c, Writes hokeyPokeyNames (r.handler c) := by
  simp [hokeyPokeyRules]

theorem get?_setup_hokeyPokey (count : Nat) (bot : Variables) {name : String}
    (h : name ∉ hokeyPokeyNames) : (hokeyPokey.setup count bot).get? name = bot.get? name := by
  simp only [hokeyPokeyNames, List.mem_cons, List.not_mem_nil, or_false, not_or] at h
  obtain ⟨hmood, hbodypart, hdanced⟩ := h
  show (((bot.insert _ _).insert _ _).insert _ _).get? name = _
  rw [Table.get?_insert, if_neg hdanced, Table.get?_insert, if_neg hbodypart, Table.get?_insert,
    if_neg hmood]

end Repartee.Scripts
