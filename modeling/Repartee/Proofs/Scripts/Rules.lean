import Repartee.Proofs.Scripts.Templates

/-!
# The rules of the scripts

The patterns of all rules can be read, with references to nothing but alternates of the script and
variables of the user, and every rule answers with templates for the memos of its own patterns. The
rules are gone through by their names. How many memos there are is given with a pattern and checked
together with it. What is left at the end of each script are the rules without memos that always say
the same text.
-/

namespace Repartee.Scripts

open Template RuleDefinition

/-! ## Rules that always make the same reply -/

section Say

variable {keys names options : List String} {s t content name : String} {weight : Int} {n : Nat}
  {cs ds es : List Char}

theorem fills_say (h : Template.Fills keys content) : (Handler.say content).Fills Plain keys :=
  fills_always (List.forall_mem_singleton.mpr h)

theorem fills_sayOneOf (h : ∀ x ∈ options, Template.Fills keys x) :
    (Handler.sayOneOf options).Fills Plain keys :=
  fills_always h

theorem fills_cons (h : Template.Fills keys s) (hoptions : ∀ x ∈ options, Template.Fills keys x) :
    ∀ x ∈ s :: options, Template.Fills keys x :=
  List.forall_mem_cons.mpr ⟨h, hoptions⟩

/-- An entry between two texts that are written out. -/
theorem fills_entry (hcs : isPlain cs = true) (h : Template.Fills keys s)
    (hds : isPlain ds = true) :
    Template.Fills keys (String.ofList cs ++ s ++ String.ofList ds) :=
  fills_around (noBraces_ofList hcs) h (noBraces_ofList hds)

theorem fills_entries (hcs : isPlain cs = true) (h : Template.Fills keys s)
    (hds : isPlain ds = true) (h' : Template.Fills keys t) (hes : isPlain es = true) :
    Template.Fills keys (String.ofList cs ++ s ++ String.ofList ds ++ t ++ String.ofList es) :=
  ((fills_entry hcs h hds).append h').text hes

/-- A rule without memos in its pattern, and with no braces in what it says. -/
theorem proper_say (hpattern : Pattern.checkText .full (checkTree names 0) cs = true)
    (h : isPlain ds = true) : Proper Plain names
      { name, pattern := String.ofList cs, weight, handler := .say (String.ofList ds) } :=
  proper_of_pattern hpattern (fills_say (fills_ofList h))

theorem proper_sayOneOf (hpattern : Pattern.checkText .full (checkTree names 0) cs = true)
    (h : ∀ x ∈ options, Template.Fills (Match.keysFor 0 0) x) : Proper Plain names
      { name, pattern := String.ofList cs, weight, handler := .sayOneOf options } :=
  proper_of_pattern hpattern (fills_sayOneOf h)

end Say

/-! ## The tour -/

theorem proper_tourRules : ∀ d ∈ tourRules, d.Proper Plain ["colors"] := by
  -- the pieces of a template are not put together, since each is looked at by itself
  simp only [tourRules, List.forall_mem_cons, List.not_mem_nil,
    false_implies, implies_true, and_true, -String.reduceAppend]
  refine ⟨?randomHelp, ?star, ?_, ?howAreYou, ?saySomethingRandom, ?greetings, ?toldMeToSay,
    ?ageNumber, ?whoIs, ?_, ?_, ?_, ?excited, ?favoriteColor, ?_, ?_, ?_, ?_, ?whatColor,
    ?myThingColor, ?google, ?orWhatever, ?hello, ?_, ?myName, ?whatIsMyName, ?_⟩
  case randomHelp => exact proper_of_pattern (n := 0) rfl fills_randomHelp
  case star =>
    refine proper_sayOneOf rfl (fills_cons (fills_ofList rfl) ?_)
    exact fills_cons (fills_ofList rfl) (List.forall_mem_nil _)
  case howAreYou =>
    refine proper_sayOneOf rfl (fills_cons (fills_ofList rfl) (fills_cons (fills_ofList rfl) ?_))
    exact fills_cons (fills_ofList rfl) (fills_cons (fills_ofList rfl) (List.forall_mem_nil _))
  case saySomethingRandom => exact proper_of_pattern (n := 0) rfl fills_sayRandom
  case greetings =>
    refine proper_of_pattern (n := 0) rfl (fills_always (fills_cons (fills_ofList rfl) ?_))
    exact fills_cons (fills_ofList rfl) (fills_cons (fills_ofList rfl) (List.forall_mem_nil _))
  case toldMeToSay =>
    refine proper_of_pattern (n := 2) rfl (fills_sayOneOf ?_)
    refine fills_cons (fills_entries rfl fills_rawMatch0 rfl fills_match1 rfl) ?_
    refine fills_cons (fills_entries rfl fills_match1 rfl fills_rawMatch0 rfl) ?_
    exact List.forall_mem_nil _
  case ageNumber => exact proper_of_pattern (n := 1) rfl (fills_say (fills_match0.text rfl))
  case whoIs | excited | orWhatever =>
    exact proper_of_pattern (n := 1) rfl (fills_say (fills_entry rfl fills_match0 rfl))
  case favoriteColor =>
    refine proper_of_pattern (n := 2) rfl (fills_sayOneOf ?_)
    refine fills_cons (fills_entry rfl fills_match0 rfl) ?_
    refine fills_cons (fills_entry rfl fills_match1 rfl) ?_
    refine fills_cons (fills_entries rfl fills_match0 rfl fills_match1 rfl) ?_
    exact fills_cons (fills_entries rfl fills_match0 rfl fills_match1 rfl) (List.forall_mem_nil _)
  case whatColor | myThingColor =>
    refine proper_of_pattern (n := 2) rfl (fills_say ?_)
    exact fills_entries rfl fills_match1 rfl fills_match0 rfl
  case google => exact proper_of_pattern (n := 1) rfl (fills_say (fills_ofList rfl))
  case hello =>
    refine proper_sayOneOf rfl (fills_cons (fills_ofList rfl) ?_)
    exact fills_cons (fills_ofList rfl) (fills_cons (fills_ofList rfl) (List.forall_mem_nil _))
  case myName => exact proper_of_pattern (n := 1) rfl fills_learnName
  case whatIsMyName => exact proper_of_pattern (n := 0) rfl fills_recallName
  all_goals exact proper_say rfl rfl

/-! ## The hokey pokey -/

theorem proper_hokeyPokeyRules : ∀ d ∈ hokeyPokeyRules, d.Proper Plain [] := by
  simp only [hokeyPokeyRules, List.forall_mem_cons, List.not_mem_nil,
    false_implies, implies_true, and_true, -String.reduceAppend]
  refine ⟨?helpFunStuff, ?_, ?howAreYouDoing, ?getGrumpy, ?getHappy, ?hey, ?_, ?whosThere,
    ?punchline, ?putYourThingIn, ?whereInTheDance, ?backToTheRightFoot, ?whatComesNext,
    ?skipToTheNextOne, ?doTheHokeyPokey, ?haveYouDone, ?doYouKnow, ?goDancing⟩
  case helpFunStuff =>
    refine proper_sayOneOf rfl (fills_cons (fills_ofList rfl) ?_)
    exact fills_cons (fills_ofList rfl) (fills_cons (fills_ofList rfl) (List.forall_mem_nil _))
  case howAreYouDoing => exact proper_of_pattern (n := 0) rfl fills_tellMood
  case getGrumpy | getHappy =>
    refine proper_of_pattern (n := 0) rfl ?_
    exact fills_getInMood (noBraces_ofList rfl) (noBraces_ofList rfl)
  case hey => exact proper_of_pattern (n := 0) rfl fills_greetByMood
  case whosThere =>
    exact proper_of_both (n := 1) (m := 0) rfl rfl (fills_say (fills_rawMatch0.text rfl))
  case punchline =>
    exact proper_of_both (n := 1) (m := 0) rfl rfl (fills_say (fills_entry rfl fills_rawMatch0 rfl))
  case putYourThingIn =>
    refine proper_of_pattern (n := 1) rfl (fills_say ?_)
    exact fills_entries rfl fills_match0 rfl fills_match0 rfl
  case whereInTheDance => exact proper_of_pattern (n := 0) rfl fills_tellBodyPart
  case backToTheRightFoot => exact proper_of_pattern (n := 0) rfl fills_backToFirstPart
  case whatComesNext => exact proper_of_pattern (n := 0) rfl fills_tellFollowingPart
  case skipToTheNextOne => exact proper_of_pattern (n := 0) rfl fills_skipPart
  case doTheHokeyPokey => exact proper_of_pattern (n := 0) rfl fills_danceOn
  case haveYouDone | doYouKnow =>
    refine proper_of_pattern (n := 0) rfl ?_
    exact fills_ifDanced (noBraces_ofList rfl) (noBraces_ofList rfl)
  case goDancing => exact proper_of_pattern (n := 0) rfl fills_goDancing
  all_goals exact proper_say rfl rfl

/-! ## The dance floor -/

theorem proper_danceFloorRules : ∀ d ∈ danceFloorRules, d.Proper Plain [] := by
  simp only [danceFloorRules, List.forall_mem_cons, List.not_mem_nil,
    false_implies, implies_true, and_true, -String.reduceAppend]
  refine ⟨?danceMove, ?_, ?_, ?done, ?_⟩
  case danceMove =>
    refine proper_sayOneOf rfl (fills_cons (fills_ofList rfl) (fills_cons (fills_ofList rfl) ?_))
    exact fills_cons (fills_ofList rfl) (fills_cons (fills_ofList rfl) (List.forall_mem_nil _))
  case done => exact proper_of_pattern (n := 0) rfl fills_leaveFloor
  all_goals exact proper_say rfl rfl

/-! ## The waterworks -/

theorem proper_waterworksRules :
    ∀ d ∈ waterworksRules, d.Proper Plain ["mainvalve", "drainvalve", "anyvalve"] := by
  simp only [waterworksRules, List.forall_mem_cons, List.not_mem_nil,
    false_implies, implies_true, and_true, -String.reduceAppend]
  refine ⟨?helpValves, ?openMain, ?openDrain, ?closeMain, ?closeDrain, ?bothMentioned,
    ?oneMentioned, ?openClose, ?whichValve, ?waterOn, ?_, ?drain, ?sensorStatus, ?mainStatus,
    ?drainStatus, ?_, ?_, ?anyValveStatus, ?isValveOpen, ?sensorWet, ?sensorDry⟩
  case helpValves =>
    refine proper_sayOneOf rfl (fills_cons ((fills_ofList rfl).text rfl) ?_)
    refine fills_cons (fills_ofList rfl) (fills_cons ((fills_ofList rfl).text rfl) ?_)
    exact List.forall_mem_nil _
  case openMain => exact proper_of_pattern (n := 1) rfl (fills_openMain fills_match0)
  case openDrain => exact proper_of_pattern (n := 1) rfl (fills_openDrain fills_match0)
  case closeMain | closeDrain =>
    exact proper_of_pattern (n := 1) rfl (fills_closeValve fills_match0 (noBraces_ofList rfl))
  case bothMentioned =>
    refine proper_of_both (n := 1) (m := 0) rfl rfl (fills_sayOneOf ?_)
    refine fills_cons (fills_entry rfl fills_match0 rfl) ?_
    exact fills_cons (fills_entry rfl fills_match0 rfl) (List.forall_mem_nil _)
  case oneMentioned =>
    refine proper_of_both (n := 1) (m := 1) rfl rfl (fills_say ?_)
    exact fills_entries rfl fills_match0 rfl fills_replyMatch0 rfl
  case openClose | anyValveStatus | isValveOpen =>
    exact proper_of_pattern (n := 1) rfl (fills_say (fills_entry rfl fills_match0 rfl))
  case whichValve =>
    refine proper_of_both (n := 1) (m := 1) rfl rfl (fills_say ?_)
    exact fills_entries rfl fills_replyMatch0 rfl fills_match0 rfl
  case waterOn => exact proper_of_pattern (n := 0) rfl fills_turnOn
  case drain => exact proper_of_pattern (n := 0) rfl fills_drainHouse
  case sensorStatus => exact proper_of_pattern (n := 0) rfl (fills_tellStatus (fills_ofList rfl))
  case mainStatus | drainStatus =>
    exact proper_of_pattern (n := 1) rfl (fills_tellStatus ((fills_ofList rfl).append fills_match0))
  case sensorWet | sensorDry =>
    exact proper_of_pattern (n := 0) rfl (fills_setSensor (noBraces_ofList rfl))
  all_goals exact proper_say rfl rfl

end Repartee.Scripts
