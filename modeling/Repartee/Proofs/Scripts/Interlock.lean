import Repartee.Proofs.Engine.Handlers
import Repartee.Proofs.Scripts.Frames

/-!
# The interlock of the waterworks

There are four ways in which a handler of the scripts may change the valves (`Moves`): not at all,
by closing one, by opening the shutoff valve while the drain is not open and the sensor not wet, and
by opening the drain while the shutoff valve is not open. None of them leaves both valves open if
they were not (`Interlocked.moves`), so they are never both open in a house that began with a setup.
-/

namespace Repartee.Scripts

open Handling

def IsOpen (bot : Variables) (valve : String) : Prop :=
  bot.get? valve = some (.text "open")

def IsClosed (bot : Variables) (valve : String) : Prop :=
  bot.get? valve = some (.text "closed")

def IsWet (bot : Variables) : Prop :=
  bot.get? leakSensor = some (.text "wet")

/-- The valve is either open or closed. -/
def IsSet (bot : Variables) (valve : String) : Prop :=
  IsOpen bot valve ∨ IsClosed bot valve

/-- Each of the two valves is open or closed, and not both are open. -/
structure Interlocked (bot : Variables) : Prop where
  main : IsSet bot mainValve
  drain : IsSet bot drainValve
  exclusive : ¬ (IsOpen bot mainValve ∧ IsOpen bot drainValve)

/-- The ways in which a handler may change the valves. -/
inductive Moves (bot : Variables) : Variables → Prop
  | none {bot'} (main : bot'.get? mainValve = bot.get? mainValve)
      (drain : bot'.get? drainValve = bot.get? drainValve) : Moves bot bot'
  | closeMain : Moves bot (bot.insert mainValve (.text "closed"))
  | closeDrain : Moves bot (bot.insert drainValve (.text "closed"))
  | openMain (drain : ¬ IsOpen bot drainValve) (dry : ¬ IsWet bot) :
      Moves bot (bot.insert mainValve (.text "open"))
  | openDrain (main : ¬ IsOpen bot mainValve) : Moves bot (bot.insert drainValve (.text "open"))

/-! ## What the moves keep -/

section Moves

variable {bot bot' : Variables} {valve : String}

theorem IsOpen.not_isClosed (h : IsOpen bot valve) : ¬ IsClosed bot valve := by
  intro hclosed
  have htexts := h.symm.trans hclosed
  simp at htexts

theorem isOpen_congr (h : bot'.get? valve = bot.get? valve) :
    IsOpen bot' valve ↔ IsOpen bot valve := by
  unfold IsOpen
  rw [h]

theorem isSet_congr (h : bot'.get? valve = bot.get? valve) :
    IsSet bot' valve ↔ IsSet bot valve := by
  unfold IsSet IsOpen IsClosed
  rw [h]

section Insert

variable (bot : Variables) (value : Value)

theorem get?_insert_self (name : String) : (bot.insert name value).get? name = some value := by
  rw [Table.get?_insert, if_pos rfl]

theorem get?_drain_insert_main :
    (bot.insert mainValve value).get? drainValve = bot.get? drainValve := by
  rw [Table.get?_insert, if_neg (by decide)]

theorem get?_main_insert_drain :
    (bot.insert drainValve value).get? mainValve = bot.get? mainValve := by
  rw [Table.get?_insert, if_neg (by decide)]

end Insert

/-- The handlers keep the valves interlocked. -/
theorem Interlocked.moves (h : Interlocked bot) (hmoves : Moves bot bot') : Interlocked bot' := by
  cases hmoves with
  | none main drain =>
    refine ⟨(isSet_congr main).mpr h.main, (isSet_congr drain).mpr h.drain, fun hboth => ?_⟩
    exact h.exclusive ⟨(isOpen_congr main).mp hboth.1, (isOpen_congr drain).mp hboth.2⟩
  | closeMain =>
    have hclosed : IsClosed (bot.insert mainValve (.text "closed")) mainValve :=
      get?_insert_self ..
    exact ⟨.inr hclosed, (isSet_congr (get?_drain_insert_main ..)).mpr h.drain,
      fun hboth => hboth.1.not_isClosed hclosed⟩
  | closeDrain =>
    have hclosed : IsClosed (bot.insert drainValve (.text "closed")) drainValve :=
      get?_insert_self ..
    exact ⟨(isSet_congr (get?_main_insert_drain ..)).mpr h.main, .inr hclosed,
      fun hboth => hboth.2.not_isClosed hclosed⟩
  | openMain drain dry =>
    exact ⟨.inl (get?_insert_self ..), (isSet_congr (get?_drain_insert_main ..)).mpr h.drain,
      fun hboth => drain ((isOpen_congr (get?_drain_insert_main ..)).mp hboth.2)⟩
  | openDrain main =>
    exact ⟨(isSet_congr (get?_main_insert_drain ..)).mpr h.main, .inl (get?_insert_self ..),
      fun hboth => main ((isOpen_congr (get?_main_insert_drain ..)).mp hboth.1)⟩

/-- The shutoff valve is not opened while the sensor is wet. -/
theorem Moves.dry (h : Moves bot bot') (hclosed : IsClosed bot mainValve)
    (hopen : IsOpen bot' mainValve) : ¬ IsWet bot ∧ ¬ IsWet bot' := by
  have hchanged : ¬ IsOpen bot mainValve := fun hsame => hsame.not_isClosed hclosed
  cases h with
  | none main drain => exact absurd ((isOpen_congr main).mp hopen) hchanged
  | closeMain => exact absurd (get?_insert_self ..) hopen.not_isClosed
  | closeDrain => exact absurd ((isOpen_congr (get?_main_insert_drain ..)).mp hopen) hchanged
  | openMain drain dry =>
    refine ⟨dry, fun hwet => dry ?_⟩
    rwa [IsWet, Table.get?_insert, if_neg (by decide)] at hwet
  | openDrain main => exact absurd ((isOpen_congr (get?_main_insert_drain ..)).mp hopen) hchanged

/-- What writes neither of the valves does not move them. -/
theorem moves_of_writes {α : Type} {names : List String} {action : Handling α}
    (h : Writes names action) (hmain : mainValve ∉ names) (hdrain : drainValve ∉ names)
    (m : Memory) : Moves m.bot (after action m).bot :=
  .none (h m mainValve hmain) (h m drainValve hdrain)

end Moves

/-! ## The handlers of the waterworks -/

section Waterworks

variable (c : Context) {m : Memory}

theorem botText_of_isOpen {valve : String} (h : IsOpen m.bot valve) :
    result (Memory.botText valve) m = "open" := by
  rw [result_botText, h]
  rfl

theorem botText_of_isWet (h : IsWet m.bot) : result (Memory.botText leakSensor) m = "wet" := by
  rw [result_botText, h]
  rfl

variable (m)

theorem bot_stall : (after stall m).bot = m.bot := by
  rw [stall, after_bind, after_pure, bot_choose]

@[simp] theorem moves_openMain : Moves m.bot (after (openMain c) m).bot := by
  rw [openMain, after_bind, after_botText, after_ite]
  split
  · exact .none rfl rfl
  · rename_i hdrain
    rw [after_bind, after_botText, after_ite]
    split
    · exact .none rfl rfl
    · rename_i hdry
      rw [after_bind, after_bind, after_pure, bot_stall, bot_setBot]
      exact .openMain (mt botText_of_isOpen hdrain) (mt botText_of_isWet hdry)

/-- The shutoff valve does open while the drain is closed and the sensor dry. -/
example (r : Random) : IsOpen (after (openMain ⟨"ann", ∅, [], []⟩)
    ⟨"all", ∅, .ofList [(mainValve, .text "closed"), (drainValve, .text "closed"),
      (leakSensor, .text "dry")], r⟩).bot mainValve := by
  rw [IsOpen]
  cbv

@[simp] theorem moves_openDrain : Moves m.bot (after (openDrain c) m).bot := by
  rw [openDrain, after_bind, after_botText, after_ite]
  split
  · exact .none rfl rfl
  · rename_i hmain
    rw [after_bind, after_bind, after_pure, bot_stall, bot_setBot]
    exact .openDrain (mt botText_of_isOpen hmain)

theorem bot_closeValve (valve beginning : String) :
    (after (closeValve valve beginning c) m).bot = m.bot.insert valve (.text "closed") := by
  rw [closeValve, after_bind, after_bind, after_pure, bot_stall, bot_setBot]

@[simp] theorem moves_closeMain (beginning : String) :
    Moves m.bot (after (closeValve mainValve beginning c) m).bot := by
  rw [bot_closeValve]
  exact .closeMain

@[simp] theorem moves_closeDrain (beginning : String) :
    Moves m.bot (after (closeValve drainValve beginning c) m).bot := by
  rw [bot_closeValve]
  exact .closeDrain

@[simp] theorem moves_turnOn : Moves m.bot (after (turnOn c) m).bot := by
  rw [turnOn, after_bind, after_botText, after_ite]
  split
  · exact .none rfl rfl
  · rw [after_bind, after_botText, after_ite]
    split
    · exact .none rfl rfl
    · rw [after_bind, after_botText, after_ite]
      split
      · exact .closeDrain
      · exact .none rfl rfl

@[simp] theorem moves_drainHouse : Moves m.bot (after (drainHouse c) m).bot := by
  rw [drainHouse, after_bind, after_botText, after_ite]
  split
  · exact .none rfl rfl
  · rw [after_bind, after_botText, after_ite]
    split
    · exact .closeMain
    · exact .none rfl rfl

@[simp] theorem moves_tellStatus (device beginning : String) :
    Moves m.bot (after (tellStatus device beginning c) m).bot :=
  .none rfl rfl

@[simp] theorem moves_setSensor (status : String) :
    Moves m.bot (after (setSensor status c) m).bot := by
  have hwrites : Writes [leakSensor] (setSensor status c) :=
    .bind (.setBot (by decide) _) fun _ => .pure _
  exact moves_of_writes hwrites (by decide) (by decide) m

@[simp] theorem moves_say (content : String) :
    Moves m.bot (after (Handler.say content c) m).bot :=
  .none rfl rfl

@[simp] theorem moves_sayOneOf (options : List String) :
    Moves m.bot (after (Handler.sayOneOf options c) m).bot :=
  .none rfl rfl

end Waterworks

theorem moves_waterworksRules :
    ∀ r ∈ waterworksRules, ∀ c m, Moves m.bot (after (r.handler c) m).bot := by
  simp [waterworksRules]

/-! ## The scripts in an engine -/

/-- Setting up the waterworks interlocks the valves, however they were. -/
theorem interlocked_setup (count : Nat) (bot : Variables) :
    Interlocked (waterworks.setup count bot) := by
  have hmain : IsClosed (waterworks.setup count bot) mainValve := by
    show (((bot.insert _ _).insert _ _).insert _ _).get? mainValve = _
    rw [get?_main_insert_drain, get?_insert_self]
  have hdrain : IsOpen (waterworks.setup count bot) drainValve := get?_insert_self ..
  exact ⟨.inr hmain, .inl hdrain, fun hboth => hboth.1.not_isClosed hmain⟩

/-- A handler that moves the valves in one of these ways keeps them interlocked. -/
theorem keeps_of_moves {rules : List RuleDefinition}
    (h : ∀ r ∈ rules, ∀ c m, Moves m.bot (after (r.handler c) m).bot) :
    ∀ r ∈ rules, ∀ c m, Interlocked m.bot → Interlocked (after (r.handler c) m).bot ∧
      Moves m.bot (after (r.handler c) m).bot :=
  fun r hr c m hm => ⟨hm.moves (h r hr c m), h r hr c m⟩

theorem keeps_builtin : ∀ s ∈ builtin, s.Keeps Interlocked Moves := by
  intro s hs
  have hs : s = tour ∨ s = hokeyPokey ∨ s = danceFloor ∨ s = waterworks := by
    simpa [builtin] using hs
  rcases hs with rfl | rfl | rfl | rfl
  · exact ⟨fun _ _ hbot => hbot, keeps_of_moves fun r hr c =>
      moves_of_writes (writes_tourRules r hr c) (by decide) (by decide)⟩
  · refine ⟨fun count bot hbot => hbot.moves (.none ?_ ?_), keeps_of_moves fun r hr c =>
      moves_of_writes (writes_hokeyPokeyRules r hr c) (by decide) (by decide)⟩
    · exact get?_setup_hokeyPokey count bot (by decide)
    · exact get?_setup_hokeyPokey count bot (by decide)
  · exact ⟨fun _ _ hbot => hbot, keeps_of_moves fun r hr c =>
      moves_of_writes (writes_danceFloorRules r hr c) (by decide) (by decide)⟩
  · exact ⟨fun count bot _ => interlocked_setup count bot, keeps_of_moves moves_waterworksRules⟩

/-- In an engine that has loaded the scripts, whatever it was before, the valves are interlocked
after any calls but those that bring other scripts or edit the variables of the bot. So they are at
the beginning and at the end of every handler that is called, and none of them opens the shutoff
valve while the sensor is wet. -/
theorem valves_interlocked [Pattern.SizeLimit] (e : Engine) {calls : List Call}
    (hcalls : ∀ call ∈ calls, call.isOrdinary = true) :
    let house := ((e.load builtin).2.conduct calls).2
    Interlocked house.bot ∧
    ∀ userId message trace, ∀ i ∈ house.invocations userId message trace,
      Interlocked i.before.bot ∧ Interlocked i.after.bot ∧
      (IsClosed i.before.bot mainValve → IsOpen i.after.bot mainValve →
        ¬ IsWet i.before.bot ∧ ¬ IsWet i.after.bot) := by
  intro house
  have hloaded : (e.load builtin).2.Keeps Interlocked Moves :=
    Engine.keeps_load keeps_builtin (interlocked_setup 1 _)
  have hkeeps : house.Keeps Interlocked Moves := hloaded.conduct hcalls
  refine ⟨hkeeps.bot, fun userId message trace i hi => ?_⟩
  obtain ⟨hbefore, hafter, hmoves⟩ := hkeeps.invocations userId message trace hi
  exact ⟨hbefore, hafter, hmoves.dry⟩

section Example

attribute [local instance] Pattern.SizeLimit.byWeight Random.Source.splitMix

/-- Water on demand, and a leak that is forgotten as soon as the scripts are loaded again. -/
def leak : List Call := [
  .reply "ann" "open the shutoff valve",
  .clearUser "ann",
  .reload,
  .replyVerbose "bob" "sensor wet",
  .reply "ann" "turn the water on"]

theorem valves_interlocked_leak :
    let house := (((Engine.ofOptions {} 0).load builtin).2.conduct leak).2
    ¬ (IsOpen house.bot mainValve ∧ IsOpen house.bot drainValve) ∧
      ∀ i ∈ house.invocations "bob" "close the drain valve and turn the water on" none,
        Interlocked i.after.bot := by
  have hcalls : ∀ call ∈ leak, call.isOrdinary = true := by decide
  obtain ⟨hbot, hinvocations⟩ := valves_interlocked (Engine.ofOptions {} 0) hcalls
  exact ⟨hbot.exclusive, fun i hi => (hinvocations _ _ _ i hi).2.1⟩

end Example

end Repartee.Scripts
