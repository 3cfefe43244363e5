import Repartee.Handler

/-!
# What handlers leave

A part of a handler has a result and leaves the memory in some state, whatever it finds it in
(`Handling.result`, `Handling.after`). Of the variables of the bot it can only change those that it
writes: `Handling.Writes names` holds of the parts that write none but these, and of whatever is put
together from such parts. And so does `Handling.Yields p q`, which says that a part keeps the
property `p` of the variables of the bot and that its result has the property `q`.
-/

namespace Repartee

/-! ## Choices -/

namespace Random

variable {α : Type} {r : Random} {x : α}

theorem mem_of_choose {items : List α} (h : (r.choose items).1 = some x) : x ∈ items := by
  unfold choose at h
  split at h
  · cases h
  · exact List.mem_of_getElem? h

theorem mem_of_itemAt {items : List (α × Int)} {k : Nat} (h : itemAt items k = some x) :
    x ∈ items.map Prod.fst := by
  fun_induction itemAt items k with
  | case1 => cases h
  | case2 => simp_all
  | case3 item weight rest k _ ih => exact List.mem_cons_of_mem item (ih h)

theorem mem_of_chooseWeighted {items : List (α × Int)}
    (h : (r.chooseWeighted items).1 = some x) : x ∈ items.map Prod.fst := by
  unfold chooseWeighted at h
  split at h
  · cases h
  · exact mem_of_itemAt h

end Random

namespace Handling

variable {α β : Type}

def result (action : Handling α) (m : Memory) : α :=
  (action.run m).value.1

def after (action : Handling α) (m : Memory) : Memory :=
  (action.run m).value.2

section Parts

variable (m : Memory)

@[simp] theorem after_pure (a : α) : after (pure a) m = m := rfl

@[simp] theorem after_bind (action : Handling α) (next : α → Handling β) :
    after (action >>= next) m = after (next (result action m)) (after action m) := rfl

@[simp] theorem after_ite (q : Prop) [Decidable q] (yes no : Handling α) :
    after (if q then yes else no) m = if q then after yes m else after no m := by
  split <;> rfl

theorem result_botText (name : String) :
    result (Memory.botText name) m = ((m.bot.get? name).map Value.render).getD "" := rfl

@[simp] theorem after_botText (name : String) : after (Memory.botText name) m = m := rfl

@[simp] theorem bot_setBot (name : String) (value : Value) :
    (after (Memory.setBot name value) m).bot = m.bot.insert name value := rfl

@[simp] theorem bot_choose (items : List α) : (after (Memory.choose items) m).bot = m.bot := rfl

end Parts

/-! ## Which variables of the bot are written -/

/-- The part changes no variables of the bot but these. -/
def Writes (names : List String) (action : Handling α) : Prop :=
  ∀ m name, name ∉ names → (after action m).bot.get? name = m.bot.get? name

section Writes

variable {names : List String}

theorem Writes.of_bot {action : Handling α} (h : ∀ m, (after action m).bot = m.bot) :
    Writes names action :=
  fun m _ _ => by rw [h m]

theorem Writes.bind {action : Handling α} {next : α → Handling β} (h : Writes names action)
    (hnext : ∀ a, Writes names (next a)) : Writes names (action >>= next) :=
  fun m name hname => (hnext _ _ name hname).trans (h m name hname)

theorem Writes.pure (a : α) : Writes names (Pure.pure a : Handling α) :=
  .of_bot fun _ => rfl

theorem Writes.choose (items : List α) : Writes names (Memory.choose items) :=
  .of_bot fun _ => rfl

theorem Writes.setBot {name : String} (h : name ∈ names) (value : Value) :
    Writes names (Memory.setBot name value) := by
  intro m other hother
  have hne : other ≠ name := fun heq => hother (heq ▸ h)
  rw [bot_setBot, Table.get?_insert, if_neg hne]

end Writes

/-! ## What is kept, and what comes out -/

/-- The part keeps the property of the variables of the bot, and while it holds, the result has the
other one. -/
def Yields (p : Variables → Prop) (q : α → Prop) (action : Handling α) : Prop :=
  ∀ m, p m.bot → q (result action m) ∧ p (after action m).bot

section Yields

variable {p : Variables → Prop} {q : α → Prop} {r : β → Prop}

theorem Yields.bind {action : Handling α} {next : α → Handling β} (h : Yields p q action)
    (hnext : ∀ a, q a → Yields p r (next a)) : Yields p r (action >>= next) :=
  fun m hm => hnext _ (h m hm).1 _ (h m hm).2

theorem Yields.pure {a : α} (h : q a) : Yields p q (Pure.pure a : Handling α) :=
  fun _ hm => ⟨h, hm⟩

theorem Yields.get : Yields p (fun m : Memory => p m.bot) get :=
  fun _ hm => ⟨hm, hm⟩

/-- A part that leaves the variables of the bot alone. -/
theorem Yields.of_bot {action : Handling α} (h : ∀ m, (after action m).bot = m.bot) :
    Yields p (fun _ => True) action :=
  fun m hm => ⟨trivial, (h m).symm ▸ hm⟩

theorem Yields.choose {items : List α} (x : α) (hitems : ∀ item ∈ items, q item) (hx : q x) :
    Yields p (fun choice => q (choice.getD x)) (Memory.choose items) := by
  intro m hm
  refine ⟨?_, hm⟩
  show q ((m.random.choose items).1.getD x)
  cases hchoice : (m.random.choose items).1 with
  | none => exact hx
  | some item => exact hitems item (Random.mem_of_choose hchoice)

theorem Yields.setBot {name : String} {value : Value}
    (h : ∀ bot, p bot → p (bot.insert name value)) :
    Yields p (fun _ => True) (Memory.setBot name value) :=
  fun m hm => ⟨trivial, h m.bot hm⟩

end Yields

end Handling
end Repartee
