import Repartee.Target
import Repartee.Value

/-!
# Users

What is kept of a user between messages: the topic, the variables, and the last messages and the
replies to them.
-/

namespace Repartee

def defaultTopic : String := "all"

/-- What is kept of a user. The newest message and the newest reply are first, and there are never
more than `capacity` of either. -/
structure User where
  capacity : Nat
  topic : String := defaultTopic
  vars : Variables := ∅
  messages : List Target := []
  replies : List Target := []

/-- Adds a message and the reply to it, and forgets what is too old. -/
def User.remember (u : User) (message reply : Target) : User :=
  { u with
    messages := (message :: u.messages).take u.capacity
    replies := (reply :: u.replies).take u.capacity }

end Repartee
