import Repartee.Scripts.DanceFloor
import Repartee.Scripts.HokeyPokey
import Repartee.Scripts.Tour
import Repartee.Scripts.Waterworks

/-!
# The scripts that come with the engine
-/

namespace Repartee.Scripts

/-- The scripts that come with the engine, in the order in which they are loaded. -/
def builtin : List Script :=
  [tour, hokeyPokey, danceFloor, waterworks]

end Repartee.Scripts
