import Lmc.Wire.Broker
import Lmc.Wire.Grammar
import Lmc.Wire.Reassembly
import Lmc.Wire.Bounds
import Lmc.Tree.Map
import Lmc.Tree.Mqtt
import Lmc.Tree.Validity
import Lmc.Tree.FastCallbacks
import Lmc.Tree.Pruning
import Lmc.Task.Flows
import Lmc.Task.WriteLoop
import Lmc.System.Stream
import Lmc.System.Reception
import Lmc.System.Shutdown
import Lmc.System.Identifiers
import Lmc.System.Agreement
import Lmc.System.Kept
import Lmc.System.Acceptance
import Lmc.System.Acknowledged
import Lmc.System.Callbacks
import Lmc.System.Admission
import Lmc.System.Closure
import Lmc.System.World
import Lmc.System.Handshake
import Lmc.System.Abandoned
import Lmc.System.Duplicates
import Lmc.System.Farewell
import Lmc.System.Timely
