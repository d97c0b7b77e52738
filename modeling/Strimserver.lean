import Strimserver.Controller.Flights
import Strimserver.Controller.Shutdown
import Strimserver.Controller.Replies
import Strimserver.Oracle.Refinement
import Strimserver.H2c.MessageRoom
import Strimserver.H2c.UnarySuccess
import Strimserver.H2c.Progress
import Strimserver.Containerd.Reconnect
import Strimserver.Containerd.Edits
import Strimserver.Stage.Supersede
import Strimserver.Stage.PendingEdits
import Strimserver.Oracle.Flights
import Strimserver.Oracle.Shutdown
import Strimserver.Http.Slot
import Strimserver.Controller.Targets
import Strimserver.Hpack.HuffmanCode
import Strimserver.Hpack.RoundTrip
import Strimserver.Hpack.AllOrNothing
import Strimserver.H2c.Octetwise
import Strimserver.H2c.Transport
import Strimserver.Stage.Deadline
import Strimserver.H2c.StreamLimits
import Strimserver.Stage.Handles
import Strimserver.Http.Base64
import Strimserver.Http.HeaderTokens
import Strimserver.Alternate.Timeout
import Strimserver.Deps.Cache
import Strimserver.Http.Notify
import Strimserver.Oracle.Layout
import Strimserver.Deploy.KnownHosts
import Strimserver.Alternate.ChainBuffers
import Strimserver.StreamMode.Analyze
import Strimserver.H2c.PercentDecode
