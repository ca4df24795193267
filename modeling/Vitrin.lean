import Vitrin.Core.SingleHolder
import Vitrin.Core.Objects
import Vitrin.Session.LedgerRuns
import Vitrin.Session.RealmDeath
import Vitrin.Realm.Names
import Vitrin.Screen.BareMetal
import Vitrin.Screen.HumanVisible
import Vitrin.Session.Descriptors
import Vitrin.Seat.Presence
import Vitrin.Session.Clipboard
import Vitrin.Shim.Buffers
import Vitrin.Ipc.SourceRuns
import Vitrin.Shim.CoreLink
import Vitrin.Protocol.CCodec
import Vitrin.Shim.Held
import Vitrin.Core.CheckUse
import Vitrin.Core.Sweep
import Vitrin.Core.RateLimit
import Vitrin.Core.Refusals
import Vitrin.Seat.ChordRuns
import Vitrin.Core.Selector
import Vitrin.Screen.Blank
import Vitrin.Screen.Wrap
import Vitrin.Scene.Capture
import Vitrin.Shim.Constraint
import Vitrin.Shim.Toplevels
import Vitrin.Shim.Transfers
import Vitrin.Realm.Seccomp
import Vitrin.Realm.HelperCodec
import Vitrin.Shim.Selection
