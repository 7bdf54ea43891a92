import Sora.Guard.KillSwitch
import Sora.Guard.Table
import Sora.Guard.WFP
import Sora.Session.Lifecycle
import Sora.Session.Switch
import Sora.Session.FailClosed
import Sora.Session.Replace
import Sora.Session.Networks
import Sora.Session.Disconnected
import Sora.Journal.Closing
import Sora.Journal.Feed
import Sora.TunRoute.Leftovers
import Sora.Control.Watching
import Sora.Control.Stored
import Sora.Control.Refresh
import Sora.Control.TLSIntent
import Sora.Control.Redactors
import Sora.Control.Named
import Sora.App.Probe
import Sora.Parser.Sip008
import Sora.Parser.VMess
import Sora.Control.States
import Sora.Supervise.Plans
import Sora.Supervise.Restarts
import Sora.Supervise.Output
import Sora.Supervise.Following
import Sora.App.Interference
import Sora.App.WellFormed
import Sora.Contract.Xray
import Sora.Engine.Addresses
import Sora.Control.Destinations
import Sora.Logs.Center
