import FerrumProxy.Lib.Table
import FerrumProxy.Lib.Runs
import FerrumProxy.Lib.Windows
import FerrumProxy.Lib.Logs
import FerrumProxy.Lib.Lines
import FerrumProxy.Lib.Cycles
import FerrumProxy.Lib.Segments
import FerrumProxy.Monitoring
import FerrumProxy.System
import FerrumProxy.Transitions
import FerrumProxy.Replay
import FerrumProxy.Dispatching
import FerrumProxy.Probing
import FerrumProxy.Buffering
import FerrumProxy.Stories
import FerrumProxy.Attempts
import FerrumProxy.ClientFaults
import FerrumProxy.Evidence
import FerrumProxy.BodyFailures
import FerrumProxy.Startup
import FerrumProxy.UpstreamPaths
import FerrumProxy.UpstreamHeaders
import FerrumProxy.Effects
import FerrumProxy.Correlation
import FerrumProxy.Accounting
import FerrumProxy.Draining
import FerrumProxy.Retrying
import FerrumProxy.Rotation
import FerrumProxy.RouteMatching
import FerrumProxy.BodyLimits
import FerrumProxy.Fairness
import FerrumProxy.Selection
import FerrumProxy.ActiveChecks
import FerrumProxy.Labels
import FerrumProxy.Contention
import FerrumProxy.Trails
import FerrumProxy.Logging
import FerrumProxy.RequestIds
import FerrumProxy.Passage
import FerrumProxy.Exposition
import FerrumProxy.Shutdown
import FerrumProxy.Disclosure
import FerrumProxy.StartupRace
import FerrumProxy.Unreachable
