import Aeontra.Catalogrollout.Compensation
import Aeontra.Development.Budget
import Aeontra.Development.Retention
import Aeontra.Edge.Leases
import Aeontra.Edgeclient.Logs
import Aeontra.Edgelifecycle.Recovery
import Aeontra.Edgeupdate.Order
import Aeontra.Edgeupdate.Restore
import Aeontra.Frontdoor.Safety
import Aeontra.Frontdoor.Stream
import Aeontra.Mcpserver.Isolation
import Aeontra.Oauth.Acceptance
import Aeontra.Oauth.Console
import Aeontra.Oauth.Redemption
import Aeontra.Oauth.Throttled
import Aeontra.Observability.Rotating
import Aeontra.Policy.Commands
import Aeontra.Policy.Grants
import Aeontra.Policy.Jail
import Aeontra.Resultstore.Quota
import Aeontra.Taskjournal.Replay
import Aeontra.Workqueue.Dependencies
import Aeontra.Workqueue.Fencing
import Aeontra.Workqueue.Progress
import Aeontra.Workqueue.WithinBounds
