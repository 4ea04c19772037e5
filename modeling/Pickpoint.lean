import Pickpoint.Core.Client
import Pickpoint.Core.Geocoding
import Pickpoint.Core.Services
import Pickpoint.Core.Sleeping
import Pickpoint.Core.WsUrl
import Pickpoint.Looping.Pauses
import Pickpoint.Percent.Coding
import Pickpoint.Percent.Target
import Pickpoint.Streaming.Buffered
import Pickpoint.Theory.Addressing
import Pickpoint.Theory.Credentials
import Pickpoint.Theory.Arrival
import Pickpoint.Theory.Attempts
import Pickpoint.Theory.Backoff
import Pickpoint.Theory.BatchOrder
import Pickpoint.Theory.Batches
import Pickpoint.Theory.Binding
import Pickpoint.Theory.Capture
import Pickpoint.Theory.ClientErrors
import Pickpoint.Theory.Closing
import Pickpoint.Theory.Cutting
import Pickpoint.Theory.Delimiting
import Pickpoint.Theory.Dialing
import Pickpoint.Theory.Draining
import Pickpoint.Theory.ErrorClasses
import Pickpoint.Theory.EventRate
import Pickpoint.Theory.Failing
import Pickpoint.Theory.FewestFrames
import Pickpoint.Theory.Flushing
import Pickpoint.Theory.Handles
import Pickpoint.Theory.Image
import Pickpoint.Theory.Newest
import Pickpoint.Theory.Orphans
import Pickpoint.Theory.Outcomes
import Pickpoint.Theory.Outstanding
import Pickpoint.Theory.OwnTrack
import Pickpoint.Theory.PublishRate
import Pickpoint.Theory.Readiness
import Pickpoint.Theory.Recovery
import Pickpoint.Theory.Redial
import Pickpoint.Theory.RefreshErrors
import Pickpoint.Theory.Retries
import Pickpoint.Theory.Rotation
import Pickpoint.Theory.SendOrder
import Pickpoint.Theory.Shutdown
import Pickpoint.Theory.Sleeps
import Pickpoint.Theory.StaleTokens
import Pickpoint.Theory.Starting
import Pickpoint.Theory.Succession
import Pickpoint.Theory.Successor
import Pickpoint.Theory.Suppression
import Pickpoint.Theory.Unsubscribing
import Pickpoint.Theory.Waiters
import Pickpoint.Theory.Wakeups
import Pickpoint.Theory.Resubscribing
