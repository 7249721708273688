import Shmchan.Process.Prog
import Shmchan.Process.Reliance
import Shmchan.Process.Crash
import Shmchan.Process.Own
import Shmchan.Process.Focus
import Shmchan.Process.BoundedQueue
import Shmchan.Process.Within
import Shmchan.Process.Tally
import Shmchan.Process.Alone
import Shmchan.Process.Confined
import Shmchan.Process.Objects
import Shmchan.Process.Lives
import Shmchan.Process.Making
import Shmchan.Process.Recorded
import Shmchan.Process.Duties
import Shmchan.Process.Sights
import Shmchan.Status
import Shmchan.Managed.Layout
import Shmchan.Managed.Memory
import Shmchan.Managed.Initialize
import Shmchan.Managed.Recovery
import Shmchan.Managed.Operations
import Shmchan.Managed.Queue
import Shmchan.Managed.Invariant
import Shmchan.Managed.Recovery.Restores
import Shmchan.Managed.Recovery.Restart
import Shmchan.Managed.Scans
import Shmchan.Managed.Send.Publish
import Shmchan.Managed.Receive.Release
import Shmchan.Managed.Rely
import Shmchan.Managed.Uniform
import Shmchan.Managed.Guard
import Shmchan.Managed.Send.Critical
import Shmchan.Managed.Receive.Critical
import Shmchan.Managed.Session
import Shmchan.Managed.Runs
import Shmchan.Managed.Changes
import Shmchan.Managed.History
import Shmchan.Managed.ReceiverDeath
import Shmchan.Managed.SenderDeath
import Shmchan.Managed.Refinement
import Shmchan.Managed.Fence
import Shmchan.Managed.Signals
import Shmchan.Managed.Exclusion
import Shmchan.Managed.Exclusion.Operations
import Shmchan.Managed.Watching
import Shmchan.Managed.Waits
import Shmchan.Managed.WakeUps
import Shmchan.Managed.Announcements
import Shmchan.Managed.SendStatus
import Shmchan.Managed.Namespace
import Shmchan.Managed.Management
import Shmchan.Managed.Management.Rely
import Shmchan.Managed.Management.Initialization
import Shmchan.Managed.Management.Calls
import Shmchan.Managed.Management.Safety
import Shmchan.Managed.Management.OpenOrCreate
import Shmchan.Managed.Management.Runs
import Shmchan.Managed.Management.LiveChannels
import Shmchan.Managed.Management.Orphans
import Shmchan.Managed.Management.Reopening
import Shmchan.Managed.Management.FailedUnlink
import Shmchan.Managed.Management.Sequential
import Shmchan.Managed.Management.Atomicity
import Shmchan.Managed.Management.OneAtATime
import Shmchan.Managed.LayoutBounds
import Shmchan.Managed.Confinement
import Shmchan.Managed.Confinement.Operations
import Shmchan.Endpoint.State
import Shmchan.Endpoint.Operations
import Shmchan.Endpoint.Phases
import Shmchan.Endpoint.Senders
import Shmchan.Endpoint.Quiet
import Shmchan.Endpoint.Protocol
import Shmchan.Endpoint.Patience
import Shmchan.Endpoint.Steps
import Shmchan.Endpoint.Closing
import Shmchan.Endpoint.Alone
import Shmchan.Endpoint.Wakes
import Shmchan.Endpoint.Waiting
import Shmchan.Endpoint.Mapping
import Shmchan.Endpoint.Lifecycle
import Shmchan.Endpoint.Opening
import Shmchan.Endpoint.System
import Shmchan.ByteChannel.Ring
import Shmchan.ByteChannel.Operations
import Shmchan.ByteChannel.Invariant
import Shmchan.ByteChannel.Records
import Shmchan.ByteChannel.Transitions
import Shmchan.ByteChannel.Enqueue
import Shmchan.ByteChannel.Reclaim
import Shmchan.ByteChannel.Dequeue
import Shmchan.ByteChannel.Session
import Shmchan.ByteChannel.Runs
import Shmchan.ByteChannel.Touches
import Shmchan.ByteChannel.Closing
import Shmchan.ByteChannel.Delivery
import Shmchan.ByteChannel.Room
import Shmchan.ByteChannel.Statuses
import Shmchan.ByteChannel.Wakes
import Shmchan.ByteChannel.WakeUps
import Shmchan.ByteChannel.Alone
import Shmchan.ByteChannel.Alone.Send
import Shmchan.ByteChannel.Alone.Receive
import Shmchan.ByteChannel.Sequential
import Shmchan.ByteChannel.Mapping
import Shmchan.ByteChannel.Acceptance
import Shmchan.ByteChannel.Lifecycle
import Shmchan.Channel.Slots
import Shmchan.Channel.Operations
import Shmchan.Channel.Invariant
import Shmchan.Channel.Transitions
import Shmchan.Channel.Enqueue
import Shmchan.Channel.Dequeue
import Shmchan.Channel.Tries
import Shmchan.Channel.Delivery
import Shmchan.Channel.Session
import Shmchan.Channel.Statuses
import Shmchan.Channel.Drained
import Shmchan.Channel.Closing
import Shmchan.Channel.Wakes
import Shmchan.Channel.WakeUps
import Shmchan.Channel.Alone
import Shmchan.Channel.Sequential
import Shmchan.Channel.Mapping
import Shmchan.Channel.Acceptance
import Shmchan.Channel.Lifecycle
import Shmchan.Channel.Survival
import Shmchan.SendersAndClosers
