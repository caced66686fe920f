import Fuse.Bytes
import Fuse.Capabilities
import Fuse.Connection
import Fuse.Errno
import Fuse.Fault
import Fuse.FileType
import Fuse.HelloFs
import Fuse.IoError
import Fuse.Kernel.Answers
import Fuse.Kernel.Arguments
import Fuse.Kernel.Flags
import Fuse.Kernel.Header
import Fuse.KeyedList
import Fuse.Layout
import Fuse.MemFs.Server
import Fuse.MemFs.Tree
import Fuse.MountOptions
import Fuse.Name
import Fuse.Operation.Basic
import Fuse.Operation.Encoding
import Fuse.Operation.Grammar
import Fuse.Operation.Kind
import Fuse.Operation.Message
import Fuse.Proofs.Accounts
import Fuse.Proofs.Answers
import Fuse.Proofs.Course
import Fuse.Proofs.Decoding
import Fuse.Proofs.Dispatch
import Fuse.Proofs.Encoding
import Fuse.Proofs.Frames
import Fuse.Proofs.Grammar
import Fuse.Proofs.Growth
import Fuse.Proofs.Hub
import Fuse.Proofs.KeyedList
import Fuse.Proofs.Layout
import Fuse.Proofs.Ledger
import Fuse.Proofs.Provenance
import Fuse.Proofs.Reading
import Fuse.Proofs.Replies
import Fuse.Proofs.ReplyForm
import Fuse.Proofs.Roll
import Fuse.Proofs.Runs
import Fuse.Proofs.Taking
import Fuse.Proofs.WindDown
import Fuse.Reply.Attr
import Fuse.Reply.Basic
import Fuse.Reply.Form
import Fuse.Reply.Listing
import Fuse.Reply.Reading
import Fuse.Scripted
import Fuse.Session.Basic
import Fuse.Session.Dispatch
import Fuse.Session.Event
import Fuse.Session.History
import Fuse.Session.Hub
import Fuse.Session.Registration
import Fuse.Session.Request
import Fuse.Session.Run
import Fuse.Session.Table
import Fuse.Time
import Fuse.Proofs.Handshake
import Fuse.Agreement
import Fuse.Proofs.Settling
import Fuse.Proofs.Moments
import Fuse.Proofs.Orderly
import Fuse.Proofs.Lifecycle
import Fuse.Proofs.Negotiation
import Fuse.Proofs.Beside
import Fuse.Proofs.Inertness
import Fuse.MemFs.Shape
import Fuse.Proofs.MemFs.Changes
import Fuse.Proofs.MemFs.Hanging
import Fuse.Proofs.MemFs.Figures
import Fuse.Proofs.MemFs.Serving
import Fuse.Proofs.Registration
import Fuse.Proofs.Routing
import Fuse.Session.Tracking
import Fuse.Proofs.Tracking
import Fuse.Session.Interrupts
import Fuse.Proofs.Marks
import Fuse.Proofs.Muting
import Fuse.Proofs.Interrupts
import Fuse.Session.Opening
import Fuse.Session.Profiles
import Fuse.Session.Duties
import Fuse.MemFs.Failing
import Fuse.MemFs.Strict
import Fuse.Contract
import Fuse.Proofs.Versions
import Fuse.Proofs.Lasting
import Fuse.Proofs.Retrying
import Fuse.Proofs.Opening
import Fuse.Proofs.Carrying
import Fuse.Proofs.Profiles
import Fuse.Proofs.MemFs.Atomicity
import Fuse.Proofs.Replaying
import Fuse.Proofs.Checking
import Fuse.Proofs.MemFs.Refusals
import Fuse.Proofs.MemFs.Strictness
import Fuse.Proofs.Contract
import Fuse.Reply.Records
import Fuse.Proofs.Listing
import Fuse.Kernel.Structures
import Fuse.Proofs.Structures
import Fuse.MemFs.Content
import Fuse.Proofs.MemFs.Content
import Fuse.MemFs.Renaming
import Fuse.Proofs.MemFs.Climbing
import Fuse.Proofs.MemFs.Obstacles
import Fuse.Proofs.MemFs.Renaming
import Fuse.Session.Forgetting
import Fuse.Proofs.Forgetting
import Fuse.MemFs.Attributes
import Fuse.Proofs.MemFs.Attributes
import Fuse.Paging
import Fuse.Proofs.Paging
import Fuse.MemFs.Listing
import Fuse.Proofs.MemFs.Paging
import Fuse.Proofs.MemFs.Resuming
import Fuse.Proofs.Time
import Fuse.Proofs.MemFs.Noreplace
import Fuse.Proofs.MemFs.Naming
import Fuse.Operation.Owners
import Fuse.Proofs.Owners
import Fuse.MemFs.Usage
import Fuse.Proofs.MemFs.Usage
import Fuse.MountOptions.Reading
import Fuse.Proofs.Items
import Fuse.Proofs.MountOptions
import Fuse.Proofs.MemFs.Walking
