import MessageBroker.Lib.TransitionSystem
import MessageBroker.Lib.Tally
import MessageBroker.Lib.CondLedger
import MessageBroker.Lib.Buffer
import MessageBroker.Lib.CString
import MessageBroker.Lib.Stdio
import MessageBroker.Lib.LittleEndian
import MessageBroker.Lib.Strings
import MessageBroker.Lib.Memory
import MessageBroker.Lib.Pipe
import MessageBroker.Lib.Dispatch
import MessageBroker.Lib.Linearizable
import MessageBroker.Lib.Monitor
import MessageBroker.Lib.LinkedHeap
import MessageBroker.ProducerConsumer.Queue
import MessageBroker.ProducerConsumer.Accounting
import MessageBroker.ProducerConsumer.AtRest
import MessageBroker.ProducerConsumer.Window
import MessageBroker.ProducerConsumer.HandOver
import MessageBroker.ProducerConsumer.Linear
import MessageBroker.ProducerConsumer.Fifo
import MessageBroker.ProducerConsumer.Waiting
import MessageBroker.ProducerConsumer.Quiescence
import MessageBroker.ProducerConsumer.Wakeup
import MessageBroker.Protocol.Packets
import MessageBroker.Mbroker.WorkerPool
import MessageBroker.Mbroker.Intake
import MessageBroker.Mbroker.FrontEnd
import MessageBroker.Mbroker.Rendezvous
import MessageBroker.Mbroker.Sessions
import MessageBroker.Mbroker.Delivery
import MessageBroker.Mbroker.SessionSteps
import MessageBroker.Mbroker.Paths
import MessageBroker.Mbroker.Appending
import MessageBroker.Mbroker.Counting
import MessageBroker.Mbroker.Boxes
import MessageBroker.Mbroker.Broker
import MessageBroker.Mbroker.Creation
import MessageBroker.Mbroker.Booking
import MessageBroker.Mbroker.Exclusivity
import MessageBroker.Mbroker.Refusal
import MessageBroker.Mbroker.Locks
import MessageBroker.Mbroker.Guarded
import MessageBroker.Mbroker.Removal
import MessageBroker.Mbroker.Mutexes
import MessageBroker.Mbroker.Atomic
import MessageBroker.Mbroker.Reference
import MessageBroker.Clients.CommandLine
import MessageBroker.Publisher.Sending
import MessageBroker.Manager.Vector
import MessageBroker.Manager.Listing
import MessageBroker.Manager.Replies
import MessageBroker.Fs.State
import MessageBroker.Fs.Operations
import MessageBroker.Fs.Params
import MessageBroker.Fs.Directory
import MessageBroker.Fs.Sound
import MessageBroker.Fs.Process
import MessageBroker.Fs.Opening
import MessageBroker.Fs.Reference
import MessageBroker.Fs.Calls
import MessageBroker.Fs.Lookup
import MessageBroker.Fs.Blocks
import MessageBroker.Fs.Offsets
import MessageBroker.Fs.Contents
import MessageBroker.Fs.Isolation
import MessageBroker.Fs.Disclosure
import MessageBroker.Fs.Matching
import MessageBroker.Fs.Refinement
import MessageBroker.Fs.Threads
import MessageBroker.Subscriber.Receiving
import MessageBroker.EndToEnd.Relay
import MessageBroker.EndToEnd.Links
import MessageBroker.EndToEnd.Conserved
import MessageBroker.EndToEnd.Draining
import MessageBroker.EndToEnd.Rest
import MessageBroker.EndToEnd.Undisturbed
import MessageBroker.EndToEnd.Administration
import MessageBroker.EndToEnd.Commands
