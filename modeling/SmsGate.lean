import SmsGate.Go.Bits
import SmsGate.Go.Outcome
import SmsGate.Go.Utf8
import SmsGate.Go.Utf16
import SmsGate.Go.Strings
import SmsGate.Go.Bufio
import SmsGate.Go.Hex
import SmsGate.Go.Time
import SmsGate.At.Pdu
import SmsGate.At.Commands
import SmsGate.At.Serializer
import SmsGate.At.Equiv.Septets
import SmsGate.At.Equiv.Text
import SmsGate.At.Equiv.Decode
import SmsGate.At.Equiv.Concat
import SmsGate.At.Equiv.Encode
import SmsGate.At.Equiv.Reassembly
import SmsGate.At.Equiv.Roundtrip
import SmsGate.At.Equiv.Timestamp
import SmsGate.At.Equiv.Gsm7
import SmsGate.At.Equiv.Parts
import SmsGate.At.Equiv.Routing
import SmsGate.At.Equiv.Caller
import SmsGate.At.Equiv.Prompt
import SmsGate.At.Equiv.Origin
import SmsGate.At.Equiv.Calls
import SmsGate.At.Equiv.Replies
import SmsGate.Prog.DropOldest
import SmsGate.At.Equiv.Urc
import SmsGate.At.Equiv.Demux
import SmsGate.At.Equiv.Port
import SmsGate.Prog.System
import SmsGate.Buffer.Table
import SmsGate.Buffer.Equiv.Queue
import SmsGate.Tunnel.Protocol
import SmsGate.Tunnel.Manager
import SmsGate.Tunnel.Inbound
import SmsGate.Tunnel.Equiv.Footprint
import SmsGate.Tunnel.Equiv.Writers
import SmsGate.Tunnel.Equiv.Outbox
import SmsGate.Tunnel.Equiv.AckWait
import SmsGate.Prog.Custody
import SmsGate.Modem.Worker
import SmsGate.Modem.System
import SmsGate.Modem.Equiv.Iccid
import SmsGate.Modem.Equiv.Drain
import SmsGate.Modem.Equiv.Receive
import SmsGate.Modem.Equiv.Noise
import SmsGate.Prog.SlidingWindow
import SmsGate.Modem.RateLimit
import SmsGate.Modem.Equiv.RateLimit
import SmsGate.Prog.History
import SmsGate.Prog.Ends
import SmsGate.Prog.InTurn
import SmsGate.Modem.Equiv.Footprint
import SmsGate.Modem.Equiv.Runs
import SmsGate.Modem.Equiv.Shutdown
import SmsGate.Modem.Equiv.Limits
import SmsGate.Modem.Supervisor
import SmsGate.Modem.Equiv.Restart
import SmsGate.Modem.Equiv.PduMode
import SmsGate.Modem.Equiv.Watchdog
import SmsGate.Modem.Equiv.Denied
import SmsGate.Modem.Registry
import SmsGate.Router.Dispatch
import SmsGate.Router.Equiv.Outcome
import SmsGate.Router.Equiv.ErrorCode
import SmsGate.Modem.Fleet
import SmsGate.Modem.Equiv.Ownership
import SmsGate.Tunnel.Equiv.AckClose
import SmsGate.Tunnel.Equiv.Deadline
import SmsGate.Config.Load
import SmsGate.Config.Consumers
import SmsGate.Config.Equiv.Consumers
import SmsGate.Prog.Service
import SmsGate.At.Equiv.Attempt
import SmsGate.Modem.Equiv.Port
import SmsGate.Modem.Equiv.Ladder
import SmsGate.At.Equiv.Sender
import SmsGate.At.Equiv.UserData
import SmsGate.At.Equiv.PduHash
import SmsGate.Modem.Equiv.Wire
import SmsGate.Config.Equiv.Comments
import SmsGate.Router.Equiv.Oversized
import SmsGate.Modem.Equiv.Quota
import SmsGate.Modem.Equiv.Signal
import SmsGate.Modem.Equiv.Supervised
import SmsGate.Modem.Supervisors
import SmsGate.Modem.Equiv.Gauge
import SmsGate.At.Equiv.Address
import SmsGate.Prog.Object
import SmsGate.Breaker.Breaker
import SmsGate.Breaker.Equiv.Trip
import SmsGate.Dedup.Dedup
import SmsGate.Dedup.Equiv.Window
import SmsGate.Prog.TokenBucket
import SmsGate.Ratelimit.Limiter
import SmsGate.Ratelimit.Equiv.Bucket
import SmsGate.Ratelimit.Equiv.RetryAfter
import SmsGate.Diskqueue.Queue
import SmsGate.Diskqueue.Equiv.Drain
import SmsGate.Modem.Equiv.Registration
import SmsGate.Prog.Interpret
import SmsGate.Prog.Placing
import SmsGate.Buffer.Equiv.Ledger
import SmsGate.Modem.Equiv.Receipt
import SmsGate.Modem.Equiv.Identity
import SmsGate.Modem.Equiv.Holding
import SmsGate.Tunnel.Equiv.Carry
import SmsGate.Tunnel.Equiv.Holding
import SmsGate.Gateway.System
import SmsGate.Gateway.Equiv.Runs
import SmsGate.Gateway.Equiv.Delivery
import SmsGate.Gateway.Equiv.Tasks
import SmsGate.Gateway.Equiv.Routing
import SmsGate.Modem.Equiv.Duty
import SmsGate.Gateway.Equiv.Duty
import SmsGate.Tunnel.Equiv.Stages
import SmsGate.Tunnel.Equiv.Sessions
import SmsGate.Tunnel.Equiv.Frames
