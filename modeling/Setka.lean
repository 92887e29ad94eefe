import Setka.Dns.Asserts
import Setka.Dns.Cancel
import Setka.Dns.CleanUp
import Setka.Dns.Deadlock
import Setka.Dns.Decoder
import Setka.Dns.Erasure
import Setka.Dns.Fallback
import Setka.Dns.FirstAnswer
import Setka.Dns.Guards
import Setka.Dns.HostName
import Setka.Dns.LateReplies
import Setka.Dns.Lookups
import Setka.Dns.OwnerName
import Setka.Dns.Ownership
import Setka.Dns.ReadBounds
import Setka.Dns.ResolvConf
import Setka.Dns.Retries
import Setka.Dns.Rollback
import Setka.Dns.Senders
import Setka.Dns.Servers
import Setka.Dns.Threads
import Setka.Dns.Traffic
import Setka.Dns.WaitSet
import Setka.Dns.WaitTime
import Setka.Dns.WakeUp
import Setka.Dns.WriteReady
import Setka.Net.Delivery
import Setka.Net.Descriptors
import Setka.Net.InitGuard
import Setka.Net.Modes
import Setka.Net.Opening
import Setka.Net.ParseAddress
import Setka.Net.Streams
import Setka.Net.Transfer
