import OciHelper.Api.Access
import OciHelper.Api.Forms
import OciHelper.Api.Masks
import OciHelper.Api.Pages
import OciHelper.Audit.Shutdown
import OciHelper.Auth.Admins
import OciHelper.Auth.Captcha
import OciHelper.Auth.ClientAddress
import OciHelper.Auth.Limiter
import OciHelper.Auth.MfaCache
import OciHelper.Auth.SecondFactor
import OciHelper.Auth.Sessions
import OciHelper.Auth.Unblock
import OciHelper.Backup.Faults
import OciHelper.Backup.Fidelity
import OciHelper.Backup.KeyHistory
import OciHelper.Backup.Keys
import OciHelper.Chat.Conversations
import OciHelper.Chat.Stream
import OciHelper.Crypto.Envelopes
import OciHelper.Crypto.Texts
import OciHelper.Db.Migrate
import OciHelper.Db.Search
import OciHelper.Db.Secrets
import OciHelper.Db.Tasks
import OciHelper.Db.Tenants
import OciHelper.Defense.Reversible
import OciHelper.Dns.AutoSync
import OciHelper.Dns.Converge
import OciHelper.Dns.Honest
import OciHelper.Dns.Writes
import OciHelper.Instances.Addressing
import OciHelper.Instances.AutoRescue
import OciHelper.Instances.BootVolumes
import OciHelper.Instances.ChangeIP
import OciHelper.Instances.ConsoleStrings
import OciHelper.Instances.HostKeys
import OciHelper.Instances.InstanceMap
import OciHelper.Instances.Netboot
import OciHelper.Instances.RetryTasks
import OciHelper.Instances.ShellBridge
import OciHelper.Instances.ShrinkDisk
import OciHelper.Instances.Sync
import OciHelper.Instances.VncProxy
import OciHelper.Lib.Base64
import OciHelper.Lib.Calls
import OciHelper.Lib.Checkpoint
import OciHelper.Lib.ExchangeSort
import OciHelper.Lib.IpAddr
import OciHelper.Lib.KeyTable
import OciHelper.Lib.KeyedFold
import OciHelper.Lib.Lines
import OciHelper.Lib.Mux
import OciHelper.Lib.Relay
import OciHelper.Lib.RingBuffer
import OciHelper.Lib.Scanner
import OciHelper.Lib.Shell
import OciHelper.Lib.StepRun
import OciHelper.Lib.Text
import OciHelper.Lib.Traced
import OciHelper.Lib.Words
import OciHelper.Lib.Yaml
import OciHelper.Logs.LastLines
import OciHelper.Logs.LiveTail
import OciHelper.Oci.AddRules
import OciHelper.Oci.CloudInit
import OciHelper.Oci.ConfigTexts
import OciHelper.Oci.Interceptor
import OciHelper.Oci.Ipv6Jobs
import OciHelper.Oci.KeyPaths
import OciHelper.Oci.LoadBalancers
import OciHelper.Oci.MirrorIpv6
import OciHelper.Oci.NatCleanup
import OciHelper.Oci.PemCache
import OciHelper.Oci.PortStrings
import OciHelper.Oci.Provisioning
import OciHelper.Oci.PublicSubnets
import OciHelper.Oci.Release
import OciHelper.Oci.SubnetIpv6
import OciHelper.Oci.Uploads
import OciHelper.Recurring.Handlers
import OciHelper.Recurring.Passwords
import OciHelper.Recurring.WellFormed
import OciHelper.Schedule.Launches
import OciHelper.Schedule.Quota
import OciHelper.Schedule.StockMonitor
import OciHelper.Telegram.Bounds
import OciHelper.Telegram.Callbacks
import OciHelper.Telegram.Confirmations
import OciHelper.Telegram.Dialogues
import OciHelper.Telegram.Ssh
import OciHelper.Traffic.Totals
import OciHelper.Worker.Decisions
import OciHelper.Worker.Edits
import OciHelper.Worker.Exclusive
import OciHelper.Worker.Parents
import OciHelper.Worker.Postings
import OciHelper.Worker.Recovery
