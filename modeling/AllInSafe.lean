import AllInSafe.AppLock.Lemmas.Patterns
import AllInSafe.AppLock.Model
import AllInSafe.AppLock.PatternLockView
import AllInSafe.AppLock.PatternTheorems
import AllInSafe.AppLock.SecretTheorems
import AllInSafe.AppLock.Theorems
import AllInSafe.Bluetooth.DeletionTheorems
import AllInSafe.Bluetooth.MainActivity
import AllInSafe.Bluetooth.TrustDevice
import AllInSafe.Bluetooth.TrustTheorems
import AllInSafe.Config.Escape
import AllInSafe.Config.Exporter
import AllInSafe.Config.Importer
import AllInSafe.Config.Lemmas.Decimal
import AllInSafe.Config.Lemmas.Exporter
import AllInSafe.Config.Lemmas.Inline
import AllInSafe.Config.Lemmas.Lines
import AllInSafe.Config.Lemmas.Lookup
import AllInSafe.Config.Lemmas.Netmasks
import AllInSafe.Config.Lemmas.ParseLine
import AllInSafe.Config.Lemmas.Parseline
import AllInSafe.Config.Lemmas.Words
import AllInSafe.Config.Numbers
import AllInSafe.Config.Profile
import AllInSafe.Config.Records
import AllInSafe.Config.RouteTheorems
import AllInSafe.Config.Theorems
import AllInSafe.Config.Tokenizer
import AllInSafe.ControlChannel.CiphertextTheorems
import AllInSafe.ControlChannel.Lemmas.Events
import AllInSafe.ControlChannel.Lemmas.Held
import AllInSafe.ControlChannel.Lemmas.Sound
import AllInSafe.ControlChannel.Lemmas.Window
import AllInSafe.ControlChannel.Model
import AllInSafe.ControlChannel.PacketTheorems
import AllInSafe.ControlChannel.RecoveryTheorems
import AllInSafe.ControlChannel.Reliable
import AllInSafe.ControlChannel.Theorems
import AllInSafe.Detection.AlertTheorems
import AllInSafe.Detection.ArpTheorems
import AllInSafe.Detection.BufferTheorems
import AllInSafe.Detection.Buffers
import AllInSafe.Detection.CustomVpnService
import AllInSafe.Detection.DnsTheorems
import AllInSafe.Detection.FramingTheorems
import AllInSafe.Detection.Model
import AllInSafe.Detection.TimerTheorems
import AllInSafe.Detection.VerdictTheorems
import AllInSafe.Epoch.Keys
import AllInSafe.Epoch.Lemmas.Packets
import AllInSafe.Epoch.Lemmas.Sound
import AllInSafe.Epoch.Packets
import AllInSafe.Epoch.SessionTheorems
import AllInSafe.Epoch.Theorems
import AllInSafe.Library.BigEndian
import AllInSafe.Library.Blocks
import AllInSafe.Library.ByteBuffer
import AllInSafe.Library.CircularList
import AllInSafe.Library.FailFast
import AllInSafe.Library.Feed
import AllInSafe.Library.FirstOf
import AllInSafe.Library.Ipv6Text
import AllInSafe.Library.LongestMatch
import AllInSafe.Library.Parts
import AllInSafe.Library.Positions
import AllInSafe.Library.PrefixCode
import AllInSafe.Library.QuotedLine
import AllInSafe.Library.Regex
import AllInSafe.Library.ReplayWindow
import AllInSafe.Library.Runs
import AllInSafe.Library.SlidingWindow
import AllInSafe.Library.Slots
import AllInSafe.Library.StableSort
import AllInSafe.Library.Triple
import AllInSafe.Library.Utf8
import AllInSafe.Log.BufferTheorems
import AllInSafe.Log.CacheTheorems
import AllInSafe.Log.Damage
import AllInSafe.Log.Lemmas.Damage
import AllInSafe.Log.Lemmas.Decode
import AllInSafe.Log.Lemmas.Encode
import AllInSafe.Log.Lemmas.Limits
import AllInSafe.Log.Lemmas.Pipe
import AllInSafe.Log.Lemmas.Records
import AllInSafe.Log.Lemmas.Restored
import AllInSafe.Log.Lemmas.Scan
import AllInSafe.Log.Lemmas.Wire
import AllInSafe.Log.LogFileHandler
import AllInSafe.Log.LogItem
import AllInSafe.Log.OpenVPNThread
import AllInSafe.Log.Pipe
import AllInSafe.Log.Scan
import AllInSafe.Log.SeverityTheorems
import AllInSafe.Log.Theorems
import AllInSafe.Log.UniqueTheorems
import AllInSafe.Log.VpnStatus
import AllInSafe.Management.Active
import AllInSafe.Management.ActiveTheorems
import AllInSafe.Management.CommandLine
import AllInSafe.Management.CredentialTheorems
import AllInSafe.Management.Input
import AllInSafe.Management.Lemmas.CommandLine
import AllInSafe.Management.PasswordTheorems
import AllInSafe.Management.Passwords
import AllInSafe.Management.Theorems
import AllInSafe.Pause.Lemmas.Basic
import AllInSafe.Pause.Lemmas.Calls
import AllInSafe.Pause.Lemmas.LostHold
import AllInSafe.Pause.Lemmas.Releases
import AllInSafe.Pause.Lemmas.Truthful
import AllInSafe.Pause.Lemmas.UserPause
import AllInSafe.Pause.Model
import AllInSafe.Pause.Receiver
import AllInSafe.Pause.Theorems
import AllInSafe.Pause.WindowTheorems
import AllInSafe.Pool.Lemmas
import AllInSafe.Pool.Model
import AllInSafe.Pool.Theorems
import AllInSafe.Proxy.Lemmas.Query
import AllInSafe.Proxy.Model
import AllInSafe.Proxy.OrbotHelper
import AllInSafe.Proxy.OrbotTheorems
import AllInSafe.Proxy.Theorems
import AllInSafe.RemoteControl.ExternalAppDatabase
import AllInSafe.RemoteControl.PermissionTheorems
import AllInSafe.Replace.Lemmas.Ordered
import AllInSafe.Replace.Theorems
import AllInSafe.Replay.Lemmas.Window
import AllInSafe.Replay.PacketId
import AllInSafe.Replay.SenderTheorems
import AllInSafe.Replay.Theorems
import AllInSafe.Restrictions.Converge
import AllInSafe.Restrictions.Lemmas.Bundles
import AllInSafe.Restrictions.Lemmas.Keys
import AllInSafe.Restrictions.Lemmas.Settled
import AllInSafe.Restrictions.Lemmas.Stores
import AllInSafe.Restrictions.Model
import AllInSafe.Restrictions.PackageTheorems
import AllInSafe.Restrictions.Policy
import AllInSafe.Restrictions.Theorems
import AllInSafe.Restrictions.VpnPackages
import AllInSafe.Routes.Lemmas.Doubled
import AllInSafe.Routes.Lemmas.Fronts
import AllInSafe.Routes.Lemmas.Hidden
import AllInSafe.Routes.Lemmas.Iterations
import AllInSafe.Routes.Lemmas.Nets
import AllInSafe.Routes.Lemmas.Order
import AllInSafe.Routes.Lemmas.Overlays
import AllInSafe.Routes.Lemmas.Pieces
import AllInSafe.Routes.Lemmas.Runs
import AllInSafe.Routes.Lemmas.Sets
import AllInSafe.Routes.Lemmas.Shadows
import AllInSafe.Routes.Lemmas.Slips
import AllInSafe.Routes.Lemmas.Steps
import AllInSafe.Routes.Lemmas.Twins
import AllInSafe.Routes.Model
import AllInSafe.Routes.Slips
import AllInSafe.Routes.TerminationTheorems
import AllInSafe.Routes.Theorems
import AllInSafe.Socket.StreamBuf
import AllInSafe.Socket.Theorems
import AllInSafe.Status.Model
import AllInSafe.Status.Theorems
import AllInSafe.Storage.Lemmas.Plain
import AllInSafe.Storage.Lemmas.Runs
import AllInSafe.Storage.Lemmas.Saves
import AllInSafe.Storage.ListTheorems
import AllInSafe.Storage.ProfileManager
import AllInSafe.Storage.Theorems
import AllInSafe.Traffic.Lemmas.History
import AllInSafe.Traffic.Model
import AllInSafe.Traffic.Theorems
import AllInSafe.Tun.AddressTheorems
import AllInSafe.Tun.Alike
import AllInSafe.Tun.Lemmas.Addresses
import AllInSafe.Tun.Lemmas.Commands
import AllInSafe.Tun.Lemmas.ConfigTexts
import AllInSafe.Tun.Lemmas.Effects
import AllInSafe.Tun.Lemmas.NetTexts
import AllInSafe.Tun.Lemmas.Opened
import AllInSafe.Tun.Lemmas.RouteTexts
import AllInSafe.Tun.Lemmas.Service
import AllInSafe.Tun.Lemmas.Texts
import AllInSafe.Tun.Messages
import AllInSafe.Tun.Model
import AllInSafe.Tun.NetmaskTheorems
import AllInSafe.Tun.PushTheorems
import AllInSafe.Tun.Reconnect
import AllInSafe.Tun.ReconnectTheorems
import AllInSafe.Tun.StringTheorems
import AllInSafe.Versions.Model
import AllInSafe.Versions.Theorems
