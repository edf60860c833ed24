import WarrenSdk.Core.Api.Signed
import WarrenSdk.Core.Discovery.Addresses
import WarrenSdk.Core.Discovery.Selector
import WarrenSdk.Core.Discovery.Stores
import WarrenSdk.Core.Edge.Control
import WarrenSdk.Core.Edge.KeySlots
import WarrenSdk.Core.Edge.PqSession
import WarrenSdk.Core.Edge.SessionWalk
import WarrenSdk.Core.Edge.Spki
import WarrenSdk.Core.Edge.TokenLedger
import WarrenSdk.Core.Edge.TokenRevocation
import WarrenSdk.Core.Edge.TokenSoundness
import WarrenSdk.Core.Edge.WebTransport
import WarrenSdk.Extension.ChromiumRouting
import WarrenSdk.Extension.Client.Questions
import WarrenSdk.Extension.Client.Released
import WarrenSdk.Extension.Client.Route
import WarrenSdk.Extension.Edge
import WarrenSdk.Extension.FirefoxRouting
import WarrenSdk.Extension.Host.Teardown
import WarrenSdk.Extension.ProxyAuth
import WarrenSdk.Extension.SplitAgreement
import WarrenSdk.Extension.Wallet
import WarrenSdk.Extension.WriteBehind
import WarrenSdk.Hosts.Agreement
import WarrenSdk.Hosts.Chunking
import WarrenSdk.Link.Followed
import WarrenSdk.NativeHost.LaunchHistory
import WarrenSdk.NativeHost.LaunchesTogether
import WarrenSdk.NativeHost.Served
import WarrenSdk.Node.TokenStore
import WarrenSdk.Node.WarrenProxy
import WarrenSdk.Node.Warrend.Client
