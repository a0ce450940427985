import ArionDp.Cli.CJson
import ArionDp.Cli.CJsonSafety
import ArionDp.Cli.CJsonText
import ArionDp.Cli.CJsonTrees
import ArionDp.Cli.Conf
import ArionDp.Cli.ReadConf
import ArionDp.Cli.Transit
import ArionDp.Cn.Assistant
import ArionDp.Cn.Hints
import ArionDp.Common.MaglevEnds
import ArionDp.Common.MaglevReplaced
import ArionDp.Dmn.EndpointStore
import ArionDp.Dmn.EntranceBounds
import ArionDp.Dmn.Interfaces
import ArionDp.Dmn.Ownership
import ArionDp.Lib.BoundedMap
import ArionDp.Lib.JsonText
import ArionDp.Lib.Redelivery
import ArionDp.Lib.Shell
import ArionDp.Lib.Strtod
import ArionDp.Manager.Balance
import ArionDp.Manager.Delivery
import ArionDp.Manager.Encoding
import ArionDp.Manager.EndpointPush
import ArionDp.Manager.Gateways
import ArionDp.Manager.Mirror
import ArionDp.Manager.NodePosts
import ArionDp.Manager.PortAddresses
import ArionDp.Manager.Requests
import ArionDp.Manager.RpcRuns
import ArionDp.Manager.RpcText
import ArionDp.Manager.StaleEntries
import ArionDp.Manager.Target
import ArionDp.Manager.Vnis
import ArionDp.Manager.Zgcs
import ArionDp.Operator.Allocation
import ArionDp.Operator.Dfts
import ArionDp.Operator.LostUpdate
import ArionDp.Xdp.Acceptance
import ArionDp.Xdp.Hops
import ArionDp.Xdp.InnerAddresses
import ArionDp.Xdp.Isolation
import ArionDp.Xdp.Options
