import LinkerdTcp.Basic
import LinkerdTcp.Balancer.Endpoint
import LinkerdTcp.Balancer.Lifecycle
import LinkerdTcp.Balancer.Accounting
import LinkerdTcp.Connector.Factory
import LinkerdTcp.Connector.Connect
import LinkerdTcp.Balancer.Connecting
import LinkerdTcp.Balancer.ConnectTimeout
import LinkerdTcp.Resolver.Snapshot
import LinkerdTcp.Resolver.Body
import LinkerdTcp.Resolver.Addrs
import LinkerdTcp.Resolver.Cycle
import LinkerdTcp.Resolver.Request
import LinkerdTcp.Resolver.Liveness
import LinkerdTcp.App.Config
