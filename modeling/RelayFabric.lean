import RelayFabric.Admin.Secrets
import RelayFabric.Alerts
import RelayFabric.Dedup
import RelayFabric.Delivery.Accounting
import RelayFabric.Delivery.Policy
import RelayFabric.Delivery.Urgency
import RelayFabric.Federation.Announce
import RelayFabric.Federation.Concurrent
import RelayFabric.Federation.Exchange
import RelayFabric.Federation.Faults
import RelayFabric.Federation.Frontier
import RelayFabric.Federation.Hops
import RelayFabric.Identity.Guesses
import RelayFabric.Identity.Race
import RelayFabric.LinkState
import RelayFabric.Plugins.Echo
import RelayFabric.Plugins.Fanout
import RelayFabric.Plugins.Meshtastic
import RelayFabric.Plugins.Mqtt
import RelayFabric.Plugins.Subscriptions
import RelayFabric.Quota.Isolation
import RelayFabric.Quota.Sender
import RelayFabric.Retention.Backup
import RelayFabric.Retention.Cas
import RelayFabric.Retention.Visible
import RelayFabric.Ui.Hosts
import RelayFabric.Ui.Passkeys
import RelayFabric.Ui.Revocation
import RelayFabric.Wire.Chain
import RelayFabric.Wire.Duplex
