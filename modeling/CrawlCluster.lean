import CrawlCluster.Frame.Buffered
import CrawlCluster.Main
import CrawlCluster.Network.Actions
import CrawlCluster.Network.Session
import CrawlCluster.Proofs.Client.Reading
import CrawlCluster.Proofs.Coordinator.Arrivals
import CrawlCluster.Proofs.Coordinator.AtLeastOnce
import CrawlCluster.Proofs.Coordinator.Batches
import CrawlCluster.Proofs.Coordinator.Conservation
import CrawlCluster.Proofs.Coordinator.Directives
import CrawlCluster.Proofs.Coordinator.Exclusion
import CrawlCluster.Proofs.Coordinator.Fairness
import CrawlCluster.Proofs.Coordinator.Fencing
import CrawlCluster.Proofs.Coordinator.Masking
import CrawlCluster.Proofs.Coordinator.Retries
import CrawlCluster.Proofs.Coordinator.Sweeping
import CrawlCluster.Proofs.Coordinator.Throttling
import CrawlCluster.Proofs.Frame.Chunking
import CrawlCluster.Proofs.Frame.Resynchronising
import CrawlCluster.Proofs.Job.FreeText
import CrawlCluster.Proofs.Network.Starting
import CrawlCluster.Proofs.Network.Takeover
import CrawlCluster.Proofs.Node.Bystanding
import CrawlCluster.Proofs.Node.Calls
import CrawlCluster.Proofs.Node.Connections
import CrawlCluster.Proofs.Node.Forwarding
import CrawlCluster.Proofs.Node.Handshake
import CrawlCluster.Proofs.Node.Lifetime
import CrawlCluster.Proofs.Node.Listening
import CrawlCluster.Proofs.Node.Listing
import CrawlCluster.Proofs.Node.Refusals
import CrawlCluster.Proofs.Node.Startup
import CrawlCluster.Proofs.Options.Seeds
import CrawlCluster.Proofs.Roster.Membership
import CrawlCluster.Proofs.Roster.Messages
import CrawlCluster.Proofs.Store.Expiry
import CrawlCluster.Proofs.Store.Retrying
import CrawlCluster.Proofs.Worker.Alone
import CrawlCluster.Roster.Lemmas
import CrawlCluster.Store.Lemmas
import CrawlCluster.Worker.Scripted
