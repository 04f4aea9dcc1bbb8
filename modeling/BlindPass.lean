import BlindPass.Broker.PrunedTime
import BlindPass.Broker.Recovery
import BlindPass.Broker.Refusals
import BlindPass.Broker.SessionCapacity
import BlindPass.Controller.Agreement
import BlindPass.Controller.Answers
import BlindPass.Controller.BrokerTrust
import BlindPass.Controller.Delivery
import BlindPass.Controller.FulfillmentSweep
import BlindPass.Controller.Ownership
import BlindPass.Controller.Tombstones
import BlindPass.Exchange.Approvals
import BlindPass.Exchange.Decisions
import BlindPass.Recovery.Snapshot
