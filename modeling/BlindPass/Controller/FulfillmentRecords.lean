import BlindPass.Controller.Records
import BlindPass.Fleet.Fulfillments

/-!
# The tables of the cross-workload fulfillments

A row follows one fulfillment from its request to its end. The terms and the offer stand in
their columns as values; the digest of the terms stands beside them as the text the brokers see.
-/

namespace BlindPass.Controller

open Fleet

/-- `cross_fulfillments.status` -/
inductive FulfillmentStatus
  | awaitingApproval
  | approved
  | offered
  | available
  | recipientConsumed
  | completed
  | uncertain
  | denied
  | revoked
  | expired
  | failed
  deriving DecidableEq

/-- `ACTIVE_STATUSES`: the statuses that hold the recipient's single slot. -/
def FulfillmentStatus.isActive : FulfillmentStatus → Bool
  | .awaitingApproval | .approved | .offered | .available | .recipientConsumed | .uncertain => true
  | .completed | .denied | .revoked | .expired | .failed => false

/-- `cross_fulfillments.approval_status` -/
inductive FulfillmentApproval
  | notRequired
  | pending
  | approved
  | rejected
  deriving DecidableEq

/-- A row of `cross_fulfillments`, without the columns that are only written. -/
structure FulfillmentRecord where
  issuerWorkloadId : String
  recipientWorkloadId : String
  issuerNodeId : String
  recipientNodeId : String
  issuerCredential : String
  recipientCredential : String
  requestedBy : String
  policyVersion : ℕ
  ruleId : String
  decision : Decision
  approverIds : List String
  approvalStatus : FulfillmentApproval
  decidedBy : Option String
  priorFulfillmentId : Option String
  ttlSeconds : ℕ
  terms : Option FulfillmentTerms
  termsDigest : Option String
  offer : Option (NodeEnvelope FulfillmentOffer)
  issuerKeyVersion : Option ℕ
  recipientKeyVersion : Option ℕ
  issuerRegistrationVersion : Option ℕ
  recipientRegistrationVersion : Option ℕ
  status : FulfillmentStatus
  idempotencyKey : String
  requestHash : String
  failureCode : Option String
  createdAtMs : ℕ
  expiresAtMs : ℕ
  closedAtMs : Option ℕ
  version : ℕ
  deriving DecidableEq

end BlindPass.Controller
