import BlindPass.Fleet.Documents

/-!
# The documents of a cross-workload fulfillment

An issuer's broker seals a credential it holds to a one-use key that the recipient's broker
minted. The controller attests the terms, and both nodes sign what they add. This file holds the
contents, under the field names of the wire format.

A signature is modelled by the public key it verifies under. The digest of the terms is a
parameter of the development.
-/

namespace BlindPass.Fleet

/-- One side of a fulfillment as the controller attests it. -/
structure FulfillmentParty where
  nodeId : String
  workloadId : String
  unit : String
  credential : String
  registrationVersion : ℕ
  keyVersion : ℕ
  signingPublic : String
  recipientPublic : String
  fingerprint : String
  deriving DecidableEq

/-- The contract both brokers hold. -/
structure FulfillmentTerms where
  fulfillmentId : String
  tenantId : String
  issuer : FulfillmentParty
  recipient : FulfillmentParty
  policyVersion : ℕ
  ruleId : String
  approvalReference : Option String
  priorFulfillmentId : Option String
  maxPlaintextBytes : ℕ
  issuedAtMs : ℕ
  expiresAtMs : ℕ
  issuerEpoch : ℕ
  deriving DecidableEq

/-- The recipient broker's one-use key for one fulfillment. -/
structure FulfillmentOffer where
  fulfillmentId : String
  termsDigest : String
  offerId : String
  nodeId : String
  nodeKeyVersion : ℕ
  recipientPublic : String
  issuedAtMs : ℕ
  expiresAtMs : ℕ
  deriving DecidableEq

/-- An envelope a node signed: its epoch is the version of the node's key. -/
structure NodeEnvelope (α : Type*) where
  body : α
  keyId : String
  epoch : ℕ
  /-- The public key the signature verifies under. -/
  signer : String
  deriving DecidableEq

inductive FulfillmentSide
  | issuer
  | recipient
  deriving DecidableEq

/-- How far a broker got. -/
inductive ResultState
  /-- The recipient's broker opened the delivery and holds the credential. -/
  | stored
  /-- The recipient's unit read the credential. -/
  | consumed
  /-- A broker refused or could not complete. -/
  | failed
  deriving DecidableEq

/-- The body of a result event. -/
structure FulfillmentResult where
  fulfillmentId : String
  termsDigest : String
  side : FulfillmentSide
  state : ResultState
  code : Option String
  observedAtMs : ℕ
  deriving DecidableEq

end BlindPass.Fleet
