import BlindPass.Library.Program
import BlindPass.Controller.Machine

/-!
# Drawing up grants

A route that grants operations reads each of them with its workload and its node, draws up
and signs a grant, and has the store issue all of them at once. The readings are separate, so
what is signed may be outdated when it is issued.
-/

namespace BlindPass.Controller

open Execution (Program)
open Fleet (isValidOpaqueId)

/-- A program of the controller. -/
abbrev Route := Program Store Event Answer

inductive GrantIssuanceError
  | stale
  | unavailable
  deriving DecidableEq

/-- What issuing takes from outside the tables: the clock when a grant is drawn up, the random
identifier of the grant, and the clock during the transaction. -/
structure IssuanceReadings where
  drafted : String → ℕ
  grantId : String → String
  issued : ℕ
  closed : ℕ

/-- The key of a browser request that its grant names. -/
def Operation.requestEventKey? (o : Operation) : Option String :=
  o.brokerEventKey.filter fun key => isValidOpaqueId key && decide (16 ≤ key.utf8ByteSize)

/-- When the grant of an operation ends. A repeated issuance cannot renew the deadline of a
workload request that the policy allowed. -/
def Operation.grantExpiry (o : Operation) (w : Workload) (now : ℕ) : ℕ :=
  let ttlSeconds := min (min o.requestedTtlSeconds w.localCeilingSeconds) 3600
  let expiresAtMs := now + ttlSeconds * 1000
  if o.isWorkloadRequest && o.decision == .allow then min expiresAtMs o.expiresAtMs
  else expiresAtMs

/-- The grant of an operation, from what was read of it. -/
def drawGrant (id : String) (o : Operation) (w : Workload) (n : Node) (epoch now : ℕ)
    (grantId : String) (requestEventKey : Option String) : Fleet.Grant :=
  { id := grantId
    operationId := id
    nodeId := o.nodeId
    workloadId := o.workloadId
    invocationId := o.invocationId
    unit := w.unit
    account := w.account
    resourceId := o.resourceId
    recipientKeyId := o.nodeId ++ "-" ++ toString n.keyVersion
    registrationVersion := w.registrationVersion
    policyVersion := o.policyVersion
    approvalReference := o.approvalId
    requestEventKey := requestEventKey
    action := o.action
    mode := o.mode
    audience := "blindpass-node"
    issuerEpoch := epoch
    issuedAtMs := now
    expiresAtMs := o.grantExpiry w now
    localCeilingSeconds := w.localCeilingSeconds }

/-- The signed draft for what was read. -/
def draftFor (id : String) (o : Operation) (w : Workload) (n : Node) (epoch now : ℕ)
    (grantId : String) : Except GrantIssuanceError GrantIssueDraft :=
  if w.nodeId ≠ o.nodeId ∨ w.consumptionMode ≠ o.mode ∨ o.policyVersion = 0 ∨
      o.requestedTtlSeconds = 0 ∨ !Fleet.isValidCeiling w.localCeilingSeconds then .error .stale
  else if o.mode = .browserSession ∧ o.requestEventKey?.isNone then .error .stale
  else
    let key := if o.mode = .browserSession then o.requestEventKey? else none
    let grant := drawGrant id o w n epoch now grantId key
    if grant.isValid then .ok ⟨grant, o.version, ⟨epoch, .grant grant⟩⟩ else .error .stale

/-- Read an operation with its workload and node, and draw up its grant. An operation that is
granted needs none. -/
def draftGrant (r : IssuanceReadings) (epoch : ℕ) (id : String) :
    Route (Except GrantIssuanceError (Option GrantIssueDraft)) := do
  match ← Program.get (fun s : Store => s.operations[id]?) with
  | none => return .error .stale
  | some o =>
    if o.status = .granted then return .ok none
    else if o.status ≠ .requested ∨ o.decision = .deny then return .error .stale
    else
      match ← Program.get (fun s : Store => s.workloads[o.workloadId]?) with
      | none => return .error .stale
      | some w =>
        if w.status ≠ .active then return .error .stale
        else
          match ← Program.get (fun s : Store => s.nodes[o.nodeId]?) with
          | none => return .error .stale
          | some n =>
            if n.status ≠ .active then return .error .stale
            else return (draftFor id o w n epoch (r.drafted id) (r.grantId id)).map some

/-- The drafts for the operations, in order. -/
def draftGrants (r : IssuanceReadings) (epoch : ℕ) :
    List String → Route (Except GrantIssuanceError (List GrantIssueDraft))
  | [] => return .ok []
  | id :: rest => do
    match ← draftGrant r epoch id with
    | .error error => return .error error
    | .ok draft =>
      match ← draftGrants r epoch rest with
      | .error error => return .error error
      | .ok drafts => return .ok (draft.toList ++ drafts)

/-- Have the operations granted. -/
def ensureOperationGrants (cfg : Config) (r : IssuanceReadings) (operationIds : List String) :
    Route (Except GrantIssuanceError Unit) := do
  if operationIds.isEmpty || decide (10 < operationIds.length) then return .error .stale
  else if !cfg.signer then return .error .unavailable
  else
    let epoch ← Program.get Store.issuerEpoch
    match ← draftGrants r epoch operationIds with
    | .error error => return .error error
    | .ok [] => return .ok ()
    | .ok drafts =>
      match ← Program.send (.issueOperationGrants drafts r.issued r.closed) with
      | .issued (.issued _) | .issued (.existing _) => return .ok ()
      | .issued _ => return .error .stale
      | _ => return .error .unavailable

end BlindPass.Controller
