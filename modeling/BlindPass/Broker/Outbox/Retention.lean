import BlindPass.Broker.Outbox.State

/-!
# Retention of operation records

The tables of operation requests are bounded by number and by the size of the header they are
written into. Only finished requests are ever evicted, the oldest first. The size of the header is
projected by arithmetic, with room for the closure that each open request will get.
-/

namespace BlindPass.Broker

/-! ### The projected size -/

def evictionBatch : ℕ := 64

def highWater : ℕ := maxOperationRecords - maxOperationRecords / 10

def tickBatch : ℕ := 256

def newOwnerReserve : ℕ := 2560

def closureReserve : ℕ := 96

def sizeCheckFloor : ℕ := 256

def headerFixedBytes : ℕ := 192

/-- `plain` -/
def plainBytes (value : String) : ℕ := 2 + value.utf8ByteSize

/-- The part of `owner_record_bound` about the binding of a browser request. -/
def bindingBound (b : BrowserRequestBinding) : ℕ :=
  87 + (b.fingerprint.elim 4 fun _ => 66) + (b.recipeFingerprint.elim 4 fun _ => 66) +
    plainBytes b.nodeId + b.requestKey.elim 4 plainBytes + b.resourceId.elim 4 plainBytes + 2 +
    b.unit.utf8ByteSize * 2

def ownerRecordBound (key : String) (o : OperationRequestOwner) : ℕ :=
  133 + key.utf8ByteSize + o.invocationId.utf8ByteSize + o.workloadId.utf8ByteSize +
    (if o.mode.isSome then 17 else 4) + o.browserRequest.elim 4 bindingBound

def closureRecordBound (key status : String) : ℕ := 29 + key.utf8ByteSize + status.utf8ByteSize

/-- `projected_header_bytes`. The tables are far too small for its sums to saturate. -/
def projectedHeaderBytes (owners : BoundedRecords OperationRequestOwner)
    (closures : BoundedRecords String) : ℕ :=
  headerFixedBytes + Table.total owners.values ownerRecordBound +
    Table.total closures.values closureRecordBound +
    (owners.values.size - closures.values.size) * closureReserve

def operationTableFull (owners : BoundedRecords OperationRequestOwner)
    (closures : BoundedRecords String) : Bool :=
  maxOperationRecords ≤ owners.values.size ||
    (sizeCheckFloor ≤ owners.values.size &&
      Canon.maxCanonicalJsonBytes < projectedHeaderBytes owners closures + newOwnerReserve)

/-! ### Finished requests -/

namespace BrokerState

variable (s : BrokerState)

def queuedEventReferences : List String :=
  s.events.flatMap fun e => e.idempotencyKey :: (e.body.str "request_event_key").toList

def ownerIsTerminal (queued : List String) (key : String) : Bool :=
  match s.owners.values[key]? with
  | none => false
  | some o =>
    !o.isWithdrawal && s.closures.values.contains key &&
      !(o.cancelRequested && !o.cancelAcknowledged) && !s.live.contains key && !queued.contains key

/-- The tables without these requests. -/
def forget (keys : List String) : BrokerState :=
  { s with owners := s.owners.removeAll keys, closures := s.closures.removeAll keys }

def browserClosureStatus (grantId : String) : String :=
  if s.fleet.nodeRevoked || s.verifier.hasTombstone grantId then "cancelled" else "completed"

end BrokerState

/-- The next keys that meet the condition, at most so many, and what comes behind them. -/
def nextBatch (p : String → Bool) : ℕ → List String → List String × List String
  | 0, keys => ([], keys)
  | _, [] => ([], [])
  | n + 1, key :: rest =>
    if p key then (key :: (nextBatch p n rest).1, (nextBatch p n rest).2)
    else nextBatch p (n + 1) rest

/-- The loop of `ensure_operation_owner_capacity`, with the number of requests evicted. A round
that evicts anything uses candidates up, so there are no more rounds than candidates. -/
def reclaim (queued : List String) : ℕ → List String → BrokerState → ℕ → BrokerState × ℕ
  | 0, _, s, evicted => (s, evicted)
  | rounds + 1, candidates, s, evicted =>
    if !operationTableFull s.owners s.closures then (s, evicted)
    else
      let batch := nextBatch (s.ownerIsTerminal queued) evictionBatch candidates
      if batch.1.isEmpty then (s, evicted)
      else reclaim queued rounds batch.2 (s.forget batch.1) (evicted + batch.1.length)

section

variable (H : Hash)

/-- Write the outbox, or go back to these tables. -/
def persistTables (s : BrokerState) : Operation Unit :=
  (persistPendingNodeEvents H).onFailure fun later =>
    { later with owners := s.owners, closures := s.closures }

def ensureOperationOwnerCapacity : Operation Unit := do
  let s ← Command.get
  if !operationTableFull s.owners s.closures then return ()
  let reclaimed := reclaim s.queuedEventReferences (s.owners.order.length + 1) s.owners.order s 0
  if reclaimed.2 = 0 then Command.fail "operation_record_capacity"
  else
    Command.modify fun s => { s with
      owners := reclaimed.1.owners, closures := reclaimed.1.closures }
    persistTables H s
    let later ← Command.get
    if operationTableFull later.owners later.closures then
      Command.fail "operation_record_capacity"
    else return ()

def evictTerminalOwners (limit : ℕ) : Operation ℕ := do
  let s ← Command.get
  let victims := (s.owners.order.filter (s.ownerIsTerminal s.queuedEventReferences)).take limit
  if victims.isEmpty then return 0
  Command.modify fun s => s.forget victims
  persistTables H s
  return victims.length

def pruneCrowdedOwners : Operation ℕ := do
  let s ← Command.get
  let owners := s.owners.values.size
  if owners < highWater && (owners < sizeCheckFloor ||
      projectedHeaderBytes s.owners s.closures < Canon.maxCanonicalJsonBytes / 4 * 3) then
    return 0
  evictTerminalOwners H tickBatch

end

end BlindPass.Broker
