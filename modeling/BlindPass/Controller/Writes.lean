import BlindPass.Controller.Maintenance
import BlindPass.Library.Transaction

/-!
# What the statements of a transaction may write

The transactions of the store are made of a dozen and a half kinds of statements. This
file says for each kind what it may do to the rows of operations, grants and approval
groups; the next files show that every transaction is a sequence of such statements, and
every invariant is then proved once for each kind.

Six kinds change the tables around the operations: `administer` writes other tables, `sign`
signs tombstones, `tell` queues a document, `mark` touches what was delivered and prunes,
`regroup` changes pending approval groups and `create` adds an operation. `approve` and `issue` give
authority. All other kinds change rows of operations and grants in place. Two of them,
`withdraw` and `cancel`, revoke grants, and bury each one under a tombstone. The kinds differ
in the statuses they move between, and in three promises that a few of them do not make:

* every kind but `abandon` closes the broker requests of the operations it ends,
* no kind but `expire` ends a grant without ending its operation,
* no kind but `fail` declares an operation failed whose grant was handed out.
-/

namespace BlindPass.Controller

open Fleet (Revocation SignedEnvelope isPositiveInteger isValidOpaqueId)
open Std (TreeMap)

/-! ### Kinds -/

/-- The kinds of statements. -/
inductive Kind
  | administer
  | sign
  | tell
  | mark
  | regroup
  | create
  | approve
  | issue
  | close
  | abandon
  | withdraw
  | lapse
  | fail
  | expire
  | cancel
  | consume
  | report
  | deliver
  deriving DecidableEq

/-- The changes of an operation's status that statements of a kind make. -/
def Kind.moves : Kind → OperationStatus → OperationStatus → Bool
  | .approve, a, b => a == .awaitingApproval && b == .requested
  | .issue, a, b => a == .requested && b == .granted
  | .close, a, b | .abandon, a, b => a.isPending && (b == .denied || b == .cancelled)
  | .withdraw, a, b => a.isOpen && b == .revoked
  | .lapse, a, b => a.isOpen && (b == .failed || b == .uncertain)
  | .fail, a, b => a.isOpen && b == .failed
  | .cancel, a, b => (a.isPending && b == .cancelled) ||
      ((a.isOpen || a == .uncertain) && b == .revoked)
  | .consume, a, b => ((a.isOpen || a == .uncertain) && b == .completed) ||
      (a == .granted && b == .executing)
  | _, _, _ => false

/-- The kinds that change operations and grants in place. -/
def Kind.evolves : Kind → Bool
  | .close | .abandon | .withdraw | .lapse | .fail | .expire | .cancel | .consume | .report
  | .deliver => true
  | _ => false

/-- The changes of a grant's status that statements of a kind make. -/
def Kind.grantMoves : Kind → GrantStatus → GrantStatus → Bool
  | .deliver, a, b => a == .issued && b == .delivered
  | .withdraw, a, b => a.isLive && b == .revoked
  | .lapse, a, b | .fail, a, b | .expire, a, b => a.isLive && b == .expired
  | .cancel, a, b => a != .revoked && b == .revoked
  | .consume, a, b => a.isLive && b == .consumed
  | _, _, _ => false

/-- The operation was never granted. -/
def OperationStatus.isUngranted : OperationStatus → Bool
  | .requested | .awaitingApproval | .denied | .cancelled => true
  | _ => false

variable {a b status : OperationStatus}

/-- Only issuing takes a row to the other side of the grant. -/
theorem Kind.moves_isUngranted {k : Kind} (hk : k ≠ .issue) (h : k.moves a b = true) :
    b.isUngranted = a.isUngranted := by
  revert a b
  cases k with
  | issue => exact absurd rfl hk
  | _ => decide

/-- The changes that statements of the kinds `K` make. -/
def Kind.movesAny (K : List Kind) (a b : OperationStatus) : Bool := K.any fun k => k.moves a b

def Kind.grantMovesAny (K : List Kind) (a b : GrantStatus) : Bool := K.any fun k => k.grantMoves a b

/-- One statement after the other makes no change that none of them makes alone. -/
def Kind.Unchained (K : List Kind) : Prop :=
  (∀ a b c, movesAny K a b = true → movesAny K b c = true → movesAny K a c = true) ∧
    ∀ a b c, grantMovesAny K a b = true → grantMovesAny K b c = true → grantMovesAny K a c = true

instance {K : List Kind} : Decidable (Kind.Unchained K) :=
  inferInstanceAs (Decidable ((∀ a b c, Kind.movesAny K a b = true → Kind.movesAny K b c = true →
    Kind.movesAny K a c = true) ∧ ∀ a b c, Kind.grantMovesAny K a b = true →
    Kind.grantMovesAny K b c = true → Kind.grantMovesAny K a c = true))

/-! ### Rows -/

/-- The row `o` became `o'` by statements whose status changes are `M`. -/
structure Operation.Advances (M : OperationStatus → OperationStatus → Bool) (o o' : Operation) :
    Prop where
  request : o'.toOperationRequest = o.toOperationRequest
  approvalId : o'.approvalId = o.approvalId
  version : o.version ≤ o'.version
  status : o'.status = o.status ∨ (M o.status o'.status = true ∧ o.version < o'.version)

/-- The row advanced without getting a grant. -/
structure Operation.Moves (M : OperationStatus → OperationStatus → Bool) (o o' : Operation) : Prop
    extends Operation.Advances M o o' where
  grantId : o'.grantId = o.grantId

/-- The grant row `g` became `g'` by statements whose status changes are `N`. -/
structure GrantRow.Moves (N : GrantStatus → GrantStatus → Bool) (g g' : GrantRow) : Prop where
  grant : g'.grant = g.grant
  status : g'.status = g.status ∨ N g.status g'.status = true
  consumedAtMs : ∀ time, g.consumedAtMs = some time → g'.consumedAtMs = some time

variable {M M' : OperationStatus → OperationStatus → Bool}
  {N N' : GrantStatus → GrantStatus → Bool} {o o' o'' : Operation} {g g' g'' : GrantRow}

theorem Operation.Advances.refl : o.Advances M o := ⟨rfl, rfl, le_rfl, .inl rfl⟩

theorem Operation.Advances.mono (h : o.Advances M o')
    (himp : ∀ a b, M a b = true → M' a b = true) : o.Advances M' o' :=
  ⟨h.request, h.approvalId, h.version, h.status.imp id fun hmoved => ⟨himp _ _ hmoved.1, hmoved.2⟩⟩

theorem Operation.Advances.trans
    (hM : ∀ a b c, M a b = true → M b c = true → M a c = true) (h₁ : o.Advances M o')
    (h₂ : o'.Advances M o'') : o.Advances M o'' := by
  refine ⟨h₂.request.trans h₁.request, h₂.approvalId.trans h₁.approvalId,
    h₁.version.trans h₂.version, ?_⟩
  rcases h₁.status with heq₁ | ⟨hmoved₁, hlt₁⟩
  · rcases h₂.status with heq₂ | ⟨hmoved₂, hlt₂⟩
    · exact .inl (heq₂.trans heq₁)
    · rw [heq₁] at hmoved₂
      exact .inr ⟨hmoved₂, h₁.version.trans_lt hlt₂⟩
  · rcases h₂.status with heq₂ | ⟨hmoved₂, hlt₂⟩
    · rw [heq₂]
      exact .inr ⟨hmoved₁, hlt₁.trans_le h₂.version⟩
    · exact .inr ⟨hM _ _ _ hmoved₁ hmoved₂, hlt₁.trans hlt₂⟩

theorem Operation.Moves.refl : o.Moves M o := ⟨.refl, rfl⟩

theorem Operation.Moves.mono (h : o.Moves M o') (himp : ∀ a b, M a b = true → M' a b = true) :
    o.Moves M' o' :=
  ⟨h.toAdvances.mono himp, h.grantId⟩

theorem Operation.Moves.trans (hM : ∀ a b c, M a b = true → M b c = true → M a c = true)
    (h₁ : o.Moves M o') (h₂ : o'.Moves M o'') : o.Moves M o'' :=
  ⟨h₁.toAdvances.trans hM h₂.toAdvances, h₂.grantId.trans h₁.grantId⟩

theorem Operation.moves_withStatus (h : M o.status status = true) :
    o.Moves M (o.withStatus status) :=
  ⟨⟨rfl, rfl, Nat.le_succ _, .inr ⟨h, Nat.lt_succ_self _⟩⟩, rfl⟩

theorem Operation.moves_settle {result : OperationResult} (h : M o.status status = true) :
    o.Moves M (o.settle status result) :=
  ⟨⟨rfl, rfl, Nat.le_succ _, .inr ⟨h, Nat.lt_succ_self _⟩⟩, rfl⟩

theorem Operation.Moves.isUngranted {k : Kind} (h : o.Moves k.moves o') (hk : k ≠ .issue) :
    o'.status.isUngranted = o.status.isUngranted := by
  rcases h.status with heq | ⟨hmoves, -⟩
  · rw [heq]
  · exact Kind.moves_isUngranted hk hmoves

theorem GrantRow.Moves.refl : g.Moves N g := ⟨rfl, .inl rfl, fun _ => id⟩

theorem GrantRow.Moves.mono (h : g.Moves N g') (himp : ∀ a b, N a b = true → N' a b = true) :
    g.Moves N' g' :=
  ⟨h.grant, h.status.imp id (himp _ _), h.consumedAtMs⟩

theorem GrantRow.Moves.trans (hN : ∀ a b c, N a b = true → N b c = true → N a c = true)
    (h₁ : g.Moves N g') (h₂ : g'.Moves N g'') : g.Moves N g'' := by
  refine ⟨h₂.grant.trans h₁.grant, ?_,
    fun time htime => h₂.consumedAtMs time (h₁.consumedAtMs time htime)⟩
  rcases h₁.status with heq | hmoved
  · rw [← heq]
    exact h₂.status
  rcases h₂.status with heq | hmoved'
  · rw [heq]
    exact .inr hmoved
  · exact .inr (hN _ _ _ hmoved hmoved')

theorem GrantRow.moves_withStatus {status : GrantStatus} (h : N g.status status = true) :
    g.Moves N (g.withStatus status) := ⟨rfl, .inr h, fun _ => id⟩

/-! ### Statements -/

/-- The envelope of the row tells the node that the request with the key is over. -/
def InboxRow.Closes (r : InboxRow) (nodeId operationId eventKey : String) : Prop :=
  r.nodeId = nodeId ∧ ∃ c, r.envelope.body = .operationClosed c ∧ c.nodeId = nodeId ∧
    c.operationId = operationId ∧ c.requestEventKey = eventKey

/-- The rows joined an inbox: each is new and has a number above all earlier ones of its
node. -/
structure Numbered (inbox docs : List InboxRow) : Prop where
  fresh : ∀ r ∈ docs, r.delivered = false ∧ r.ackedAtMs = none ∧ 0 < r.seq
  later : ∀ r₀ ∈ inbox, ∀ r ∈ docs, r₀.nodeId = r.nodeId → r₀.seq < r.seq
  increasing : docs.Pairwise fun r r' => r.nodeId = r'.nodeId → r.seq < r'.seq

/-- The rows joined an inbox and carry no grant. -/
structure Queued (inbox docs : List InboxRow) : Prop extends Numbered inbox docs where
  grantless : ∀ r ∈ docs, deliveredGrantId r.envelope = none

/-- Every session's mark is that of an earlier session of its node. -/
def KeepsMarks (sessions sessions' : TreeMap String NodeSession) : Prop :=
  ∀ (id : String) (e' : NodeSession), sessions'[id]? = some e' → e'.deliveredSeq = 0 ∨
    ∃ (id₀ : String) (e : NodeSession), sessions[id₀]? = some e ∧ e.nodeId = e'.nodeId ∧
      e.deliveredSeq = e'.deliveredSeq

/-- Only pending groups changed, none of them was approved, and new groups are pending. -/
structure Regroups (t t' : TreeMap String OperationApproval) : Prop where
  kept : Table.Extends (fun _ (a a' : OperationApproval) => a' = a ∨
    (a.status = .pending ∧ a'.status ≠ .approved ∧ a'.groupScope = a.groupScope)) t t'
  fresh : ∀ (id : String) (a' : OperationApproval), t'[id]? = some a' → t[id]? = none →
    a'.status = .pending

/-- The envelope carries the revocation of the node's grant. -/
def RevokesGrant (envelope : SignedEnvelope) (grantId nodeId : String) : Prop :=
  ∃ r : Revocation, envelope.body = .revocation r ∧ r.grantId = grantId ∧ r.nodeId = nodeId

theorem RevokesGrant.grantless {envelope : SignedEnvelope} {grantId nodeId : String}
    (h : RevokesGrant envelope grantId nodeId) : deliveredGrantId envelope = none := by
  obtain ⟨r, hbody, -⟩ := h
  rw [deliveredGrantId, hbody]

/-- What a signed tombstone holds is the revocation of its grant. -/
def Store.HoldsRevocations (s : Store) : Prop :=
  ∀ (id : String) (t : Tombstone) envelope, s.tombstones[id]? = some t → t.envelope = some envelope →
    RevokesGrant envelope id t.nodeId

/-- A grant under a tombstone is revoked, and belongs to the tombstone's node. -/
def Store.Entombed (s : Store) : Prop :=
  ∀ (id : String) (t : Tombstone), s.tombstones[id]? = some t →
    ∃ g : GrantRow, s.grants[id]? = some g ∧ g.status = .revoked ∧ g.grant.nodeId = t.nodeId

/-- The last instant a database clock shows: the calendar ends with the year 9999. -/
def latestInstant : ℕ := 253402300799999

/-- The tombstone can be signed as a revocation. -/
structure Tombstone.Signable (t : Tombstone) (grantId : String) : Prop where
  grantId : isValidOpaqueId grantId = true
  nodeId : isValidOpaqueId t.nodeId = true
  created : isPositiveInteger t.createdAtMs = true
  retained : isPositiveInteger t.retainUntilMs = true
  order : t.createdAtMs < t.retainUntilMs

/-- Whatever the store has to sign passes the checks of the documents: identifiers are valid,
and times are in range. A grant ends about an hour after the clock's reading at the latest. -/
structure Sound (s : Store) : Prop where
  issuerEpoch : isPositiveInteger s.issuerEpoch = true
  nodes : ∀ (id : String) (n : Node), s.nodes[id]? = some n → isValidOpaqueId id = true
  operations : ∀ (key : String) (o : Operation), s.operations[key]? = some o →
    isValidOpaqueId key = true ∧ isValidOpaqueId o.nodeId = true ∧
      o.brokerEventKey.all isValidOpaqueId = true ∧
      Fleet.supportedOperationBinding o.action o.mode = true
  grants : ∀ (id : String) (g : GrantRow), s.grants[id]? = some g →
    isValidOpaqueId id = true ∧ isValidOpaqueId g.grant.nodeId = true ∧
      g.grant.expiresAtMs ≤ latestInstant + 3605000
  tombstones : ∀ (id : String) (t : Tombstone), s.tombstones[id]? = some t → t.envelope = none →
    t.Signable id

/-- A new tombstone: its grant is revoked, and its revocation is among the documents or can
be signed later. -/
structure Tombstone.Raised (s : Store) (grants' : TreeMap String GrantRow)
    (docs : List InboxRow) (id : String) (t : Tombstone) : Prop where
  revoked : ∃ g' : GrantRow, grants'[id]? = some g' ∧ g'.status = .revoked ∧
    g'.grant.nodeId = t.nodeId
  signed : ∀ envelope, t.envelope = some envelope → RevokesGrant envelope id t.nodeId ∧
    ∃ r ∈ docs, r.nodeId = t.nodeId ∧ r.envelope = envelope
  signable : t.envelope = none → Sound s → t.Signable id

/-- The grants that are revoked at the time `time` get a tombstone that is kept long enough,
and no other tombstone changes. -/
structure Buries (time : ℕ) (s : Store) (grants' : TreeMap String GrantRow)
    (tombstones' : TreeMap String Tombstone) (docs : List InboxRow) : Prop where
  kept : ∀ (id : String) (t : Tombstone), s.tombstones[id]? = some t → tombstones'[id]? = some t
  raised : ∀ (id : String) (t : Tombstone), tombstones'[id]? = some t →
    s.tombstones[id]? = some t ∨ t.Raised s grants' docs id
  covered : ∀ (id : String) (g g' : GrantRow), s.grants[id]? = some g → grants'[id]? = some g' →
    g.status ≠ .revoked → g'.status = .revoked → ∃ t : Tombstone, tombstones'[id]? = some t ∧
      max time g.grant.expiresAtMs + tombstoneRetentionMs ≤ t.retainUntilMs

/-- The tombstone is as it was, or its revocation is signed and among the documents. -/
def Tombstone.Signs (docs : List InboxRow) (id : String) (t t' : Tombstone) : Prop :=
  t' = t ∨ (t.envelope = none ∧ ∃ envelope, t' = { t with envelope := some envelope } ∧
    RevokesGrant envelope id t.nodeId ∧ ∃ r ∈ docs, r.nodeId = t.nodeId ∧ r.envelope = envelope)

/-- Only tables around the operations changed: registrations stay with their node, and a
revoked node stays revoked. -/
structure Administers (s s' : Store) : Prop where
  issuerEpoch : s'.issuerEpoch = s.issuerEpoch
  tombstones : s'.tombstones = s.tombstones
  operations : s'.operations = s.operations
  approvals : s'.approvals = s.approvals
  grants : s'.grants = s.grants
  inbox : s'.inbox = s.inbox
  sessions : KeepsMarks s.sessions s'.sessions
  workloads : Table.Extends (fun _ w w' => w'.nodeId = w.nodeId) s.workloads s'.workloads
  nodes : Table.Extends (fun _ n n' => n.status = .revoked → n'.status = .revoked)
    s.nodes s'.nodes
  nodeIds : ∀ (id : String) (n : Node), s'.nodes[id]? = some n → s.nodes[id]? = none →
    isValidOpaqueId id = true

/-- The operator may decide approval groups. -/
def Operator.mayDecide (operator : Operator) : Bool :=
  !operator.disabled && !operator.mustChangePassword &&
    (operator.role == .admin || operator.role == .operator)

/-- A row an operation starts with. -/
structure Starts (s : Store) (o : Operation) : Prop where
  binding : Fleet.supportedOperationBinding o.action o.mode = true
  eventKey : o.brokerEventKey.all isValidOpaqueId = true
  node : ∃ n : Node, s.nodes[o.nodeId]? = some n
  ungranted : o.grantId = none
  status : o.status = o.decision.initialStatus
  workload : ∃ w : Workload, s.workloads[o.workloadId]? = some w ∧ w.nodeId = o.nodeId
  ungrouped : o.approvalId = none → o.decision ≠ .pendingApproval
  grouped : ∀ id, o.approvalId = some id → ∃ a : OperationApproval, s.approvals[id]? = some a ∧
    a.status = .pending ∧ a.groupScope.nodeId = o.nodeId

/-- The draft is a grant that passes the checks of the documents, and it is signed. -/
structure GrantIssueDraft.Signed (d : GrantIssueDraft) : Prop where
  envelope : d.envelope = ⟨d.grant.issuerEpoch, .grant d.grant⟩
  valid : d.grant.isValid = true
  expires : d.grant.expiresAtMs ≤ latestInstant + 3605000

/-- The draft became the grant of the requested operation `o`, queued for its node. -/
structure Issues (s : Store) (d : GrantIssueDraft) (o : Operation) (s' : Store) : Prop where
  fresh : s.grants[d.grant.id]? = none
  unique : ∀ (id : String) (g : GrantRow), s.grants[id]? = some g →
    g.grant.operationId ≠ d.grant.operationId
  operation : s.operations[d.grant.operationId]? = some o
  requested : o.status = .requested
  operations : ∀ key : String, s'.operations[key]? =
    if key = d.grant.operationId then some (o.grant d.grant) else s.operations[key]?
  grants : ∀ id : String, s'.grants[id]? =
    if id = d.grant.id then some ⟨d.grant, .issued, none, none⟩ else s.grants[id]?
  inbox : s'.inbox = s.inbox ++
    [⟨d.grant.nodeId, s.lastSeq d.grant.nodeId + 1, d.envelope, false, none⟩]
  rest : s' = { s with operations := s'.operations, grants := s'.grants, inbox := s'.inbox }

/-- Every operation that was pending and is not any more has its request closed by one of
the documents, if its node is active. -/
def Closed (cfg : Config) (s : Store) (operations' : TreeMap String Operation)
    (docs : List InboxRow) : Prop :=
  cfg.signer = true → ∀ (key : String) (o o' : Operation) eventKey, s.operations[key]? = some o →
    operations'[key]? = some o' → o.status.isPending = true → o'.status.isPending = false →
    o.brokerEventKey = some eventKey → s.nodeActive o.nodeId = true →
    ∃ r ∈ docs, r.Closes o.nodeId key eventKey

/-- A grant that ended takes its operation out of `granted`. -/
def Agrees (s : Store) (operations' : TreeMap String Operation)
    (grants' : TreeMap String GrantRow) : Prop :=
  ∀ (key : String) (o' : Operation) (id : String) (g g' : GrantRow), operations'[key]? = some o' →
    o'.status = .granted → o'.grantId = some id →
    s.grants[id]? = some g → g.status.isLive = true → grants'[id]? = some g' →
    g'.status.isLive = true

/-- Only operations fail whose grant was not handed out. -/
def FailsUnissued (s : Store) (operations' : TreeMap String Operation) : Prop :=
  ∀ (key : String) (o o' : Operation), s.operations[key]? = some o → operations'[key]? = some o' →
    o.status ≠ .failed → o'.status = .failed →
    ∃ id : String, ∃ g : GrantRow, o.grantId = some id ∧ s.grants[id]? = some g ∧ g.status = .issued

/-- `Write cfg time k s s'`: a statement of kind `k`, made at the time `time`, may turn `s`
into `s'`. The time only matters for tombstones. -/
inductive Write (cfg : Config) (time : ℕ) : Kind → Store → Store → Prop
  | administer {s s' : Store} : Administers s s' → Write cfg time .administer s s'
  | sign {s : Store} {tombstones' : TreeMap String Tombstone} {docs : List InboxRow} :
      Queued s.inbox docs →
      Table.Evolves (Tombstone.Signs docs) s.tombstones tombstones' →
      Write cfg time .sign s { s with tombstones := tombstones', inbox := s.inbox ++ docs }
  | tell {s : Store} {nodeId : String} {envelope : SignedEnvelope} :
      deliveredGrantId envelope = none →
      Write cfg time .tell s (s.enqueueNodeDocument nodeId envelope)
  | mark {s : Store} {inbox' : List InboxRow} {sessions' : TreeMap String NodeSession}
      {tombstones' : TreeMap String Tombstone} :
      (∀ r' ∈ inbox', ∃ r ∈ s.inbox, r.nodeId = r'.nodeId ∧ r.envelope = r'.envelope) →
      (∀ (id : String) (t : Tombstone), tombstones'[id]? = some t → s.tombstones[id]? = some t) →
      Write cfg time .mark s
        { s with inbox := inbox', sessions := sessions', tombstones := tombstones' }
  | regroup {s : Store} {approvals' : TreeMap String OperationApproval} :
      Regroups s.approvals approvals' → Write cfg time .regroup s { s with approvals := approvals' }
  | create {s : Store} {key : String} {o : Operation} :
      s.operations[key]? = none → isValidOpaqueId key = true → Starts s o →
      Write cfg time .create s { s with operations := s.operations.insert key o }
  | approve {s : Store} {approvals' : TreeMap String OperationApproval}
      {operations' : TreeMap String Operation} {id : String}
      {a a' : OperationApproval} :
      s.approvals[id]? = some a → a.status = .pending →
      approvals'[id]? = some a' → a'.status = .approved →
      a'.approverIds = a.approverIds → a'.groupScope = a.groupScope →
      (∀ other : String, other ≠ id → approvals'[other]? = s.approvals[other]?) →
      Table.Evolves (fun _ o o' => o' = o ∨
        (o.approvalId = some id ∧ o.Moves (Kind.moves .approve) o')) s.operations operations' →
      Write cfg time .approve s { s with approvals := approvals', operations := operations' }
  | issue {s s' : Store} {d : GrantIssueDraft} {o : Operation} :
      d.Signed → d.grant.action = o.action → Issues s d o s' → Write cfg time .issue s s'
  | evolve {k : Kind} {s : Store} {operations' : TreeMap String Operation}
      {grants' : TreeMap String GrantRow} {tombstones' : TreeMap String Tombstone}
      {docs : List InboxRow} :
      k.evolves = true →
      Table.Evolves (fun _ => Operation.Moves k.moves) s.operations operations' →
      Table.Evolves (fun _ => GrantRow.Moves k.grantMoves) s.grants grants' →
      Queued s.inbox docs →
      Buries time s grants' tombstones' docs →
      (k ≠ .abandon → Closed cfg s operations' docs) →
      (k ≠ .expire → Agrees s operations' grants') →
      (k ≠ .fail → FailsUnissued s operations') →
      Write cfg time k s
        { s with
          operations := operations'
          grants := grants'
          tombstones := tombstones'
          inbox := s.inbox ++ docs }

/-- Statements of the kinds `K`, made at the time `time`, turn `s` into `s'`. -/
abbrev Writes (cfg : Config) (time : ℕ) (K : List Kind) : Store → Store → Prop :=
  Transaction.Path (Write cfg time) K

/-! ### Coherence -/

/-- Operations and grants refer to each other, exactly the operations that went through
issuance have a grant, a group holds operations of one node, and a tombstone stands for a
revoked grant. -/
structure Coherent (s : Store) : Prop where
  owned : ∀ (id : String) (g : GrantRow), s.grants[id]? = some g →
    ∃ o : Operation, s.operations[g.grant.operationId]? = some o ∧ o.grantId = some id
  held : ∀ (key : String) (o : Operation) (id : String), s.operations[key]? = some o → o.grantId = some id →
    ∃ g : GrantRow, s.grants[id]? = some g ∧ g.grant.operationId = key
  ungranted : ∀ (key : String) (o : Operation), s.operations[key]? = some o →
    (o.grantId = none ↔ o.status.isUngranted = true)
  grouped : ∀ (key : String) (o : Operation) (id : String), s.operations[key]? = some o →
    o.approvalId = some id → ∃ a : OperationApproval, s.approvals[id]? = some a ∧
      a.groupScope.nodeId = o.nodeId
  tombstones : s.HoldsRevocations
  entombed : s.Entombed

variable {cfg : Config} {time : ℕ} {k : Kind} {K : List Kind} {s s' : Store}

/-- Rows that evolve in place keep their references. -/
theorem Coherent.evolve (h : Coherent s) (hk : k ≠ .issue)
    (hops : Table.Evolves (fun _ => Operation.Moves k.moves) s.operations s'.operations)
    (hgrants : Table.Evolves (fun _ g g' => g'.grant = g.grant) s.grants s'.grants)
    (happrovals : Table.Extends (fun _ a a' => a'.groupScope = a.groupScope)
      s.approvals s'.approvals)
    (htombstones : s'.HoldsRevocations) (hentombed : s'.Entombed) : Coherent s' where
  owned := by
    intro id g' hg'
    obtain ⟨g, hg, hgrant⟩ := hgrants.get_back hg'
    obtain ⟨o, ho, hid⟩ := h.owned id g hg
    obtain ⟨o', ho', hmove⟩ := hops.get ho
    exact ⟨o', by rwa [hgrant], hmove.grantId.trans hid⟩
  held := by
    intro key o' id ho' hid
    obtain ⟨o, ho, hmove⟩ := hops.get_back ho'
    obtain ⟨g, hg, hkey⟩ := h.held key o id ho (hmove.grantId.symm.trans hid)
    obtain ⟨g', hg', hgrant⟩ := hgrants.get hg
    exact ⟨g', hg', by rw [hgrant, hkey]⟩
  ungranted := by
    intro key o' ho'
    obtain ⟨o, ho, hmove⟩ := hops.get_back ho'
    rw [hmove.grantId, hmove.isUngranted hk]
    exact h.ungranted key o ho
  grouped := by
    intro key o' id ho' hid
    obtain ⟨o, ho, hmove⟩ := hops.get_back ho'
    obtain ⟨a, ha, hnode⟩ := h.grouped key o id ho (hmove.approvalId.symm.trans hid)
    obtain ⟨a', ha', hscope⟩ := happrovals id a ha
    exact ⟨a', ha', by rw [hscope, hnode, hmove.request]⟩
  tombstones := htombstones
  entombed := hentombed

/-- A new operation has no grant yet. -/
theorem Coherent.create {key : String} {o : Operation} (h : Coherent s)
    (hnew : s.operations[key]? = none) (ho : Starts s o) :
    Coherent { s with operations := s.operations.insert key o } where
  owned := by
    intro id g hg
    obtain ⟨owner, howner, hid⟩ := h.owned id g hg
    have hne : key ≠ g.grant.operationId := by
      rintro rfl
      rw [hnew] at howner
      cases howner
    refine ⟨owner, ?_, hid⟩
    rw [TreeMap.getElem?_insert, if_neg (by rwa [Std.compare_eq_iff_eq])]
    exact howner
  held := by
    intro key' o' id ho' hid
    rw [TreeMap.getElem?_insert] at ho'
    split at ho'
    · obtain rfl : o = o' := Option.some.inj ho'
      rw [ho.ungranted] at hid
      cases hid
    · exact h.held key' o' id ho' hid
  ungranted := by
    intro key' o' ho'
    rw [TreeMap.getElem?_insert] at ho'
    split at ho'
    · obtain rfl : o = o' := Option.some.inj ho'
      rw [ho.status]
      refine iff_of_true ho.ungranted ?_
      cases o.decision <;> rfl
    · exact h.ungranted key' o' ho'
  grouped := by
    intro key' o' id ho' hid
    rw [TreeMap.getElem?_insert] at ho'
    split at ho'
    · obtain rfl : o = o' := Option.some.inj ho'
      obtain ⟨a, ha, -, hnode⟩ := ho.grouped id hid
      exact ⟨a, ha, hnode⟩
    · exact h.grouped key' o' id ho' hid
  tombstones := h.tombstones
  entombed := h.entombed

/-- A new grant and its operation refer to each other. -/
theorem Coherent.issue {d : GrantIssueDraft} {o : Operation} (h : Coherent s)
    (hissue : Issues s d o s') : Coherent s' where
  owned := by
    intro id g hg
    rw [hissue.grants] at hg
    split at hg
    · next hid =>
      cases hg
      exact ⟨o.grant d.grant, by rw [hissue.operations, if_pos rfl], by rw [hid]; rfl⟩
    · obtain ⟨owner, howner, hid⟩ := h.owned id g hg
      refine ⟨owner, ?_, hid⟩
      rw [hissue.operations, if_neg (hissue.unique id g hg)]
      exact howner
  held := by
    intro key o' id ho' hid
    rw [hissue.operations] at ho'
    split at ho'
    · next hkey =>
      cases ho'
      obtain rfl : d.grant.id = id := Option.some.inj hid
      exact ⟨_, by rw [hissue.grants, if_pos rfl], hkey.symm⟩
    · obtain ⟨g, hg, hkey⟩ := h.held key o' id ho' hid
      refine ⟨g, ?_, hkey⟩
      have hne : id ≠ d.grant.id := by
        rintro rfl
        rw [hissue.fresh] at hg
        cases hg
      rw [hissue.grants, if_neg hne]
      exact hg
  ungranted := by
    intro key o' ho'
    rw [hissue.operations] at ho'
    split at ho'
    · cases ho'
      exact iff_of_false nofun nofun
    · exact h.ungranted key o' ho'
  grouped := by
    intro key o' id ho' hid
    rw [hissue.operations] at ho'
    rw [hissue.rest]
    split at ho'
    · cases ho'
      exact h.grouped _ o id hissue.operation hid
    · exact h.grouped key o' id ho' hid
  tombstones := by
    rw [hissue.rest]
    exact h.tombstones
  entombed := by
    intro id t ht
    rw [hissue.rest] at ht
    obtain ⟨g, hg, hrevoked⟩ := h.entombed id t ht
    have hne : id ≠ d.grant.id := by
      rintro rfl
      rw [hissue.fresh] at hg
      cases hg
    exact ⟨g, by rw [hissue.grants, if_neg hne, hg], hrevoked⟩

theorem Kind.grantMoves_revoked {b : GrantStatus} : k.grantMoves .revoked b = false := by
  revert b
  cases k <;> decide

theorem GrantRow.Moves.revoked {g g' : GrantRow} (h : g.Moves k.grantMoves g')
    (hrevoked : g.status = .revoked) : g'.status = .revoked := by
  rcases h.status with heq | hmoved
  · rw [heq, hrevoked]
  · rw [hrevoked, Kind.grantMoves_revoked] at hmoved
    cases hmoved

/-- A statement that buries the grants it revokes keeps tombstones and grants together. -/
theorem Buries.entombed {grants' : TreeMap String GrantRow}
    {tombstones' : TreeMap String Tombstone} {docs : List InboxRow}
    (hburies : Buries time s grants' tombstones' docs)
    (hgrants : Table.Evolves (fun _ => GrantRow.Moves k.grantMoves) s.grants grants')
    (h : s.Entombed) (id : String) (t : Tombstone) (ht : tombstones'[id]? = some t) :
    ∃ g : GrantRow, grants'[id]? = some g ∧ g.status = .revoked ∧ g.grant.nodeId = t.nodeId := by
  rcases hburies.raised id t ht with hold | hraised
  · obtain ⟨g, hg, hrevoked, hnode⟩ := h id t hold
    obtain ⟨g', hg', hmoves⟩ := hgrants.get hg
    exact ⟨g', hg', hmoves.revoked hrevoked, by rw [hmoves.grant, hnode]⟩
  · exact hraised.revoked

theorem Write.coherent (hw : Write cfg time k s s') (h : Coherent s) : Coherent s' := by
  cases hw with
  | administer ha =>
    refine ⟨?_, ?_, ?_, ?_, ?_, ?_⟩
    · rw [ha.grants, ha.operations]
      exact h.owned
    · rw [ha.grants, ha.operations]
      exact h.held
    · rw [ha.operations]
      exact h.ungranted
    · rw [ha.operations, ha.approvals]
      exact h.grouped
    · unfold Store.HoldsRevocations
      rw [ha.tombstones]
      exact h.tombstones
    · unfold Store.Entombed
      rw [ha.tombstones, ha.grants]
      exact h.entombed
  | sign _ hsigns =>
    refine ⟨h.owned, h.held, h.ungranted, h.grouped, ?_, ?_⟩
    · intro id t' envelope ht' henvelope
      obtain ⟨t, ht, rfl | ⟨-, envelope', rfl, hrevokes, -⟩⟩ := hsigns.get_back ht'
      · exact h.tombstones id t' envelope ht henvelope
      · cases henvelope
        exact hrevokes
    · intro id t' ht'
      obtain ⟨t, ht, rfl | ⟨-, envelope', rfl, -⟩⟩ := hsigns.get_back ht'
      · exact h.entombed id t' ht
      · exact h.entombed id t ht
  | tell => exact ⟨h.owned, h.held, h.ungranted, h.grouped, h.tombstones, h.entombed⟩
  | mark _ hkept =>
    refine ⟨h.owned, h.held, h.ungranted, h.grouped, ?_, ?_⟩
    · intro id t envelope ht
      exact h.tombstones id t envelope (hkept id t ht)
    · intro id t ht
      exact h.entombed id t (hkept id t ht)
  | regroup hgroups =>
    refine ⟨h.owned, h.held, h.ungranted, ?_, h.tombstones, h.entombed⟩
    intro key o id ho hid
    obtain ⟨a, ha, hnode⟩ := h.grouped key o id ho hid
    obtain ⟨a', ha', rfl | ⟨-, -, hscope⟩⟩ := hgroups.kept id a ha
    · exact ⟨a', ha', hnode⟩
    · exact ⟨a', ha', by rw [hscope, hnode]⟩
  | create hnew _ ho => exact h.create hnew ho
  | @approve _ approvals' _ id a a' ha _ ha' _ _ hscope hother hops =>
    refine h.evolve (k := .approve) nofun (hops.mono ?_) (Table.Evolves.refl fun _ _ => rfl) ?_
      h.tombstones h.entombed
    · rintro _ o o' (rfl | ⟨-, hmove⟩)
      · exact .refl
      · exact hmove
    · intro other b hb
      by_cases hid : other = id
      · subst hid
        obtain rfl : a = b := Option.mem_unique ha hb
        exact ⟨a', ha', hscope⟩
      · exact ⟨b, by rw [hother other hid, hb], rfl⟩
  | issue _ _ hissue => exact h.issue hissue
  | evolve hk hops hgrants _ hburies =>
    have hissue : k ≠ .issue := by
      rintro rfl
      cases hk
    refine h.evolve hissue hops (hgrants.mono fun _ _ _ hg => hg.grant)
      (Table.Extends.refl fun _ _ => rfl) ?_ (hburies.entombed hgrants h.entombed)
    intro id t envelope ht henvelope
    rcases hburies.raised id t ht with hold | hraised
    · exact h.tombstones id t envelope hold henvelope
    · exact (hraised.signed envelope henvelope).1

/-! ### Soundness -/

/-- Rows that keep their identifiers and their grants keep the store sound. -/
theorem Sound.evolve (h : Sound s) (hepoch : s'.issuerEpoch = s.issuerEpoch)
    (hnodes : s'.nodes = s.nodes)
    (hops : ∀ (key : String) (o' : Operation), s'.operations[key]? = some o' →
      ∃ o : Operation, s.operations[key]? = some o ∧ o'.toOperationRequest = o.toOperationRequest)
    (hgrants : ∀ (id : String) (g' : GrantRow), s'.grants[id]? = some g' →
      ∃ g : GrantRow, s.grants[id]? = some g ∧ g'.grant = g.grant)
    (htombstones : ∀ (id : String) (t : Tombstone), s'.tombstones[id]? = some t →
      t.envelope = none → t.Signable id) : Sound s' where
  issuerEpoch := hepoch ▸ h.issuerEpoch
  nodes := hnodes ▸ h.nodes
  operations := by
    intro key o' ho'
    obtain ⟨o, ho, hrequest⟩ := hops key o' ho'
    rw [congrArg OperationRequest.nodeId hrequest, congrArg OperationRequest.brokerEventKey hrequest,
      congrArg OperationRequest.action hrequest, congrArg OperationRequest.mode hrequest]
    exact h.operations key o ho
  grants := by
    intro id g' hg'
    obtain ⟨g, hg, hgrant⟩ := hgrants id g' hg'
    rw [hgrant]
    exact h.grants id g hg
  tombstones := htombstones

theorem Write.sound (hw : Write cfg time k s s') (h : Sound s) : Sound s' := by
  cases hw with
  | administer ha =>
    refine ⟨ha.issuerEpoch ▸ h.issuerEpoch, ?_, ha.operations ▸ h.operations,
      ha.grants ▸ h.grants, ha.tombstones ▸ h.tombstones⟩
    intro id n' hn'
    rcases hold : s.nodes[id]? with _ | n
    · exact ha.nodeIds id n' hn' hold
    · exact h.nodes id n hold
  | sign _ hsigns =>
    refine ⟨h.issuerEpoch, h.nodes, h.operations, h.grants, ?_⟩
    intro id t' ht' hunsigned
    obtain ⟨t, ht, rfl | ⟨-, envelope, rfl, -⟩⟩ := hsigns.get_back ht'
    · exact h.tombstones id t' ht hunsigned
    · cases hunsigned
  | mark _ hkept =>
    refine ⟨h.issuerEpoch, h.nodes, h.operations, h.grants, ?_⟩
    intro id t ht
    exact h.tombstones id t (hkept id t ht)
  | tell _ | regroup _ => exact ⟨h.issuerEpoch, h.nodes, h.operations, h.grants, h.tombstones⟩
  | create _ hkey hstarts =>
    refine ⟨h.issuerEpoch, h.nodes, ?_, h.grants, h.tombstones⟩
    intro key' o' ho'
    rw [Table.getElem?_insert] at ho'
    split at ho'
    · next heq =>
      cases ho'
      obtain ⟨n, hn⟩ := hstarts.node
      rw [heq]
      exact ⟨hkey, h.nodes _ n hn, hstarts.eventKey, hstarts.binding⟩
    · exact h.operations key' o' ho'
  | approve _ _ _ _ _ _ _ hops =>
    refine h.evolve rfl rfl ?_ (fun _ g hg => ⟨g, hg, rfl⟩) h.tombstones
    intro key o' ho'
    obtain ⟨o, ho, rfl | ⟨-, hmoves⟩⟩ := hops.get_back ho'
    · exact ⟨o', ho, rfl⟩
    · exact ⟨o, ho, hmoves.request⟩
  | @issue _ _ d o hsigned _ hissues =>
    obtain ⟨hid, hnode, -⟩ := Fleet.Grant.fields_of_isValid hsigned.valid
    refine ⟨?_, ?_, ?_, ?_, ?_⟩
    · rw [hissues.rest]
      exact h.issuerEpoch
    · rw [hissues.rest]
      exact h.nodes
    · intro key o' ho'
      rw [hissues.operations] at ho'
      split at ho'
      · next heq =>
        cases ho'
        rw [heq]
        exact h.operations _ o hissues.operation
      · exact h.operations key o' ho'
    · intro id g hg
      rw [hissues.grants] at hg
      split at hg
      · next heq =>
        cases hg
        rw [heq]
        exact ⟨hid, hnode, hsigned.expires⟩
      · exact h.grants id g hg
    · rw [hissues.rest]
      exact h.tombstones
  | evolve _ hops hgrants _ hburies =>
    refine h.evolve rfl rfl ?_ ?_ ?_
    · intro key o' ho'
      obtain ⟨o, ho, hmoves⟩ := hops.get_back ho'
      exact ⟨o, ho, hmoves.request⟩
    · intro id g' hg'
      obtain ⟨g, hg, hmoves⟩ := hgrants.get_back hg'
      exact ⟨g, hg, hmoves.grant⟩
    · intro id t ht hunsigned
      rcases hburies.raised id t ht with hold | hraised
      · exact h.tombstones id t hold hunsigned
      · exact hraised.signable hunsigned h

/-! ### Rows across a transaction -/

/-- A statement that adds no row changes each one as its kind may. -/
theorem Write.evolves (hw : Write cfg time k s s') (hcreate : k ≠ .create) (hissue : k ≠ .issue) :
    Table.Evolves (fun _ => Operation.Moves k.moves) s.operations s'.operations ∧
      Table.Evolves (fun _ => GrantRow.Moves k.grantMoves) s.grants s'.grants := by
  cases hw with
  | administer ha =>
    rw [ha.operations, ha.grants]
    exact ⟨.refl fun _ _ => .refl, .refl fun _ _ => .refl⟩
  | sign _ _ | tell _ | mark _ _ | regroup _ =>
    exact ⟨.refl fun _ _ => .refl, .refl fun _ _ => .refl⟩
  | create => exact absurd rfl hcreate
  | approve _ _ _ _ _ _ _ hops =>
    refine ⟨hops.mono ?_, .refl fun _ _ => .refl⟩
    rintro _ o o' (rfl | ⟨-, hmove⟩)
    · exact .refl
    · exact hmove
  | issue => exact absurd rfl hissue
  | evolve _ hops hgrants => exact ⟨hops, hgrants⟩

/-- No row is lost, and each one changes as the kind may. -/
theorem Write.extends (hw : Write cfg time k s s') :
    Table.Extends (fun _ => Operation.Advances k.moves) s.operations s'.operations ∧
      Table.Extends (fun _ => GrantRow.Moves k.grantMoves) s.grants s'.grants := by
  by_cases hcreate : k = .create
  · subst hcreate
    cases hw with
    | create hnew =>
      exact ⟨Table.extends_insert (fun _ _ => .refl) hnew, .refl fun _ _ => .refl⟩
    | evolve hk => cases hk
  by_cases hissue : k = .issue
  · subst hissue
    cases hw with
    | issue _ _ hissues =>
      refine ⟨?_, ?_⟩
      · intro key o ho
        rw [hissues.operations]
        split
        · next hkey =>
          obtain rfl := Option.some.inj (ho.symm.trans (hkey ▸ hissues.operation))
          refine ⟨_, rfl, rfl, rfl, Nat.le_succ _, .inr ⟨?_, Nat.lt_succ_self _⟩⟩
          rw [hissues.requested]
          rfl
        · exact ⟨o, ho, .refl⟩
      · intro id g hg
        rw [hissues.grants]
        split
        · next hid =>
          rw [hid, hissues.fresh] at hg
          cases hg
        · exact ⟨g, hg, .refl⟩
    | evolve hk => cases hk
  · obtain ⟨hops, hgrants⟩ := hw.evolves hcreate hissue
    exact ⟨hops.extends.mono fun _ _ _ h => h.toAdvances, hgrants.extends⟩

theorem Kind.movesAny_of_mem (hk : k ∈ K) (h : k.moves a b = true) : movesAny K a b = true :=
  List.any_eq_true.mpr ⟨k, hk, h⟩

theorem Kind.grantMovesAny_of_mem {a b : GrantStatus} (hk : k ∈ K) (h : k.grantMoves a b = true) :
    grantMovesAny K a b = true :=
  List.any_eq_true.mpr ⟨k, hk, h⟩

/-- A transaction that adds no row changes each one as its kinds may. -/
theorem Writes.evolves (hK : Kind.Unchained K) (hcreate : .create ∉ K) (hissue : .issue ∉ K)
    (hw : Writes cfg time K s s') :
    Table.Evolves (fun _ => Operation.Moves (Kind.movesAny K)) s.operations s'.operations ∧
      Table.Evolves (fun _ => GrantRow.Moves (Kind.grantMovesAny K)) s.grants s'.grants := by
  refine hw.relates (R := fun s t =>
    Table.Evolves (fun _ => Operation.Moves (Kind.movesAny K)) s.operations t.operations ∧
      Table.Evolves (fun _ => GrantRow.Moves (Kind.grantMovesAny K)) s.grants t.grants)
    ?_ ?_ ?_
  · intro s
    exact ⟨.refl fun _ _ => .refl, .refl fun _ _ => .refl⟩
  · intro s t u h₁ h₂
    exact ⟨h₁.1.trans (fun _ _ _ _ h h' => h.trans hK.1 h') h₂.1,
      h₁.2.trans (fun _ _ _ _ h h' => h.trans hK.2 h') h₂.2⟩
  · intro k hk s t hw
    obtain ⟨hops, hgrants⟩ := hw.evolves (fun heq => hcreate (heq ▸ hk)) fun heq => hissue (heq ▸ hk)
    exact ⟨hops.mono fun _ _ _ h => h.mono fun _ _ => Kind.movesAny_of_mem hk,
      hgrants.mono fun _ _ _ h => h.mono fun _ _ => Kind.grantMovesAny_of_mem hk⟩

theorem Writes.operations (hK : Kind.Unchained K) (hw : Writes cfg time K s s') :
    Table.Extends (fun _ => Operation.Advances (Kind.movesAny K)) s.operations s'.operations := by
  refine hw.relates (R := fun s t => Table.Extends
    (fun _ => Operation.Advances (Kind.movesAny K)) s.operations t.operations)
    ?_ ?_ ?_
  · intro s
    exact .refl fun _ _ => .refl
  · intro s t u h₁ h₂
    exact h₁.trans (fun _ _ _ _ h h' => h.trans hK.1 h') h₂
  · intro k hk s t hw
    exact hw.extends.1.mono fun _ _ _ h => h.mono fun _ _ => Kind.movesAny_of_mem hk

theorem Writes.grants (hK : Kind.Unchained K) (hw : Writes cfg time K s s') :
    Table.Extends (fun _ => GrantRow.Moves (Kind.grantMovesAny K)) s.grants s'.grants := by
  refine hw.relates (R := fun s t => Table.Extends
    (fun _ => GrantRow.Moves (Kind.grantMovesAny K)) s.grants t.grants)
    ?_ ?_ ?_
  · intro s
    exact .refl fun _ _ => .refl
  · intro s t u h₁ h₂
    exact h₁.trans (fun _ _ _ _ h h' => h.trans hK.2 h') h₂
  · intro k hk s t hw
    exact hw.extends.2.mono fun _ _ _ h => h.mono fun _ _ => Kind.grantMovesAny_of_mem hk

theorem Writes.sound (hw : Writes cfg time K s s') (h : Sound s) : Sound s' :=
  Transaction.Path.invariant (fun _ _ _ _ hw h => Write.sound hw h) hw h

theorem Writes.coherent (hw : Writes cfg time K s s') (h : Coherent s) : Coherent s' :=
  Transaction.Path.invariant (fun _ _ _ _ hw h => Write.coherent hw h) hw h

end BlindPass.Controller
