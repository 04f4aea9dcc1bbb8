import BlindPass.Controller.Machine
import BlindPass.Fleet.Base64

/-!
# Identities published ahead of the store

The authority keeps the identity of every broker in tables of its own. An action that changes an
identity publishes the new one while its transaction on the store is still open, so a crash between
the two commits leaves an identity the store knows nothing of, and the action is made again. The
authority takes what it holds already, or a successor of it; a controller whose identity is not
taken fences itself.
-/

namespace BlindPass.Controller

open Fleet (NodeKeyRotation SignedEnvelope isValidOpaqueId maxSafeInteger)
open Transaction (bind_eq_ok)

/-- The two public keys of a broker, with their version. -/
structure BrokerKeys where
  keyVersion : ℕ
  signingPublic : String
  recipientPublic : String
  deriving DecidableEq

/-- The keys a staged rotation leads to. -/
structure PendingBrokerKey extends BrokerKeys where
  rotationId : String
  deriving DecidableEq

/-- The identity of a broker. -/
structure BrokerTrustDraft extends BrokerKeys where
  nodeId : String
  state : RecordStatus
  pending : Option PendingBrokerKey
  deriving DecidableEq

/-- A row of `broker_trust`. -/
structure BrokerTrust where
  issuerKeyId : String
  revision : ℕ
  identity : BrokerTrustDraft
  deriving DecidableEq

/-- The identities the authority holds, and every key it took with the node it is of. -/
structure TrustLedger where
  trust : Std.TreeMap String BrokerTrust
  history : List (String × BrokerKeys)

def safeInteger (value : ℕ) : Bool := decide (1 ≤ value) && decide (value ≤ maxSafeInteger)

def publicKey (value : String) : Bool :=
  (Fleet.base64UrlDecode value.toList 32).any fun bytes =>
    Fleet.base64UrlEncode bytes == value.toList

def BrokerKeys.isValid (k : BrokerKeys) : Bool :=
  safeInteger k.keyVersion && publicKey k.signingPublic && publicKey k.recipientPublic

/-- `BrokerTrustDraft::validate` -/
def BrokerTrustDraft.isValid (d : BrokerTrustDraft) : Bool :=
  isValidOpaqueId d.nodeId && d.toBrokerKeys.isValid &&
    d.pending.all fun k => d.state == .active && k.toBrokerKeys.isValid &&
      d.keyVersion + 1 == k.keyVersion && isValidOpaqueId k.rotationId

namespace TrustLedger

variable (l : TrustLedger)

/-- The keys are in the history, or are added to it. No two rows share a public key. -/
def retain (nodeId : String) (keys : BrokerKeys) : Option TrustLedger :=
  match l.history.find? fun e => e.1 == nodeId && e.2.keyVersion == keys.keyVersion with
  | some e => if e.2 = keys then some l else none
  | none =>
    if l.history.any fun e => e.2.signingPublic == keys.signingPublic ||
        e.2.recipientPublic == keys.recipientPublic then none
    else some { l with history := l.history ++ [(nodeId, keys)] }

/-- Write a row, and retain its keys. -/
def record (row : BrokerTrust) : Option TrustLedger := do
  let d := row.identity
  let written := { l with trust := l.trust.insert d.nodeId row }
  let retained ← written.retain d.nodeId d.toBrokerKeys
  match d.pending with
  | none => some retained
  | some k => retained.retain d.nodeId k.toBrokerKeys

/-- An identity that may come after another one. -/
def succeeds (previous d : BrokerTrustDraft) : Bool :=
  if previous.state == .revoked && (d.state != .revoked || d.pending.isSome) then false
  else if d.keyVersion = previous.keyVersion then
    previous.toBrokerKeys == d.toBrokerKeys &&
      (d.state == .revoked || previous.pending.isNone || previous.pending == d.pending)
  else if d.keyVersion = previous.keyVersion + 1 then
    -- keys that were approved before a revocation may be applied after it
    (if previous.state == .revoked then l.history.contains (d.nodeId, d.toBrokerKeys)
      else previous.pending.any (·.toBrokerKeys == d.toBrokerKeys)) && d.pending.isNone
  else false

/-- `publish_broker_trust`, by a process that holds the active record or does not. -/
def publishBrokerTrust (issuer : String) (held : Bool) (expected : ℕ) (d : BrokerTrustDraft) :
    Option TrustLedger :=
  if !d.isValid || decide (maxSafeInteger ≤ expected) || !held then none
  else
    match l.trust[d.nodeId]? with
    | none => if expected = 0 then l.record ⟨issuer, 1, d⟩ else none
    | some previous =>
      if previous.issuerKeyId ≠ issuer then none
      else if previous.identity = d ∧
          (previous.revision = expected ∨ previous.revision = expected + 1) then some l
      else if previous.revision = expected && l.succeeds previous.identity d then
        l.record ⟨issuer, previous.revision + 1, d⟩
      else none

/-- `publish_broker_identity`: read the revision, and publish the next one. -/
def publishBrokerIdentity (issuer : String) (held : Bool) (d : BrokerTrustDraft) :
    Option TrustLedger :=
  match l.trust[d.nodeId]? with
  | none => l.publishBrokerTrust issuer held 0 d
  | some row =>
    if row.issuerKeyId ≠ issuer then l.publishBrokerTrust issuer held 0 d
    else if row.identity.isValid && safeInteger row.revision then
      l.publishBrokerTrust issuer held row.revision d
    else none

end TrustLedger

/-! ### The actions -/

def Node.brokerKeys (n : Node) : BrokerKeys := ⟨n.keyVersion, n.signingPub, n.recipientPub⟩

/-- The keys a rotation leads to. -/
def pendingBrokerKey (r : NodeKeyRotation) : PendingBrokerKey :=
  ⟨⟨r.toKeyVersion, r.signingPublic, r.recipientPublic⟩, r.rotationId⟩

/-- The identity an action publishes before it commits. -/
def Event.identity (s : Store) : Event → Option BrokerTrustDraft
  | .approveEnrollment e _ => some ⟨⟨1, e.signingPub, e.recipientPub⟩, e.nodeId, .active, none⟩
  | .stageNodeKeyRotation nodeId _ draft _ _ => s.nodes[nodeId]?.map fun n =>
    ⟨n.brokerKeys, nodeId, .active, some (pendingBrokerKey draft.rotation)⟩
  | .completeNodeKeyRotation nodeId rotationId _ _ =>
    (s.rotations[nodeId]?.filter (·.rotationId == rotationId)).bind fun r =>
      s.nodes[nodeId]?.map fun n => ⟨(pendingBrokerKey r).toBrokerKeys, nodeId, n.status, none⟩
  | .revokeNode nodeId _ _ _ => (s.nodes[nodeId]?.filter (·.status == .active)).map fun n =>
    ⟨n.brokerKeys, nodeId, .revoked, none⟩
  | _ => none

/-- What becomes of an action. -/
inductive ActionOutcome
  | refused
  | fenced
  | done (s : Store) (l : TrustLedger)

/-- An action of a controller with the authority's ledger beside its store. -/
def Store.act (cfg : Config) (bytes : SignedEnvelope → ℕ) (issuer : String) (held : Bool) (s : Store)
    (l : TrustLedger) (e : Event) : ActionOutcome :=
  match s.step cfg bytes e with
  | (s', .accepted true) =>
    match e.identity s with
    | none => .done s' l
    | some d => (l.publishBrokerIdentity issuer held d).elim .fenced (.done s')
  | _ => .refused

/-- The same action on the same node. The route draws the identifier of a rotation, and signs the
documents of an action, each time. -/
inductive Event.Repeats : Event → Event → Prop
  | approveEnrollment {e now now'} :
    Repeats (.approveEnrollment e now) (.approveEnrollment e now')
  | stageNodeKeyRotation {nodeId version now now' expired expired'}
    {draft draft' : NodeKeyRotationDraft}
    (signing : draft.rotation.signingPublic = draft'.rotation.signingPublic)
    (recipient : draft.rotation.recipientPublic = draft'.rotation.recipientPublic) :
    Repeats (.stageNodeKeyRotation nodeId version draft now expired)
      (.stageNodeKeyRotation nodeId version draft' now' expired')
  | completeNodeKeyRotation {nodeId rotationId version fingerprint} :
    Repeats (.completeNodeKeyRotation nodeId rotationId version fingerprint)
      (.completeNodeKeyRotation nodeId rotationId version fingerprint)
  | revokeNode {nodeId revocations revocations' nodeRevocation nodeRevocation' now now'} :
    Repeats (.revokeNode nodeId revocations nodeRevocation now)
      (.revokeNode nodeId revocations' nodeRevocation' now')

/-- Not a rotation under another identifier. -/
def Event.keepsRotation : Event → Event → Bool
  | .stageNodeKeyRotation _ _ draft _ _, .stageNodeKeyRotation _ _ draft' _ _ =>
    draft.rotation.rotationId == draft'.rotation.rotationId
  | _, _ => true

/-- The store has the node as the identity says. -/
structure Store.Holds (s : Store) (d : BrokerTrustDraft) : Prop where
  keys : ∃ n, s.nodes[d.nodeId]? = some n ∧ n.brokerKeys = d.toBrokerKeys ∧ n.status = d.state
  pending : ∀ k ∈ d.pending, s.rotations[d.nodeId]?.map pendingBrokerKey = some k

/-! ### The ledger -/

namespace TrustLedger

variable {l l' : TrustLedger} {d : BrokerTrustDraft} {issuer : String} {held : Bool}

theorem retain_trust {nodeId : String} {keys : BrokerKeys}
    (h : l.retain nodeId keys = some l') : l'.trust = l.trust := by
  unfold retain at h
  split at h
  all_goals
    split_ifs at h
    cases h
    rfl

theorem record_trust {row : BrokerTrust} (h : l.record row = some l') :
    l'.trust[row.identity.nodeId]? = some row := by
  obtain ⟨retained, hretained, h⟩ := Option.bind_eq_some_iff.mp h
  have htrust : l'.trust = retained.trust := by
    split at h
    · cases h
      rfl
    · exact retain_trust h
  rw [htrust, retain_trust hretained]
  exact Std.TreeMap.getElem?_insert_self

theorem publish_of_row {revision : ℕ} {previous : BrokerTrustDraft}
    (h : l.trust[d.nodeId]? = some ⟨issuer, revision, previous⟩) :
    l.publishBrokerIdentity issuer held d =
      if !(previous.isValid && safeInteger revision) then none
      else if !d.isValid || decide (maxSafeInteger ≤ revision) || !held then none
      else if previous = d then some l
      else if l.succeeds previous d then l.record ⟨issuer, revision + 1, d⟩
      else none := by
  rw [publishBrokerIdentity, h]
  cases hvalid : previous.isValid && safeInteger revision with
  | false => simp [hvalid]
  | true => simp [hvalid, publishBrokerTrust, h]

/-- The ledger holds the identity, in a row that can be read. -/
def HasIdentity (l : TrustLedger) (issuer : String) (d : BrokerTrustDraft) : Prop :=
  d.isValid = true ∧ ∃ revision, l.trust[d.nodeId]? = some ⟨issuer, revision, d⟩ ∧
    safeInteger revision = true

theorem hasIdentity_publish (h : l.publishBrokerIdentity issuer held d = some l') :
    l'.HasIdentity issuer d := by
  cases hrow : l.trust[d.nodeId]? with
  | none =>
    simp only [publishBrokerIdentity, publishBrokerTrust, hrow, if_true] at h
    split_ifs at h with hrefused
    simp only [Bool.or_eq_true, not_or, Bool.not_eq_true', Bool.not_eq_false] at hrefused
    exact ⟨hrefused.1.1, 1, record_trust h, by decide⟩
  | some row =>
    obtain ⟨issuerKeyId, revision, previous⟩ := row
    by_cases hissuer : issuerKeyId = issuer
    · subst hissuer
      rw [publish_of_row hrow] at h
      split_ifs at h with hread hrefused hsame hnext
      · simp only [Bool.not_eq_true', Bool.not_eq_false, Bool.and_eq_true] at hread
        cases h
        exact ⟨hsame ▸ hread.1, revision, hsame ▸ hrow, hread.2⟩
      · simp only [Bool.or_eq_true, not_or, Bool.not_eq_true', Bool.not_eq_false,
          decide_eq_true_eq, Nat.not_le] at hrefused
        refine ⟨hrefused.1.1, revision + 1, record_trust h, ?_⟩
        simp only [safeInteger, Bool.and_eq_true, decide_eq_true_eq]
        exact ⟨by omega, hrefused.1.2⟩
    · -- a row of another issuer is not read, and not replaced
      simp [publishBrokerIdentity, publishBrokerTrust, hrow, hissuer] at h

/-- The row of a node has not used up its revisions. -/
def hasRevisions (l : TrustLedger) (nodeId : String) : Bool :=
  l.trust[nodeId]?.any fun row => decide (row.revision < maxSafeInteger)

theorem HasIdentity.publish_again (h : l.HasIdentity issuer d) :
    l.publishBrokerIdentity issuer true d = if l.hasRevisions d.nodeId then some l else none := by
  obtain ⟨hvalid, revision, hrow, hsafe⟩ := h
  rw [publish_of_row hrow]
  by_cases hleft : revision < maxSafeInteger
  · simp [hasRevisions, hrow, hvalid, hsafe, hleft, not_le.mpr hleft]
  · simp [hasRevisions, hrow, hvalid, hsafe, hleft, not_lt.mp hleft]

/-- While a rotation is prepared, the ledger takes no other one for the same keys. -/
theorem HasIdentity.publish_other {k k' : PendingBrokerKey} (h : l.HasIdentity issuer d)
    (hactive : d.state = .active) (hpending : d.pending = some k) (hother : k ≠ k') :
    l.publishBrokerIdentity issuer held { d with pending := some k' } = none := by
  obtain ⟨-, revision, hrow, -⟩ := h
  have hne : d ≠ { d with pending := some k' } := by
    intro heq
    rw [heq] at hpending
    exact hother (Option.some.inj hpending).symm
  have hsucceeds : l.succeeds d { d with pending := some k' } = false := by
    simp [succeeds, hactive, hpending, hother]
  rw [publish_of_row (d := { d with pending := some k' }) hrow]
  simp only [hne, hsucceeds, if_false, Bool.false_eq_true, ite_self]

end TrustLedger

/-! ### The store -/

section Actions

variable {cfg : Config} {bytes : SignedEnvelope → ℕ} {s s' : Store} {nodeId : String}
  {d : BrokerTrustDraft} {n : Node} {now : ℕ}

theorem commit_accepted {x : Except StoreError (Store × Bool)}
    (h : s.commit .accepted x = (s', .accepted true)) : x = .ok (s', true) := by
  cases x with
  | error => cases h
  | ok a =>
    obtain ⟨s₁, accepted⟩ := a
    cases h
    rfl

theorem getElem?_updateNode {t : Std.TreeMap String Node} {f : Node → Node}
    (h : t[nodeId]? = some n) :
    (Table.updateWhere t (fun k _ => k == nodeId) f)[nodeId]? = some (f n) := by
  rw [Table.getElem?_updateWhere, h, Option.map_some, if_pos (beq_self_eq_true nodeId)]

theorem withdrawNodeGrants_nodes {reason : String}
    {validated : List (NodeGrantRevocationDraft × Fleet.Revocation)}
    (h : validated.foldlM (fun s v => s.withdrawNodeGrant nodeId reason now v) s = .ok s') :
    s'.nodes = s.nodes := by
  refine Transaction.foldlM_induct (P := fun _ t => t.nodes = s.nodes) ?_ h rfl
  intro v rest t t' ht hstep
  obtain ⟨buried, hburied, hstep⟩ := bind_eq_ok.mp hstep
  cases hstep
  unfold Store.insertTombstone at hburied
  split at hburied
  · cases hburied
  · cases hburied
    exact ht

theorem Store.revokeNode_holds {revocations : List NodeGrantRevocationDraft}
    {nodeRevocation : SignedEnvelope} (hn : s.nodes[nodeId]? = some n) (hactive : n.status = .active)
    (h : s.revokeNode nodeId revocations nodeRevocation now = .ok (s', true)) :
    s'.Holds ⟨n.brokerKeys, nodeId, .revoked, none⟩ := by
  unfold Store.revokeNode at h
  simp only [hn, hactive, reduceCtorEq, if_false] at h
  obtain ⟨_, -, h⟩ := bind_eq_ok.mp h
  obtain ⟨validated, -, h⟩ := bind_eq_ok.mp h
  split at h
  · cases h
  obtain ⟨withdrawn, hwithdrawn, h⟩ := bind_eq_ok.mp h
  obtain rfl := (Prod.mk.inj (Except.ok.inj h)).1
  have hnode := (congrArg (·[nodeId]?) (withdrawNodeGrants_nodes hwithdrawn)).trans hn
  have hrow := getElem?_updateNode
    (f := fun n => { n with status := .revoked, revocationQueued := true }) hnode
  exact ⟨⟨_, hrow, rfl, rfl⟩, nofun⟩

theorem Store.stageNodeKeyRotation_holds {expectedKeyVersion expired : ℕ}
    {draft : NodeKeyRotationDraft} (hn : s.nodes[nodeId]? = some n)
    (h : s.stageNodeKeyRotation cfg nodeId expectedKeyVersion draft now expired = .ok (s', true)) :
    draft.rotation.toKeyVersion = n.keyVersion + 1 ∧
      s'.Holds ⟨n.brokerKeys, nodeId, .active, some (pendingBrokerKey draft.rotation)⟩ := by
  unfold Store.stageNodeKeyRotation at h
  simp only [hn] at h
  split at h
  · cases h
  next hfits =>
  obtain ⟨_, -, h⟩ := bind_eq_ok.mp h
  obtain ⟨validated, -, h⟩ := bind_eq_ok.mp h
  split at h
  · cases h
  obtain ⟨withdrawn, hwithdrawn, h⟩ := bind_eq_ok.mp h
  obtain ⟨staged, hstaged, h⟩ := bind_eq_ok.mp h
  cases h
  have hnode := (congrArg (·[nodeId]?) (withdrawNodeGrants_nodes hwithdrawn)).trans hn
  simp only [Store.rotationFits, Bool.not_eq_true', Bool.not_eq_false, Bool.and_eq_true,
    beq_iff_eq] at hfits
  unfold Store.insertRotation at hstaged
  split_ifs at hstaged
  cases hstaged
  refine ⟨hfits.1.1.1.2, ⟨n, hnode, rfl, hfits.1.1.1.1.1.1.1⟩, ?_⟩
  rintro k ⟨⟩
  exact congrArg _ Std.TreeMap.getElem?_insert_self

theorem Store.completeNodeKeyRotation_holds {rotationId fingerprint : String} {keyVersion : ℕ}
    {r : NodeKeyRotation} (hr : s.rotations[nodeId]? = some r) (hid : r.rotationId = rotationId)
    (hn : s.nodes[nodeId]? = some n)
    (h : s.completeNodeKeyRotation cfg nodeId rotationId keyVersion fingerprint = (s', true)) :
    s'.Holds ⟨(pendingBrokerKey r).toBrokerKeys, nodeId, n.status, none⟩ := by
  unfold Store.completeNodeKeyRotation at h
  simp only [hr, hid, ne_eq, not_true, if_false] at h
  split at h
  · cases h
  split at h
  · cases h
  obtain rfl := (Prod.mk.inj h).1
  have hrow := getElem?_updateNode (f := fun n => { n with
    signingPub := r.signingPublic
    recipientPub := r.recipientPublic
    keyVersion := r.toKeyVersion }) hn
  exact ⟨⟨_, hrow, rfl, rfl⟩, nofun⟩

/-- An action that goes through leaves the node as the identity it published says. -/
theorem Event.holds {e : Event} (h : s.step cfg bytes e = (s', .accepted true))
    (hd : e.identity s = some d) : s'.Holds d := by
  cases e with
  | approveEnrollment =>
    cases hd
    have h := commit_accepted h
    unfold Store.approveEnrollment at h
    split_ifs at h
    all_goals cases h
    exact ⟨⟨_, Std.TreeMap.getElem?_insert_self, rfl, rfl⟩, nofun⟩
  | revokeNode =>
    obtain ⟨n, hn, rfl⟩ := Option.map_eq_some_iff.mp hd
    obtain ⟨hn, hactive⟩ := Option.filter_eq_some_iff.mp hn
    exact Store.revokeNode_holds hn (eq_of_beq hactive) (commit_accepted h)
  | stageNodeKeyRotation =>
    obtain ⟨n, hn, rfl⟩ := Option.map_eq_some_iff.mp hd
    exact (Store.stageNodeKeyRotation_holds hn (commit_accepted h)).2
  | completeNodeKeyRotation =>
    obtain ⟨r, hr, hd⟩ := Option.bind_eq_some_iff.mp hd
    obtain ⟨n, hn, rfl⟩ := Option.map_eq_some_iff.mp hd
    obtain ⟨hr, hid⟩ := Option.filter_eq_some_iff.mp hr
    obtain ⟨hstore, haccepted⟩ := Prod.mk.inj h
    exact Store.completeNodeKeyRotation_holds hr (eq_of_beq hid) hn
      (Prod.ext hstore (Answer.accepted.inj haccepted))
  | _ => cases hd

/-- The action made again publishes the same identity, unless it is a rotation under another
identifier. -/
theorem Event.Repeats.identity {a b : Event} {s₁ : Store} (hrepeats : a.Repeats b)
    (ha : s.step cfg bytes a = (s₁, .accepted true)) (hd : a.identity s = some d)
    (hb : s.step cfg bytes b = (s', .accepted true)) :
    if a.keepsRotation b then b.identity s = some d
    else ∃ k k', d.state = .active ∧ d.pending = some k ∧ k ≠ k' ∧
      b.identity s = some { d with pending := some k' } := by
  cases hrepeats with
  | approveEnrollment | completeNodeKeyRotation | revokeNode => exact hd
  | stageNodeKeyRotation hsigning hrecipient =>
    obtain ⟨n, hn, rfl⟩ := Option.map_eq_some_iff.mp hd
    have hversion := (Store.stageNodeKeyRotation_holds hn (commit_accepted ha)).1
    have hversion' := (Store.stageNodeKeyRotation_holds hn (commit_accepted hb)).1
    split
    next hkeeps =>
      simp only [Event.identity, hn, Option.map_some, pendingBrokerKey, hversion, hversion',
        hsigning, hrecipient, eq_of_beq hkeeps]
    next hkeeps =>
      refine ⟨_, _, rfl, rfl, fun heq => hkeeps ?_, congrArg (Option.map _) hn⟩
      exact beq_iff_eq.mpr (congrArg PendingBrokerKey.rotationId heq)

/-! ### An action made again -/

/-- An identity is published, and the process ends before its action is committed. The action made
again on the store as it was goes through, and store and ledger agree, exactly if it is not a
rotation under another identifier and the row of the node has a revision left. -/
theorem repeated_done_iff {issuer : String} {held : Bool} {s₁ : Store} {l l₁ : TrustLedger}
    {a b : Event} (ha : s.step cfg bytes a = (s₁, .accepted true)) (hd : a.identity s = some d)
    (hpublished : l.publishBrokerIdentity issuer held d = some l₁) (hrepeats : a.Repeats b)
    (hb : s.step cfg bytes b = (s', .accepted true)) :
    (∃ l' row, s.act cfg bytes issuer true l₁ b = .done s' l' ∧ l'.trust[d.nodeId]? = some row ∧
        s'.Holds row.identity) ↔ a.keepsRotation b = true ∧ l₁.hasRevisions d.nodeId = true := by
  have hhas := TrustLedger.hasIdentity_publish hpublished
  have hidentity := hrepeats.identity ha hd hb
  cases hkeeps : a.keepsRotation b with
  | true =>
    rw [hkeeps, if_pos rfl] at hidentity
    have hact : s.act cfg bytes issuer true l₁ b =
        (if l₁.hasRevisions d.nodeId then some l₁ else none).elim .fenced (.done s') := by
      simp only [Store.act, hb, hidentity, hhas.publish_again]
    obtain ⟨-, revision, hrow, -⟩ := hhas
    cases hleft : l₁.hasRevisions d.nodeId with
    | true =>
      rw [hleft] at hact
      exact iff_of_true ⟨l₁, _, hact, hrow, Event.holds hb hidentity⟩ ⟨rfl, rfl⟩
    | false => simp [hact, hleft]
  | false =>
    rw [hkeeps, if_neg Bool.false_ne_true] at hidentity
    obtain ⟨k, k', hactive, hpending, hother, hidentity⟩ := hidentity
    simp [Store.act, hb, hidentity, hhas.publish_other hactive hpending hother]

end Actions

namespace Sample

/-- An encoded key of 32 bytes. -/
def publicKeyOf (first : Char) : String := String.ofList (first :: List.replicate 42 'A')

/-- A node with such keys is enrolled. -/
def enrollKeys : Event :=
  .approveEnrollment ⟨"node-1", "edge", publicKeyOf 'B', publicKeyOf 'C', "1", "none", 5000⟩ 1000

def keyed : Store := (start.step config (fun _ => 100) enrollKeys).1

/-- The ledger with the identity of the node. -/
def keyedLedger : Option TrustLedger :=
  TrustLedger.publishBrokerIdentity ⟨∅, []⟩ "issuer" true
    ⟨⟨1, publicKeyOf 'B', publicKeyOf 'C'⟩, "node-1", .active, none⟩

/-- A rotation of the keys, as the route drafts it. -/
def rotateKeys (rotationId : String) : Event :=
  let rotation : NodeKeyRotation := ⟨"node-1", rotationId, 1, 2, publicKeyOf 'D', publicKeyOf 'E',
    publicKeyOf 'D' ++ "-" ++ publicKeyOf 'E', 1⟩
  .stageNodeKeyRotation "node-1" 1 ⟨rotation, ⟨1, .nodeKeyRotation rotation⟩, []⟩ 2000 2000

end Sample

open Sample in
/-- An enrollment that was not committed is approved again. -/
theorem repeated_done_iff_enrolled : ∃ l ∈ keyedLedger, ∃ l' row,
    start.act config (fun _ => 100) "issuer" true l enrollKeys = .done keyed l' ∧
      l'.trust["node-1"]? = some row ∧ keyed.Holds row.identity := by
  have hledger : keyedLedger.any (·.hasRevisions "node-1") = true := by decide +kernel
  obtain ⟨l, hl, hleft⟩ := (Option.any_eq_true _ _).mp hledger
  have hstep : start.step config (fun _ => 100) enrollKeys = (keyed, .accepted true) :=
    Prod.ext rfl (by decide +kernel)
  exact ⟨l, hl, (repeated_done_iff hstep rfl hl .approveEnrollment hstep).mpr ⟨rfl, hleft⟩⟩

open Sample in
/-- A rotation is published and not committed. The route draws another identifier when it is asked
for again, and the controller fences itself. -/
theorem rotation_fences : (rotateKeys "rot_1").Repeats (rotateKeys "rot_2") ∧
    (keyed.step config (fun _ => 100) (rotateKeys "rot_1")).2 = .accepted true ∧
    (keyedLedger.bind fun l => ((rotateKeys "rot_1").identity keyed).bind fun d =>
      (l.publishBrokerIdentity "issuer" true d).map fun l₁ =>
        keyed.act config (fun _ => 100) "issuer" true l₁ (rotateKeys "rot_2")) matches some .fenced :=
  ⟨.stageNodeKeyRotation rfl rfl, by decide +kernel, by decide +kernel⟩

end BlindPass.Controller
