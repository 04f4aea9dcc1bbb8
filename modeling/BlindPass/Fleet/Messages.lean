import BlindPass.Library.Framing
import BlindPass.Recovery.Pages

/-!
# What is signed

Node and controller keys sign six kinds of messages. Each begins with a name of its kind that
ends with a zero byte; the two kinds of node events share a name and differ in the kind field.
What follows is a canonical form, or framed fields. So a signature on a message speaks for that
message only: bytes that were signed as one kind never pass as another, or with other contents.
-/

namespace BlindPass.Fleet

open Value (string unsigned integer object)
open Utf8 (encode)

/-- The name of a kind of message, up to its zero byte. -/
def domain (name : String) : List UInt8 := encode name.toList ++ [0]

def canonicalDomainMessage (name : String) (v : Value) : Except DocumentError (List UInt8) := do
  let canonical ← canonicalized v
  return domain name ++ canonical

/-! ### Enrollment -/

/-- A field behind its length. -/
def framedField (field : List UInt8) : Except DocumentError (List UInt8) := do
  ensure (field.length < 2 ^ 32) "enrollment proof field"
  return Framing.frame field

/-- The message a new node key signs to prove its possession. -/
def enrollmentProofMessage (token : String) (signingPublicKey recipientPublicKey : List UInt8) :
    Except DocumentError (List UInt8) := do
  ensure (48 ≤ token.utf8ByteSize && token.utf8ByteSize ≤ 256 && signingPublicKey.length == 32 &&
    recipientPublicKey.length == 32) "enrollment proof binding"
  let fields ← [encode token.toList, signingPublicKey, recipientPublicKey].mapM framedField
  return domain "blindpass:fleet-enrollment-proof:v1" ++ fields.flatten

/-! ### Sessions and events -/

def saturatingSub (a b : ℤ) : ℤ := max (-2 ^ 63) (min (2 ^ 63 - 1) (a - b))

/-- What a node binds itself to when it opens a channel. -/
structure SessionChallenge where
  tenantId : String
  nodeId : String
  protocolVersion : String
  nonce : String
  capabilitiesHash : String
  keyVersion : ℕ
  issuerEpoch : ℕ
  controllerTimeMs : ℤ
  expiresAtMs : ℤ
  deriving DecidableEq

def SessionChallenge.fields (c : SessionChallenge) : List (String × Value) :=
  [("audience", string "blindpass-node"), ("capabilities_hash", string c.capabilitiesHash),
    ("controller_time_ms", integer c.controllerTimeMs), ("expires_at_ms", integer c.expiresAtMs),
    ("issuer_epoch", unsigned c.issuerEpoch), ("key_version", unsigned c.keyVersion),
    ("node_id", string c.nodeId), ("nonce", string c.nonce),
    ("protocol_version", string c.protocolVersion), ("tenant_id", string c.tenantId)]

/-- The message a broker signs for a node channel challenge. -/
def nodeSessionChallengeMessage (c : SessionChallenge) : Except DocumentError (List UInt8) := do
  ensure (isValidOpaqueId c.tenantId && isValidOpaqueId c.nodeId &&
    c.protocolVersion == "blindpass-node/1" && c.nonce.utf8ByteSize == 43 &&
    validBase64UrlText c.nonce && validSha256Hex c.capabilitiesHash && c.keyVersion != 0 &&
    c.issuerEpoch != 0 && 0 < c.controllerTimeMs && c.controllerTimeMs < c.expiresAtMs &&
    saturatingSub c.expiresAtMs c.controllerTimeMs ≤ 60000) "node challenge binding"
  canonicalDomainMessage "blindpass:fleet-node-challenge:v1" (object c.fields)

/-- The name that node events and pages of a report share. -/
def nodeEventDomain : String := "blindpass:fleet-node-event:v1"

def nodeEventFields (nodeId idempotencyKey kind : String) (body : Value) : List (String × Value) :=
  [("body", body), ("idempotency_key", string idempotencyKey), ("kind", string kind),
    ("node_id", string nodeId)]

def nodeEventMessageBytes (nodeId idempotencyKey kind : String) (body : Value) :
    Except DocumentError (List UInt8) :=
  canonicalDomainMessage nodeEventDomain (object (nodeEventFields nodeId idempotencyKey kind body))

/-- The message a broker signs for an event. -/
def nodeEventMessage (nodeId idempotencyKey kind : String) (body : Value) :
    Except DocumentError (List UInt8) := do
  ensure (isValidOpaqueId nodeId && isValidEventKey idempotencyKey &&
    nodeEventKinds.contains kind && body.asObject.isSome) "node event binding"
  nodeEventMessageBytes nodeId idempotencyKey kind body

/-! ### Documents -/

inductive DocumentKind
  | registration
  | policySnapshot
  | grant
  | revocation
  | nodeRevocation
  | nodeKeyRotation
  | timeReply
  | applicationAck
  | operationResult
  | auditEvent
  | operationClosed
  | recipientOffer
  | provisioningDelivery
  | fulfillmentAuthorization
  | fulfillmentDelivery
  | fulfillmentRevocation
  | fulfillmentOffer
  | fulfillmentSubmit
  deriving DecidableEq

namespace DocumentKind

def asStr : DocumentKind → String
  | registration => "registration"
  | policySnapshot => "policy_snapshot"
  | grant => "grant"
  | revocation => "revocation"
  | nodeRevocation => "node_revocation"
  | nodeKeyRotation => "node_key_rotation"
  | timeReply => "time_reply"
  | applicationAck => "application_ack"
  | operationResult => "operation_result"
  | auditEvent => "audit_event"
  | operationClosed => "operation_closed"
  | recipientOffer => "recipient_offer"
  | provisioningDelivery => "provisioning_delivery"
  | fulfillmentAuthorization => "fulfillment_authorization"
  | fulfillmentDelivery => "fulfillment_delivery"
  | fulfillmentRevocation => "fulfillment_revocation"
  | fulfillmentOffer => "fulfillment_offer"
  | fulfillmentSubmit => "fulfillment_submit"

def parse (value : String) : Option DocumentKind :=
  match value with
  | "registration" => some registration
  | "policy_snapshot" => some policySnapshot
  | "grant" => some grant
  | "revocation" => some revocation
  | "node_revocation" => some nodeRevocation
  | "node_key_rotation" => some nodeKeyRotation
  | "time_reply" => some timeReply
  | "application_ack" => some applicationAck
  | "operation_result" => some operationResult
  | "audit_event" => some auditEvent
  | "operation_closed" => some operationClosed
  | "recipient_offer" => some recipientOffer
  | "provisioning_delivery" => some provisioningDelivery
  | "fulfillment_authorization" => some fulfillmentAuthorization
  | "fulfillment_delivery" => some fulfillmentDelivery
  | "fulfillment_revocation" => some fulfillmentRevocation
  | "fulfillment_offer" => some fulfillmentOffer
  | "fulfillment_submit" => some fulfillmentSubmit
  | _ => none

theorem parse_asStr (kind : DocumentKind) : parse kind.asStr = some kind := by
  cases kind <;> rfl

theorem asStr_injective : Function.Injective asStr := by
  intro kind kind' h
  have hparse := congrArg parse h
  rw [parse_asStr, parse_asStr] at hparse
  exact Option.some.inj hparse

end DocumentKind

def documentVersion : ℕ := 1

/-- The fields of an envelope that are signed. -/
def unsignedFields (kind : DocumentKind) (body : Value) (keyId : String) (epoch : ℕ) :
    List (String × Value) :=
  [("body", body), ("epoch", unsigned epoch), ("kid", string keyId), ("kind", string kind.asStr),
    ("v", unsigned documentVersion)]

/-- The message an issuer signs for a document. -/
def signingBytes (kind : DocumentKind) (body : Value) (keyId : String) (epoch : ℕ) :
    Except DocumentError (List UInt8) :=
  canonicalDomainMessage "blindpass:fleet-document:v1"
    (object (unsignedFields kind body keyId epoch))

end BlindPass.Fleet

/-! ### Reports -/

namespace BlindPass.Recovery

open Fleet (DocumentError ensure)

/-- The kind of event that carries a page. -/
def reportPageKind : String := "consumed_report_page"

/-- The message a broker signs for a page of its history. -/
def ReportPage.signingMessage (p : ReportPage) : Except DocumentError (List UInt8) := do
  let event := "history_" ++ p.manifest.reportId ++ "_" ++ toString p.pageIndex
  let body ← p.toValue
  let message ← Fleet.nodeEventMessageBytes p.manifest.identity.nodeId event reportPageKind body
  ensure (message.length ≤ maxPageBytes) invalid
  return message

/-- The message a controller signs for a request. -/
def ReportRequest.signingMessage (r : ReportRequest) : Except DocumentError (List UInt8) := do
  let value ← r.toValue
  Fleet.canonicalDomainMessage "blindpass:controller-recovery-report:v1" value

end BlindPass.Recovery

/-! ### One message, one contents -/

namespace BlindPass.Fleet

open Value (string unsigned integer object)
open Utf8 (encode)
open Transaction (bind_eq_ok)
open Canon (norm)

variable {signed : List UInt8}

/-- A name without a zero byte is recovered from what begins with it. -/
theorem domain_append_inj {name name' : String} {rest rest' : List UInt8}
    (hname : 0 ∉ encode name.toList) (hname' : 0 ∉ encode name'.toList)
    (h : domain name ++ rest = domain name' ++ rest') : name = name' ∧ rest = rest' := by
  unfold domain at h
  rw [List.append_assoc, List.append_assoc] at h
  obtain ⟨htag, hrest⟩ := Framing.append_cons_inj hname hname' h
  exact ⟨String.toList_injective (Utf8.encode_injective htag), hrest⟩

theorem canonicalDomainMessage_eq_ok {name : String} {v : Value} :
    canonicalDomainMessage name v = .ok signed ↔
      ∃ canonical, Canon.canonicalizeValue v = .ok canonical ∧ domain name ++ canonical = signed := by
  unfold canonicalDomainMessage
  rw [bind_eq_ok]
  simp only [canonicalized_eq_ok, pure, Except.pure, Except.ok.injEq]

/-- Under one name, the same bytes are the same normal value. -/
theorem norm_eq_of_canonicalDomainMessage {name : String} {v w : Value}
    (hv : canonicalDomainMessage name v = .ok signed)
    (hw : canonicalDomainMessage name w = .ok signed) :
    v.Distinct ∧ w.Distinct ∧ norm v = norm w := by
  obtain ⟨canonical, hcanonical, rfl⟩ := canonicalDomainMessage_eq_ok.mp hv
  obtain ⟨canonical', hcanonical', hbytes⟩ := canonicalDomainMessage_eq_ok.mp hw
  obtain rfl := List.append_cancel_left hbytes
  exact ⟨Canon.distinct_of_canonicalizeValue hcanonical,
    Canon.distinct_of_canonicalizeValue hcanonical',
    Canon.norm_eq_of_canonicalizeValue hcanonical hcanonical'⟩

theorem framedField_eq_ok {field framed : List UInt8} :
    framedField field = .ok framed ↔ field.length < 2 ^ 32 ∧ Framing.frame field = framed := by
  unfold framedField
  rw [bind_eq_ok]
  simp only [ensure_eq_ok, decide_eq_true_iff, pure, Except.pure, Except.ok.injEq, exists_const]

theorem enrollmentProofMessage_eq_ok {token : String} {signing recipient : List UInt8}
    (h : enrollmentProofMessage token signing recipient = .ok signed) :
    (encode token.toList).length < 2 ^ 32 ∧ signing.length < 2 ^ 32 ∧ recipient.length < 2 ^ 32 ∧
      signed = domain "blindpass:fleet-enrollment-proof:v1" ++ (Framing.frame (encode token.toList) ++
        (Framing.frame signing ++ (Framing.frame recipient ++ []))) := by
  unfold enrollmentProofMessage at h
  obtain ⟨-, -, h⟩ := bind_eq_ok.mp h
  obtain ⟨fields, hfields, h⟩ := bind_eq_ok.mp h
  simp only [List.mapM_cons, List.mapM_nil, bind_eq_ok, framedField_eq_ok] at hfields
  obtain ⟨first, ⟨htoken, rfl⟩, rest, ⟨second, ⟨hsigning, rfl⟩, rest', ⟨third, ⟨hrecipient, rfl⟩,
    last, hlast, hrest'⟩, hrest⟩, hfields⟩ := hfields
  refine ⟨htoken, hsigning, hrecipient, ?_⟩
  rw [← Except.ok.inj h, ← Except.ok.inj hfields, ← Except.ok.inj hrest, ← Except.ok.inj hrest',
    ← Except.ok.inj hlast]
  rfl

theorem enrollmentProofMessage_inj {token token' : String}
    {signing signing' recipient recipient' : List UInt8}
    (h : enrollmentProofMessage token signing recipient = .ok signed)
    (h' : enrollmentProofMessage token' signing' recipient' = .ok signed) :
    token = token' ∧ signing = signing' ∧ recipient = recipient' := by
  obtain ⟨htoken, hsigning, hrecipient, hbytes⟩ := enrollmentProofMessage_eq_ok h
  obtain ⟨htoken', hsigning', hrecipient', hbytes'⟩ := enrollmentProofMessage_eq_ok h'
  have hfields := List.append_cancel_left (hbytes.symm.trans hbytes')
  -- the fields come off from the left, one frame after the other
  have htext := Framing.frame_append_inj htoken htoken' hfields
  have hkey := Framing.frame_append_inj hsigning hsigning' htext.2
  have hkey' := Framing.frame_append_inj hrecipient hrecipient' hkey.2
  exact ⟨String.toList_injective (Utf8.encode_injective htext.1), hkey.1, hkey'.1⟩

theorem norm_integer_inj {n m : ℤ} (h : norm (integer n) = norm (integer m)) : n = m := by
  rw [Canon.norm, Canon.norm, Canon.normInteger, Canon.normInteger] at h
  split at h <;> split at h
  · exact Value.integer.inj h
  · cases h
  · cases h
  · have habs := Value.unsigned.inj h
    omega

theorem nodeSessionChallengeMessage_inj {c c' : SessionChallenge}
    (h : nodeSessionChallengeMessage c = .ok signed)
    (h' : nodeSessionChallengeMessage c' = .ok signed) : c = c' := by
  obtain ⟨-, -, h⟩ := bind_eq_ok.mp h
  obtain ⟨-, -, h'⟩ := bind_eq_ok.mp h'
  obtain ⟨hv, hw, hnorm⟩ := norm_eq_of_canonicalDomainMessage h h'
  have hstr := Canon.str_eq_of_norm_eq hv hw hnorm
  have hnum := Canon.u64_eq_of_norm_eq hv hw hnorm
  have hget := Canon.get_eq_of_norm_eq hv hw hnorm
  have hhash := hstr "capabilities_hash"
  have htime := hget "controller_time_ms"
  have hexpires := hget "expires_at_ms"
  have hepoch := hnum "issuer_epoch"
  have hversion := hnum "key_version"
  have hnode := hstr "node_id"
  have hnonce := hstr "nonce"
  have hprotocol := hstr "protocol_version"
  have htenant := hstr "tenant_id"
  cases c
  cases c'
  simp [SessionChallenge.fields] at hhash htime hexpires hepoch hversion
  simp [SessionChallenge.fields] at hnode hnonce hprotocol htenant
  simp [hhash, norm_integer_inj htime, norm_integer_inj hexpires, hepoch, hversion, hnode, hnonce,
    hprotocol, htenant]

theorem nodeEventMessageBytes_inj {nodeId nodeId' key key' kind kind' : String} {body body' : Value}
    (h : nodeEventMessageBytes nodeId key kind body = .ok signed)
    (h' : nodeEventMessageBytes nodeId' key' kind' body' = .ok signed) :
    nodeId = nodeId' ∧ key = key' ∧ kind = kind' ∧ norm body = norm body' := by
  obtain ⟨hv, hw, hnorm⟩ := norm_eq_of_canonicalDomainMessage h h'
  have hstr := Canon.str_eq_of_norm_eq hv hw hnorm
  have hkey := hstr "idempotency_key"
  have hkind := hstr "kind"
  have hnode := hstr "node_id"
  have hbody := Canon.get_eq_of_norm_eq hv hw hnorm "body"
  simp [nodeEventFields] at hkey hkind hnode hbody
  exact ⟨hnode, hkey, hkind, hbody⟩

theorem signingBytes_inj {kind kind' : DocumentKind} {body body' : Value} {keyId keyId' : String}
    {epoch epoch' : ℕ} (h : signingBytes kind body keyId epoch = .ok signed)
    (h' : signingBytes kind' body' keyId' epoch' = .ok signed) :
    kind = kind' ∧ keyId = keyId' ∧ epoch = epoch' ∧ norm body = norm body' := by
  obtain ⟨hv, hw, hnorm⟩ := norm_eq_of_canonicalDomainMessage h h'
  have hstr := Canon.str_eq_of_norm_eq hv hw hnorm
  have hkind := hstr "kind"
  have hkey := hstr "kid"
  have hepoch := Canon.u64_eq_of_norm_eq hv hw hnorm "epoch"
  have hbody := Canon.get_eq_of_norm_eq hv hw hnorm "body"
  simp [unsignedFields] at hkind hkey hepoch hbody
  exact ⟨DocumentKind.asStr_injective hkind, hkey, hepoch, hbody⟩

/-- A message of one of the six kinds. -/
inductive SignedMessage
  | enrollmentProof (token : String) (signingPublicKey recipientPublicKey : List UInt8)
  | sessionChallenge (challenge : SessionChallenge)
  | nodeEvent (nodeId idempotencyKey kind : String) (body : Value)
  | envelope (kind : DocumentKind) (body : Value) (keyId : String) (epoch : ℕ)
  | reportPage (page : Recovery.ReportPage)
  | reportRequest (request : Recovery.ReportRequest)

namespace SignedMessage

/-- The bytes that are signed, or why none are. -/
def bytes : SignedMessage → Except DocumentError (List UInt8)
  | enrollmentProof token signing recipient => enrollmentProofMessage token signing recipient
  | sessionChallenge challenge => nodeSessionChallengeMessage challenge
  | nodeEvent nodeId key kind body => nodeEventMessage nodeId key kind body
  | envelope kind body keyId epoch => signingBytes kind body keyId epoch
  | reportPage page => page.signingMessage
  | reportRequest request => request.signingMessage

/-- The same contents: bodies that are free in their form are compared up to it. -/
inductive Same : SignedMessage → SignedMessage → Prop
  | refl (m : SignedMessage) : Same m m
  | nodeEvent {nodeId key kind : String} {body body' : Value} : Canon.Same body body' →
      Same (nodeEvent nodeId key kind body) (nodeEvent nodeId key kind body')
  | envelope {kind : DocumentKind} {keyId : String} {epoch : ℕ} {body body' : Value} :
      Canon.Same body body' → Same (envelope kind body keyId epoch) (envelope kind body' keyId epoch)

/-- The name a message begins with. -/
def name : SignedMessage → String
  | enrollmentProof .. => "blindpass:fleet-enrollment-proof:v1"
  | sessionChallenge _ => "blindpass:fleet-node-challenge:v1"
  | nodeEvent .. | reportPage _ => nodeEventDomain
  | envelope .. => "blindpass:fleet-document:v1"
  | reportRequest _ => "blindpass:controller-recovery-report:v1"

theorem zero_notMem_name (m : SignedMessage) : 0 ∉ encode m.name.toList := by
  have hall : ∀ text ∈ ["blindpass:fleet-enrollment-proof:v1", "blindpass:fleet-node-challenge:v1",
      nodeEventDomain, "blindpass:fleet-document:v1", "blindpass:controller-recovery-report:v1"],
      0 ∉ encode text.toList := by decide +kernel
  apply hall
  cases m <;> simp [name]

theorem canonicalDomainMessage_prefix {text : String} {v : Value} {signed : List UInt8}
    (h : canonicalDomainMessage text v = .ok signed) : ∃ rest, signed = domain text ++ rest := by
  obtain ⟨canonical, -, hsigned⟩ := canonicalDomainMessage_eq_ok.mp h
  exact ⟨canonical, hsigned.symm⟩

/-- A page is signed as an event of its own kind. -/
theorem reportPage_eq_ok {page : Recovery.ReportPage} {signed : List UInt8}
    (h : page.signingMessage = .ok signed) : ∃ key body, page.toValue = .ok body ∧
      nodeEventMessageBytes page.manifest.identity.nodeId key Recovery.reportPageKind body =
        .ok signed := by
  unfold Recovery.ReportPage.signingMessage at h
  dsimp only at h
  simp only [bind_eq_ok] at h
  obtain ⟨body, hbody, message, hmessage, -, -, h⟩ := h
  rw [Except.ok.inj h] at hmessage
  exact ⟨_, body, hbody, hmessage⟩

/-- An event is signed only under the kinds that events have. -/
theorem nodeEvent_eq_ok {nodeId key kind : String} {body : Value} {signed : List UInt8}
    (h : nodeEventMessage nodeId key kind body = .ok signed) :
    kind ∈ nodeEventKinds ∧ nodeEventMessageBytes nodeId key kind body = .ok signed := by
  obtain ⟨u, hcheck, h⟩ := bind_eq_ok.mp h
  rw [ensure_eq_ok] at hcheck
  simp only [Bool.and_eq_true, List.contains_iff_mem] at hcheck
  exact ⟨hcheck.1.2, h⟩

theorem bytes_prefix {m : SignedMessage} {signed : List UInt8} (h : m.bytes = .ok signed) :
    ∃ rest, signed = domain m.name ++ rest := by
  cases m with
  | enrollmentProof =>
    exact ⟨_, (enrollmentProofMessage_eq_ok h).2.2.2⟩
  | sessionChallenge =>
    obtain ⟨-, -, h⟩ := bind_eq_ok.mp h
    exact canonicalDomainMessage_prefix h
  | nodeEvent => exact canonicalDomainMessage_prefix (nodeEvent_eq_ok h).2
  | envelope => exact canonicalDomainMessage_prefix h
  | reportPage =>
    obtain ⟨key, body, -, h⟩ := reportPage_eq_ok h
    exact canonicalDomainMessage_prefix h
  | reportRequest =>
    obtain ⟨v, -, h⟩ := bind_eq_ok.mp h
    exact canonicalDomainMessage_prefix h

theorem name_eq_of_bytes {m m' : SignedMessage} {signed : List UInt8} (h : m.bytes = .ok signed)
    (h' : m'.bytes = .ok signed) : m.name = m'.name := by
  obtain ⟨rest, hrest⟩ := bytes_prefix h
  obtain ⟨rest', hrest'⟩ := bytes_prefix h'
  exact (domain_append_inj m.zero_notMem_name m'.zero_notMem_name (hrest.symm.trans hrest')).1

end SignedMessage

/-- Messages with the same bytes have the same contents. -/
theorem same_of_bytes {m m' : SignedMessage} {signed : List UInt8} (h : m.bytes = .ok signed)
    (h' : m'.bytes = .ok signed) : m.Same m' := by
  have hname := SignedMessage.name_eq_of_bytes h h'
  cases m <;> cases m'
  case enrollmentProof.enrollmentProof =>
    obtain ⟨rfl, rfl, rfl⟩ := enrollmentProofMessage_inj h h'
    exact .refl _
  case sessionChallenge.sessionChallenge =>
    obtain rfl := nodeSessionChallengeMessage_inj h h'
    exact .refl _
  case nodeEvent.nodeEvent =>
    obtain ⟨rfl, rfl, rfl, hbody⟩ := nodeEventMessageBytes_inj (SignedMessage.nodeEvent_eq_ok h).2
      (SignedMessage.nodeEvent_eq_ok h').2
    exact .nodeEvent (Canon.same_of_norm_eq hbody)
  case envelope.envelope =>
    obtain ⟨rfl, rfl, rfl, hbody⟩ := signingBytes_inj h h'
    exact .envelope (Canon.same_of_norm_eq hbody)
  case reportPage.reportPage page page' =>
    obtain ⟨key, body, hbody, h⟩ := SignedMessage.reportPage_eq_ok h
    obtain ⟨key', body', hbody', h'⟩ := SignedMessage.reportPage_eq_ok h'
    have hnorm := (nodeEventMessageBytes_inj h h').2.2.2
    obtain rfl := Recovery.ReportPage.eq_of_norm_eq hbody hbody' hnorm
    exact .refl _
  case reportRequest.reportRequest =>
    obtain ⟨v, hv, h⟩ := bind_eq_ok.mp h
    obtain ⟨v', hv', h'⟩ := bind_eq_ok.mp h'
    obtain rfl := Recovery.ReportRequest.eq_of_form hv hv' (norm_eq_of_canonicalDomainMessage h h').2.2
    exact .refl _
  -- events and pages share their name, but no kind
  case nodeEvent.reportPage nodeId key kind body page =>
    obtain ⟨hkind, h⟩ := SignedMessage.nodeEvent_eq_ok h
    obtain ⟨key', body', -, h'⟩ := SignedMessage.reportPage_eq_ok h'
    rw [(nodeEventMessageBytes_inj h h').2.2.1] at hkind
    exact absurd hkind (by decide)
  case reportPage.nodeEvent page nodeId key kind body =>
    obtain ⟨hkind, h'⟩ := SignedMessage.nodeEvent_eq_ok h'
    obtain ⟨key', body', -, h⟩ := SignedMessage.reportPage_eq_ok h
    rw [(nodeEventMessageBytes_inj h' h).2.2.1] at hkind
    exact absurd hkind (by decide)
  -- all others differ in their names
  all_goals exact absurd hname (by simp [SignedMessage.name, nodeEventDomain])

/-- Two ways to write the body of one document. -/
theorem same_of_bytes_fields :
    let body := object [("node_id", string "node-a"), ("count", integer 3)]
    let body' := object [("count", unsigned 3), ("node_id", string "node-a")]
    let m := SignedMessage.envelope .auditEvent body "issuer-1" 7
    let m' := SignedMessage.envelope .auditEvent body' "issuer-1" 7
    let text := "\x7b\"body\":\x7b\"count\":3,\"node_id\":\"node-a\"\x7d,\"epoch\":7," ++
      "\"kid\":\"issuer-1\",\"kind\":\"audit_event\",\"v\":1\x7d"
    let signed := domain "blindpass:fleet-document:v1" ++ encode text.toList
    m.bytes = .ok signed ∧ m'.bytes = .ok signed ∧ m.Same m' := by
  intro body body' m m' text signed
  have hm : m.bytes = .ok signed := by decide +kernel
  have hm' : m'.bytes = .ok signed := by decide +kernel
  exact ⟨hm, hm', same_of_bytes hm hm'⟩

end BlindPass.Fleet
