import BlindPass.Fleet.Value

/-!
# Exchange policies

An operator writes the policy of exchanges as a JSON document: a registry of secrets and a list
of rules. The document is checked when it is stored. When an exchange is requested it is read
again, its texts are trimmed, and the first rule that matches the request decides.

The check and the reading look up a field by several names, and differ in details: the check trims
a text before it looks whether there is one, and the reading does so afterwards.
-/

namespace BlindPass.Exchange

open Fleet (Value)

/-! ### Texts -/

def isWhitespace (c : Char) : Bool :=
  let n := c.toNat
  9 ≤ n && n ≤ 13 || 0x2000 ≤ n && n ≤ 0x200A ||
    [0x20, 0x85, 0xA0, 0x1680, 0x2028, 0x2029, 0x202F, 0x205F, 0x3000].contains n

def trim (text : String) : String :=
  String.ofList ((text.toList.dropWhile isWhitespace).reverse.dropWhile isWhitespace).reverse

/-- A text with something in it. -/
def nonBlank (text : String) : Option String := if trim text = "" then none else some (trim text)

/-- What follows the first occurrence of a text that is not empty. -/
def afterFirst (text : List Char) : List Char → Option (List Char)
  | [] => none
  | c :: rest =>
    if text.isPrefixOf (c :: rest) then some ((c :: rest).drop text.length)
    else afterFirst text rest

/-! ### Evaluation -/

inductive PolicyMode
  | allow
  | pendingApproval
  | deny
  deriving DecidableEq

structure SecretRegistryEntry where
  secretName : String
  classification : String

structure ExchangePolicyRule where
  ruleId : String
  secretName : String
  requesterIds : Option (List String)
  fulfillerIds : Option (List String)
  approverIds : Option (List String)
  requesterRings : Option (List String)
  fulfillerRings : Option (List String)
  approverRings : Option (List String)
  purposes : Option (List String)
  sameRing : Bool
  allowedRings : Option (List String)
  mode : PolicyMode
  approvalReference : Option String
  reason : Option String

structure PolicyInput where
  requesterId : String
  requesterWorkspaceId : Option String
  secretName : String
  purpose : String
  fulfillerHint : String
  fulfillerWorkspaceId : Option String

structure PolicyDecision where
  mode : PolicyMode
  approvalRequired : Bool
  ruleId : String
  reason : String
  approvalReference : Option String
  requesterRing : Option String
  fulfillerRing : Option String
  secretName : String
  deriving DecidableEq

structure PolicyEvaluation where
  decision : PolicyDecision
  allowedFulfillerId : Option String
  approverIds : Option (List String)
  approverRings : Option (List String)

structure PolicyDocument where
  registry : List SecretRegistryEntry
  rules : List ExchangePolicyRule

def normalizeList (values : Option (List String)) : Option (List String) :=
  values.map fun values => values.filterMap nonBlank

def normalizeRule (rule : ExchangePolicyRule) : ExchangePolicyRule where
  ruleId := trim rule.ruleId
  secretName := trim rule.secretName
  requesterIds := normalizeList rule.requesterIds
  fulfillerIds := normalizeList rule.fulfillerIds
  approverIds := normalizeList rule.approverIds
  requesterRings := normalizeList rule.requesterRings
  fulfillerRings := normalizeList rule.fulfillerRings
  approverRings := normalizeList rule.approverRings
  purposes := normalizeList rule.purposes
  sameRing := rule.sameRing
  allowedRings := normalizeList rule.allowedRings
  mode := rule.mode
  approvalReference := rule.approvalReference.bind nonBlank
  reason := rule.reason.bind nonBlank

/-- `includes`: no list, or an empty one, restricts nothing. -/
def includes (values : Option (List String)) (candidate : String) : Bool :=
  values.all fun values => values.isEmpty || values.contains candidate

def ringFromAgentId (agentId : String) : Option String :=
  (afterFirst "/ring/".toList agentId.toList).bind fun suffix =>
    nonBlank (String.ofList (suffix.takeWhile (· != '/')))

/-- The reason of a rule that gives none. -/
def defaultReason (mode : PolicyMode) (classification : String) : String :=
  match mode with
  | .pendingApproval => "exchange for " ++ classification ++ " requires human approval"
  | .deny => "exchange for " ++ classification ++ " is denied by policy"
  | .allow => "exchange allowed by static policy for " ++ classification

/-- The condition of a rule on a request. -/
def ExchangePolicyRule.applies (rule : ExchangePolicyRule) (input : PolicyInput) : Bool :=
  let requesterRing := ringFromAgentId input.requesterId
  let fulfillerRing := ringFromAgentId input.fulfillerHint
  rule.secretName == input.secretName &&
    includes rule.requesterIds input.requesterId &&
    includes rule.fulfillerIds input.fulfillerHint &&
    includes rule.purposes input.purpose &&
    includes rule.requesterRings (requesterRing.getD "") &&
    includes rule.fulfillerRings (fulfillerRing.getD "") &&
    (!rule.sameRing || requesterRing.isSome && requesterRing == fulfillerRing &&
      includes rule.allowedRings (requesterRing.getD ""))

namespace PolicyDocument

def new (registry : List SecretRegistryEntry) (rules : List ExchangePolicyRule) :
    PolicyDocument where
  registry := registry.map fun entry => ⟨trim entry.secretName, trim entry.classification⟩
  rules := rules.map normalizeRule

def evaluate (policy : PolicyDocument) (input : PolicyInput) : Option PolicyEvaluation := do
  let entry ← policy.registry.find? fun entry => entry.secretName == input.secretName
  if input.requesterWorkspaceId.isSome && input.fulfillerWorkspaceId.isSome &&
      input.requesterWorkspaceId != input.fulfillerWorkspaceId then none
  else
    let rule ← policy.rules.find? fun rule => rule.applies input
    return {
      decision := {
        mode := rule.mode
        approvalRequired := rule.mode == .pendingApproval
        ruleId := rule.ruleId
        reason := rule.reason.getD (defaultReason rule.mode entry.classification)
        approvalReference := rule.approvalReference
        requesterRing := ringFromAgentId input.requesterId
        fulfillerRing := ringFromAgentId input.fulfillerHint
        secretName := input.secretName }
      allowedFulfillerId := if rule.mode = .allow then some input.fulfillerHint else none
      approverIds := rule.approverIds
      approverRings := rule.approverRings }

end PolicyDocument

/-! ### Reading a document -/

structure PolicyDocumentInput where
  secretRegistry : List Value
  exchangePolicy : List Value

/-- `alias_string` of the routes of exchanges. -/
def aliasString (v : Value) (keys : List String) : Option String := keys.findSome? v.str

/-- `alias_list`: an array, or a text with commas. -/
def aliasList (v : Value) (keys : List String) : Option (List String) :=
  (keys.findSome? v.get).map fun value =>
    match value with
    | .array items => items.filterMap Value.asStr
    | .string values => (values.toList.splitOn ',').filterMap fun part => nonBlank (.ofList part)
    | _ => []

def aliasBool (v : Value) (keys : List String) : Bool :=
  keys.any fun key => (v.get key) matches some (.bool true)

/-- The mode a rule is read with. -/
def readMode (v : Value) : PolicyMode :=
  match (aliasString v ["mode"]).map trim with
  | none | some "allow" => .allow
  | some "pending_approval" => .pendingApproval
  | some _ => .deny

def parsePolicyRule (v : Value) : Option ExchangePolicyRule := do
  let ruleId ← aliasString v ["ruleId", "rule_id"]
  let secretName ← aliasString v ["secretName", "secret_name"]
  return {
    ruleId, secretName
    requesterIds := aliasList v ["requesterIds", "requester_ids"]
    fulfillerIds := aliasList v ["fulfillerIds", "fulfiller_ids"]
    approverIds := aliasList v ["approverIds", "approver_ids"]
    requesterRings := aliasList v ["requesterRings", "requester_rings"]
    fulfillerRings := aliasList v ["fulfillerRings", "fulfiller_rings"]
    approverRings := aliasList v ["approverRings", "approver_rings"]
    purposes := aliasList v ["purposes"]
    sameRing := aliasBool v ["sameRing", "same_ring"]
    allowedRings := aliasList v ["allowedRings", "allowed_rings"]
    mode := readMode v
    approvalReference := aliasString v ["approvalReference", "approval_reference"]
    reason := aliasString v ["reason"] }

def policyDocumentFromValues (document : PolicyDocumentInput) : PolicyDocument :=
  .new
    (document.secretRegistry.filterMap fun entry => do
      return ⟨← aliasString entry ["secretName", "secret_name"],
        ← aliasString entry ["classification"]⟩)
    (document.exchangePolicy.filterMap parsePolicyRule)

/-! ### The check -/

/-- `alias_string` of the check: a text with something in it. -/
def aliasText (v : Value) (keys : List String) : Option String :=
  (keys.findSome? v.str).bind nonBlank

/-- A name that is given and was not given before. -/
def checkName (field : String) (seen : List String) (name : Option String) :
    List String × List String :=
  match name with
  | none => (seen, [field ++ ": required"])
  | some name => if seen.contains name then (seen, [field ++ ": duplicate"]) else (name :: seen, [])

/-- The names of the registry, and what is wrong with it. -/
def checkRegistry : ℕ → List String → List Value → List String × List String
  | _, names, [] => (names, [])
  | index, names, entry :: rest =>
    let at' := "secret_registry[" ++ toString index ++ "]."
    let named := checkName (at' ++ "secretName") names (aliasText entry ["secretName", "secret_name"])
    let checked := checkRegistry (index + 1) named.1 rest
    (checked.1, named.2 ++
      (if (aliasText entry ["classification"]).isNone then [at' ++ "classification: required"]
        else []) ++ checked.2)

/-- The fields of a rule that are lists of texts. -/
def listKeys : List String :=
  ["requesterIds", "requester_ids", "fulfillerIds", "fulfiller_ids", "approverIds", "approver_ids",
    "requesterRings", "requester_rings", "fulfillerRings", "fulfiller_rings", "approverRings",
    "approver_rings", "purposes", "allowedRings", "allowed_rings"]

/-- A list of texts with something in each of them. -/
def checkList (field : String) : Value → List String
  | .array values =>
    if values.all fun v => v.asStr.isSome then
      if (values.filterMap Value.asStr).any fun item => (nonBlank item).isNone then
        [field ++ ": entries must be non-empty"]
      else []
    else [field ++ ": must be an array of strings"]
  | _ => [field ++ ": must be an array of strings"]

/-- The first of the fields that is there, if it is an array. -/
def aliasArray (v : Value) (keys : List String) : Option (List Value) :=
  (keys.findSome? v.get).bind Value.asArray

/-- What is wrong with a rule, its name apart. -/
def checkRule (at' : String) (secretNames : List String) (rule : Value) : List String :=
  (match aliasText rule ["secretName", "secret_name"] with
    | none => [at' ++ "secretName: required"]
    | some name =>
      if secretNames.contains name then [] else [at' ++ "secretName: unknown registry entry"]) ++
  (match rule.get "mode" with
    | none => []
    | some mode =>
      if mode.asStr.any fun mode => ["allow", "pending_approval", "deny"].contains (trim mode)
      then [] else [at' ++ "mode: unsupported value"]) ++
  (if rule.str "mode" = some "pending_approval" &&
      !((aliasArray rule ["approverIds", "approver_ids"]).any fun ids =>
        (ids.filterMap Value.asStr).any fun id => (nonBlank id).isSome)
    then [at' ++ "approverIds: required for pending_approval"] else []) ++
  (if (aliasArray rule ["approverRings", "approver_rings"]).any fun rings => !rings.isEmpty
    then [at' ++ "approverRings: unsupported; use approverIds"] else []) ++
  (listKeys.flatMap fun key => ((rule.get key).map (checkList (at' ++ key))).getD []) ++
  ["sameRing", "same_ring"].flatMap fun key =>
    match rule.get key with
    | none | some (.bool _) => []
    | some _ => [at' ++ key ++ ": must be a boolean"]

/-- What is wrong with the rules. -/
def checkRules (secretNames : List String) : ℕ → List String → List Value → List String
  | _, _, [] => []
  | index, ruleIds, rule :: rest =>
    let at' := "exchange_policy[" ++ toString index ++ "]."
    let named := checkName (at' ++ "ruleId") ruleIds (aliasText rule ["ruleId", "rule_id"])
    named.2 ++ checkRule at' secretNames rule ++ checkRules secretNames (index + 1) named.1 rest

def validatePolicy (document : PolicyDocumentInput) : List String :=
  let registry := checkRegistry 0 [] document.secretRegistry
  (if 2000 < document.secretRegistry.length then ["secret_registry: too many entries"] else []) ++
    (if 5000 < document.exchangePolicy.length then ["exchange_policy: too many rules"] else []) ++
    registry.2 ++ checkRules registry.1 0 [] document.exchangePolicy

end BlindPass.Exchange
