import BlindPass.Canon.Writer
import BlindPass.Exchange.Policy

/-!
# Hashes of policy decisions

The decision on an exchange is hashed when it is made, and again when the exchange is fulfilled. The
hashed text is a JSON object that is put together by hand. It denotes a value, and a text denotes at
most one, so that no two decisions have the same text.
-/

namespace BlindPass.Exchange

open Canon (writeString ValueText FieldsText isBlank_nil)
open Fleet (Value optionalValue)

def PolicyMode.name : PolicyMode → String
  | allow => "allow"
  | pendingApproval => "pending_approval"
  | deny => "deny"

/-- `json_string` escapes as the canonical form does. -/
def jsonString (value : String) : List Char := writeString value

def jsonOptionalString (value : Option String) : List Char :=
  value.elim "null".toList jsonString

/-- The fields of the object, with their names in quotes. -/
def jsonFields : List (String × List Char) → List Char
  | [] => []
  | [(name, text)] => jsonString name ++ ':' :: text
  | (name, text) :: rest => jsonString name ++ ':' :: text ++ ',' :: jsonFields rest

/-- The bytes that `hash_policy_decision` hashes. -/
def decisionPayload (decision : PolicyDecision) (allowedFulfillerId workspaceId : Option String) :
    List UInt8 :=
  Utf8.encode ('{' :: jsonFields
    [("mode", jsonString decision.mode.name),
      ("approvalRequired", (toString decision.approvalRequired).toList),
      ("ruleId", jsonString decision.ruleId),
      ("reason", jsonString decision.reason),
      ("approvalReference", jsonOptionalString decision.approvalReference),
      ("requesterRing", jsonOptionalString decision.requesterRing),
      ("fulfillerRing", jsonOptionalString decision.fulfillerRing),
      ("secretName", jsonString decision.secretName),
      ("allowedFulfillerId", jsonOptionalString allowedFulfillerId),
      ("workspaceId", jsonOptionalString workspaceId)] ++ ['}'])

/-- The value that the text of a decision denotes. -/
def decisionFields (decision : PolicyDecision) (allowedFulfillerId workspaceId : Option String) :
    List (String × Value) :=
  [("mode", .string decision.mode.name), ("approvalRequired", .bool decision.approvalRequired),
    ("ruleId", .string decision.ruleId), ("reason", .string decision.reason),
    ("approvalReference", optionalValue decision.approvalReference),
    ("requesterRing", optionalValue decision.requesterRing),
    ("fulfillerRing", optionalValue decision.fulfillerRing),
    ("secretName", .string decision.secretName),
    ("allowedFulfillerId", optionalValue allowedFulfillerId),
    ("workspaceId", optionalValue workspaceId)]

theorem valueText_jsonString (s : String) : ValueText (jsonString s) (.string s) :=
  .string (Canon.stringText_writeString s)

theorem valueText_jsonOptionalString (text : Option String) :
    ValueText (jsonOptionalString text) (optionalValue text) := by
  cases text with
  | none => exact .null
  | some s => exact valueText_jsonString s

theorem fieldsText_jsonFields {texts : List (String × List Char)} {fields : List (String × Value)}
    (h : List.Forall₂ (fun t f => t.1 = f.1 ∧ ValueText t.2 f.2) texts fields) (hne : texts ≠ []) :
    FieldsText (jsonFields texts) fields := by
  induction h with
  | nil => exact absurd rfl hne
  | @cons t f texts fields hfirst hrest ih =>
    obtain ⟨name, text⟩ := t
    obtain ⟨key, v⟩ := f
    obtain ⟨rfl, hv⟩ := hfirst
    have hname := Canon.stringText_writeString name
    cases hrest with
    | nil =>
      have hone := FieldsText.one isBlank_nil hname isBlank_nil isBlank_nil hv isBlank_nil
      simpa [jsonFields, jsonString] using hone
    | cons =>
      have hmore := FieldsText.more isBlank_nil hname isBlank_nil isBlank_nil hv isBlank_nil
        (ih (List.cons_ne_nil _ _))
      simpa [jsonFields, jsonString] using hmore

theorem valueText_decision (d : PolicyDecision) (a w : Option String) : ∃ text,
    decisionPayload d a w = Utf8.encode text ∧ ValueText text (.object (decisionFields d a w)) := by
  have hnodup : ((decisionFields d a w).map Prod.fst).Nodup := by simp [decisionFields]
  refine ⟨_, rfl, .object (fieldsText_jsonFields ?_ (List.cons_ne_nil _ _)) hnodup⟩
  have hbool : ValueText (toString d.approvalRequired).toList (.bool d.approvalRequired) := by
    cases d.approvalRequired
    · exact .false
    · exact .true
  simp only [decisionFields, List.forall₂_cons, valueText_jsonString, valueText_jsonOptionalString,
    hbool, and_self, List.Forall₂.nil]

theorem PolicyMode.name_injective : Function.Injective PolicyMode.name := by
  intro m m'
  cases m <;> cases m' <;> decide

theorem optionalValue_injective : Function.Injective optionalValue := by
  rintro (_ | _) (_ | _) h <;> cases h <;> rfl

/-- Decisions have the same hashed bytes if and only if they are the same. -/
theorem decisionPayload_eq_iff (d d' : PolicyDecision) (a a' w w' : Option String) :
    decisionPayload d a w = decisionPayload d' a' w' ↔ d = d' ∧ a = a' ∧ w = w' := by
  refine ⟨fun h => ?_, ?_⟩
  · obtain ⟨text, htext, hvalue⟩ := valueText_decision d a w
    obtain ⟨text', htext', hvalue'⟩ := valueText_decision d' a' w'
    rw [htext, htext'] at h
    obtain rfl := Utf8.encode_injective h
    have hfields := Value.object.inj (hvalue.unique hvalue')
    simp only [decisionFields, List.cons.injEq, Prod.mk.injEq, Value.string.injEq,
      Value.bool.injEq, optionalValue_injective.eq_iff, PolicyMode.name_injective.eq_iff, true_and,
      and_true] at hfields
    obtain ⟨hmode, happroval, hrule, hreason, href, hrequester, hfulfiller, hsecret, ha, hw⟩ := hfields
    refine ⟨?_, ha, hw⟩
    cases d
    cases d'
    simp_all
  · rintro ⟨rfl, rfl, rfl⟩
    rfl

end BlindPass.Exchange
