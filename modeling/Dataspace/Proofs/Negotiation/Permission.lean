import Dataspace.Negotiation.Request
import Dataspace.Proofs.Json.Member
/-!
The permission that a negotiation asks for, read as the connector reads it.  Main statement:
`body_permission`, its constraints are those that the chosen policies demand, one for each and in
their order.
-/

namespace Dataspace

/-! ## Reading a permission -/

namespace PolicyConstraint

def ofOdrl? (v : Json) : Option PolicyConstraint := do
  let left ← v.at? ["odrl:leftOperand"] >>= Json.asText?
  let operator ← v.at? ["odrl:operator", "@id"] >>= Json.asText?
  let right ← v.at? ["odrl:rightOperand"] >>= Json.asText?
  if v.at? ["@type"] = some (.text "Constraint") then some ⟨left, operator, right⟩ else none

theorem ofOdrl?_toOdrl (c : PolicyConstraint) : ofOdrl? c.toOdrl = some c :=
  rfl

end PolicyConstraint

namespace ActionRequest

/-- The constraints of a permission: none without a member for them, the members of a
conjunction, and else the one that is there.  Nothing, if one of them cannot be read. -/
def constraints? (permission : Json) : Option (List PolicyConstraint) :=
  match permission.get? "odrl:constraint" with
  | none => some []
  | some c =>
      if c.get? "@type" = some (.text "LogicalConstraint") then
        match c.get? "odrl:and" with
        | some (.list items) => items.mapM PolicyConstraint.ofOdrl?
        | _ => none
      else (PolicyConstraint.ofOdrl? c).map ([·])

theorem mapM_ofOdrl?_toOdrl (cs : List PolicyConstraint) :
    (cs.map PolicyConstraint.toOdrl).mapM PolicyConstraint.ofOdrl? = some cs := by
  induction cs with
  | nil => rfl
  | cons c cs ih => simp [PolicyConstraint.ofOdrl?_toOdrl, ih]

/-- However many constraints there are, they are read as they were. -/
theorem constraints?_permission (a : ActionRequest) (assetId : String) :
    constraints? (a.permission assetId) = some a.constraints := by
  obtain ⟨action, constraints⟩ := a
  match constraints with
  | [] => rfl
  | [c] => rfl
  | c :: d :: cs => exact mapM_ofOdrl?_toOdrl (c :: d :: cs)

theorem permission_target (a : ActionRequest) (assetId : String) :
    (a.permission assetId).at? ["odrl:target"] = some (.text assetId) := by
  obtain ⟨action, constraints⟩ := a
  match constraints with
  | [] | [_] | _ :: _ :: _ => rfl

end ActionRequest

/-! ## What policies demand -/

namespace UsagePolicy

/-- A restricted policy whose value is not blank. -/
def Binding (p : UsagePolicy) : Prop :=
  p.access = .restricted ∧ ∃ value ∈ p.value, ¬ Text.Blank value

instance (p : UsagePolicy) : Decidable p.Binding :=
  inferInstanceAs (Decidable (_ ∧ _))

/-- What follows the value of a constraint: the unit of a duration that has one. -/
def suffix (p : UsagePolicy) : String :=
  match p.kind, p.durationUnit with
  | .duration, some unit => " " ++ unit
  | .duration, none | .role, _ | .purpose, _ | .custom, _ => ""

/-- The constraint that a policy demands: its operand equals its trimmed value. -/
structure Demands (p : UsagePolicy) (c : PolicyConstraint) : Prop where
  left : c.leftOperand = p.kind.operand
  operator : c.operator = "odrl:eq"
  right : ∃ value, p.value = some value ∧ c.rightOperand = Text.trim value ++ p.suffix

theorem rightOperand_eq (p : UsagePolicy) (value : String) :
    p.rightOperand value = Text.trim value ++ p.suffix := by
  obtain ⟨kind, access, written, unit⟩ := p
  cases kind <;> cases unit <;> simp [rightOperand, suffix, String.append_assoc]

/-- A policy that is not binding demands nothing. -/
theorem constraint?_eq_none {p : UsagePolicy} (h : ¬ p.Binding) : p.constraint? = none := by
  obtain ⟨kind, access, value, unit⟩ := p
  cases access with
  | unrestricted => rfl
  | restricted =>
      cases value with
      | none => rfl
      | some value =>
          have hblank : Text.Blank value := by
            by_contra hnot
            exact h ⟨rfl, value, rfl, hnot⟩
          exact if_pos hblank

theorem exists_demands_of_binding {p : UsagePolicy} (h : p.Binding) :
    ∃ c, p.constraint? = some c ∧ p.Demands c := by
  obtain ⟨haccess, value, hvalue, hblank⟩ := h
  refine ⟨⟨p.kind.operand, "odrl:eq", p.rightOperand value⟩, ?_, rfl, rfl, value, hvalue,
    p.rightOperand_eq value⟩
  have hvalue' : p.value = some value := hvalue
  simp [constraint?, haccess, hvalue', hblank]

theorem demands_constraints (policies : List UsagePolicy) :
    List.Forall₂ Demands (policies.filter fun p => decide p.Binding)
      (ActionRequest.ofPolicies policies).constraints :=
  forall₂_filter_filterMap (fun _ _ => exists_demands_of_binding) fun _ _ => constraint?_eq_none

end UsagePolicy

/-- A negotiation under chosen policies asks for a permission with
just the constraints that these demand, whoever is asked and whatever
else is; it is for the asset, and so is the policy around it. -/
theorem NegotiationRequest.body_permission (r : NegotiationRequest) (policies : List UsagePolicy) :
    let body := { r with action := ActionRequest.ofPolicies policies }.body
    ∃ permission constraints,
      body.at? ["offer", "policy", "odrl:permission"] = some permission ∧
      ActionRequest.constraints? permission = some constraints ∧
      List.Forall₂ UsagePolicy.Demands (policies.filter fun p => decide p.Binding) constraints ∧
      permission.at? ["odrl:target"] = some (.text r.assetId) ∧
      body.at? ["offer", "policy", "odrl:target"] = some (.text r.assetId) :=
  ⟨(ActionRequest.ofPolicies policies).permission r.assetId, _, rfl,
    ActionRequest.constraints?_permission _ _, UsagePolicy.demands_constraints policies,
    ActionRequest.permission_target _ _, rfl⟩

end Dataspace
