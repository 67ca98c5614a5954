import Dataspace.Json.Layout
import Dataspace.Text.Blank
/-!
Usage policies that a consumer chooses, and the permission that a negotiation asks for.
-/

namespace Dataspace

inductive PolicyKind where
  | duration
  | role
  | purpose
  | custom
deriving DecidableEq, Repr

namespace PolicyKind

def all : List PolicyKind := [duration, role, purpose, custom]

def text : PolicyKind → String
  | duration => "DURATION"
  | role => "ROLE"
  | purpose => "PURPOSE"
  | custom => "CUSTOM"

/-- The operand that a constraint of this kind is about. -/
def operand : PolicyKind → String
  | duration => "cx-policy:ContractDuration"
  | role => "cx-policy:Role"
  | purpose => "cx-policy:UsagePurpose"
  | custom => "cx-policy:Custom"

end PolicyKind

inductive PolicyAccess where
  | restricted
  | unrestricted
deriving DecidableEq, Repr

namespace PolicyAccess

def all : List PolicyAccess := [restricted, unrestricted]

def text : PolicyAccess → String
  | restricted => "RESTRICTED"
  | unrestricted => "UNRESTRICTED"

end PolicyAccess

/-- One policy that a consumer chose. -/
structure UsagePolicy where
  kind : PolicyKind
  access : PolicyAccess
  value : Option String
  durationUnit : Option String
deriving DecidableEq, Repr

structure PolicyConstraint where
  leftOperand : String
  operator : String
  rightOperand : String
deriving DecidableEq, Repr

/-- What a consumer asks to do, and under which constraints. -/
structure ActionRequest where
  action : String
  constraints : List PolicyConstraint
deriving DecidableEq, Repr

namespace UsagePolicy

def codec : Codec UsagePolicy :=
  Codec.record
    (.cons (.required "type" (.variants PolicyKind.text PolicyKind.all))
      (.cons (.required "typeOfAccess" (.variants PolicyAccess.text PolicyAccess.all))
        (.cons (.optional "value" .text)
          (.cons (.optional "durationUnit" .text) .nil))))
    (fun (kind, access, value, unit, _) => ⟨kind, access, value, unit⟩)
    (fun p => (p.kind, p.access, p.value, p.durationUnit, ()))

/-- The value of a constraint: trimmed, and for a duration followed by the unit. -/
def rightOperand (p : UsagePolicy) (value : String) : String :=
  match p.kind, p.durationUnit with
  | .duration, some unit => Text.trim value ++ " " ++ unit
  | _, _ => Text.trim value

/-- The constraint of a restricted policy whose value is not blank. -/
def constraint? (p : UsagePolicy) : Option PolicyConstraint :=
  match p.access, p.value with
  | .restricted, some value =>
      if Text.Blank value then none
      else some ⟨p.kind.operand, "odrl:eq", p.rightOperand value⟩
  | _, _ => none

end UsagePolicy

namespace PolicyConstraint

def codec : Codec PolicyConstraint :=
  Codec.record
    (.cons (.required "leftOperand" .text)
      (.cons (.required "operator" .text)
        (.cons (.required "rightOperand" .text) .nil)))
    (fun (left, operator, right, _) => ⟨left, operator, right⟩)
    (fun c => (c.leftOperand, c.operator, c.rightOperand, ()))

def toOdrl (c : PolicyConstraint) : Json :=
  .object
    [("@type", .text "Constraint"),
      ("odrl:leftOperand", .text c.leftOperand),
      ("odrl:operator", .object [("@id", .text c.operator)]),
      ("odrl:rightOperand", .text c.rightOperand)]

end PolicyConstraint

namespace ActionRequest

/-- Use without constraints. -/
def use : ActionRequest :=
  ⟨"USE", []⟩

instance : Inhabited ActionRequest := ⟨use⟩

def codec : Codec ActionRequest :=
  Codec.record
    (.cons (.required "action" .text)
      (.cons (.required "constraints" (.list PolicyConstraint.codec)) .nil))
    (fun (action, constraints, _) => ⟨action, constraints⟩)
    (fun a => (a.action, a.constraints, ()))

/-- Use under the constraints that policies make, in their order. -/
def ofPolicies (policies : List UsagePolicy) : ActionRequest :=
  ⟨"USE", policies.filterMap UsagePolicy.constraint?⟩

/-- The constraint member of a permission: absent, a single one, or the conjunction of several. -/
def odrlConstraint? : List PolicyConstraint → Option Json
  | [] => none
  | [c] => some c.toOdrl
  | cs => some (.object
      [("@type", .text "LogicalConstraint"), ("odrl:and", .list (cs.map PolicyConstraint.toOdrl))])

/-- The permission to do this with an asset. -/
def permission (a : ActionRequest) (assetId : String) : Json :=
  .object (
    [("odrl:target", .text assetId),
      ("odrl:action", .object [("odrl:type", .text a.action)])] ++
    (odrlConstraint? a.constraints).toList.map fun c => ("odrl:constraint", c))

end ActionRequest

end Dataspace
