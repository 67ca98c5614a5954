/-!
JSON values.  An object is the list of its members in the order of the text, so that a reader can
notice a name that is given twice; `settle` is the value without such repetitions.
-/

namespace Dataspace

/-- A JSON value.  Whole numbers within 64 bits are exact; any other number keeps its text. -/
inductive Json where
  | null
  | bool (value : Bool)
  | int (value : Int)
  | real (written : String)
  | text (value : String)
  | list (items : List Json)
  | object (members : List (String × Json))
deriving Repr, Inhabited

namespace Json

mutual

/-- Equality of values is decided member by member. -/
def decEq : (v w : Json) → Decidable (v = w)
  | .null, .null => isTrue rfl
  | .bool a, .bool b =>
      if h : a = b then isTrue (by rw [h]) else isFalse (by simpa using h)
  | .int a, .int b =>
      if h : a = b then isTrue (by rw [h]) else isFalse (by simpa using h)
  | .real a, .real b =>
      if h : a = b then isTrue (by rw [h]) else isFalse (by simpa using h)
  | .text a, .text b =>
      if h : a = b then isTrue (by rw [h]) else isFalse (by simpa using h)
  | .list a, .list b =>
      match decEqItems a b with
      | isTrue h => isTrue (by rw [h])
      | isFalse h => isFalse (by simpa using h)
  | .object a, .object b =>
      match decEqMembers a b with
      | isTrue h => isTrue (by rw [h])
      | isFalse h => isFalse (by simpa using h)
  | .null, .bool _ | .null, .int _ | .null, .real _ | .null, .text _ | .null, .list _
  | .null, .object _ | .bool _, .null | .bool _, .int _ | .bool _, .real _ | .bool _, .text _
  | .bool _, .list _ | .bool _, .object _ | .int _, .null | .int _, .bool _ | .int _, .real _
  | .int _, .text _ | .int _, .list _ | .int _, .object _ | .real _, .null | .real _, .bool _
  | .real _, .int _ | .real _, .text _ | .real _, .list _ | .real _, .object _ | .text _, .null
  | .text _, .bool _ | .text _, .int _ | .text _, .real _ | .text _, .list _ | .text _, .object _
  | .list _, .null | .list _, .bool _ | .list _, .int _ | .list _, .real _ | .list _, .text _
  | .list _, .object _ | .object _, .null | .object _, .bool _ | .object _, .int _
  | .object _, .real _ | .object _, .text _ | .object _, .list _ => isFalse (by simp)

def decEqItems : (v w : List Json) → Decidable (v = w)
  | [], [] => isTrue rfl
  | [], _ :: _ | _ :: _, [] => isFalse (by simp)
  | a :: v, b :: w =>
      match decEq a b, decEqItems v w with
      | isTrue h, isTrue k => isTrue (by rw [h, k])
      | isFalse h, _ => isFalse (by simp [h])
      | _, isFalse k => isFalse (by simp [k])

def decEqMembers : (v w : List (String × Json)) → Decidable (v = w)
  | [], [] => isTrue rfl
  | [], _ :: _ | _ :: _, [] => isFalse (by simp)
  | (m, a) :: v, (n, b) :: w =>
      if h : m = n then
        match decEq a b, decEqMembers v w with
        | isTrue k, isTrue l => isTrue (by rw [h, k, l])
        | isFalse k, _ => isFalse (by simp [k])
        | _, isFalse l => isFalse (by simp [l])
      else isFalse (by simp [h])

end

instance : DecidableEq Json := decEq

/-- The last member of this name, as a value with a name given twice is understood. -/
def lookup (name : String) (members : List (String × Json)) : Option Json :=
  (members.reverse.find? (·.1 = name)).map (·.2)

/-- The member of this name, of an object. -/
def get? (v : Json) (name : String) : Option Json :=
  match v with
  | .object members => lookup name members
  | _ => none

/-- The text that a value is, if it is one. -/
def asText? : Json → Option String
  | .text s => some s
  | _ => none

def isNull : Json → Bool
  | .null => true
  | _ => false

/-- Keeps a member only where no later one has its name. -/
def lastOfEach : List (String × Json) → List (String × Json)
  | [] => []
  | (name, v) :: rest =>
      if rest.any (·.1 = name) then lastOfEach rest else (name, v) :: lastOfEach rest

mutual

/-- The value with one member for each name, the last one given. -/
def settle : Json → Json
  | .list items => .list (settleItems items)
  | .object members => .object (lastOfEach (settleMembers members))
  | .null => .null
  | .bool b => .bool b
  | .int n => .int n
  | .real t => .real t
  | .text s => .text s

def settleItems : List Json → List Json
  | [] => []
  | v :: rest => settle v :: settleItems rest

def settleMembers : List (String × Json) → List (String × Json)
  | [] => []
  | (name, v) :: rest => (name, settle v) :: settleMembers rest

end

/-- Puts a member where the order of names wants it, after others of its name. -/
def insertMember (m : String × Json) : List (String × Json) → List (String × Json)
  | [] => [m]
  | n :: rest => if m.1 < n.1 then m :: n :: rest else n :: insertMember m rest

mutual

/-- The value with the members of each object in the order of their names. -/
def sorted : Json → Json
  | .list items => .list (sortedItems items)
  | .object members => .object (sortedMembers members)
  | .null => .null
  | .bool b => .bool b
  | .int n => .int n
  | .real t => .real t
  | .text s => .text s

def sortedItems : List Json → List Json
  | [] => []
  | v :: rest => sorted v :: sortedItems rest

def sortedMembers : List (String × Json) → List (String × Json)
  | [] => []
  | (name, v) :: rest => insertMember (name, sorted v) (sortedMembers rest)

end

mutual

/-- A value in which no object gives a name twice. -/
def Settled : Json → Prop
  | .list items => SettledItems items
  | .object members => (members.map (·.1)).Nodup ∧ SettledMembers members
  | .null | .bool _ | .int _ | .real _ | .text _ => True

def SettledItems : List Json → Prop
  | [] => True
  | v :: rest => Settled v ∧ SettledItems rest

def SettledMembers : List (String × Json) → Prop
  | [] => True
  | (_, v) :: rest => Settled v ∧ SettledMembers rest

end

theorem lastOfEach_of_nodup {members : List (String × Json)}
    (h : (members.map (·.1)).Nodup) : lastOfEach members = members := by
  induction members with
  | nil => rfl
  | cons m rest ih =>
      simp only [List.map_cons, List.nodup_cons, List.mem_map, not_exists, not_and] at h
      have hnone : rest.any (·.1 = m.1) = false := by
        simp only [List.any_eq_false, decide_eq_true_eq]
        exact fun n hn => h.1 n hn
      simp [lastOfEach, hnone, ih h.2]

mutual

/-- Settling changes nothing where no name is given twice. -/
theorem settle_of_settled : (v : Json) → v.Settled → v.settle = v
  | .list items, h => by
      simp only [settle, settleItems_of_settled items h]
  | .object members, h => by
      simp only [settle, settleMembers_of_settled members h.2, lastOfEach_of_nodup h.1]
  | .null, _ | .bool _, _ | .int _, _ | .real _, _ | .text _, _ => rfl

theorem settleItems_of_settled : (items : List Json) → SettledItems items →
    settleItems items = items
  | [], _ => rfl
  | v :: rest, h => by
      rw [settleItems, settle_of_settled v h.1, settleItems_of_settled rest h.2]

theorem settleMembers_of_settled : (members : List (String × Json)) → SettledMembers members →
    settleMembers members = members
  | [], _ => rfl
  | (name, v) :: rest, h => by
      rw [settleMembers, settle_of_settled v h.1, settleMembers_of_settled rest h.2]

end

example : (Json.object [("a", .int 1), ("b", .null), ("a", .int 2)]).settle =
    .object [("b", .null), ("a", .int 2)] := by decide

end Json

end Dataspace
