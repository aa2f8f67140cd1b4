import HoverServer.Json.Number

/-! JSON values. The members of an object are sorted by name. -/
namespace HoverServer

inductive Json where
  | null
  | bool (b : Bool)
  | number (n : Number)
  | string (s : String)
  | array (items : List Json)
  | object (members : List (String × Json))
  deriving Inhabited

namespace Json

mutual

def same : Json → Json → Bool
  | .null, .null => true
  | .bool a, .bool b => a == b
  | .number a, .number b => decide (a = b)
  | .string a, .string b => a == b
  | .array a, .array b => sameItems a b
  | .object a, .object b => sameMembers a b
  | _, _ => false

def sameItems : List Json → List Json → Bool
  | [], [] => true
  | v :: r, w :: s => same v w && sameItems r s
  | _, _ => false

def sameMembers : List (String × Json) → List (String × Json) → Bool
  | [], [] => true
  | (n, v) :: r, (m, w) :: s => n == m && same v w && sameMembers r s
  | _, _ => false

end

mutual

theorem same_self : (v : Json) → same v v = true
  | .null => by simp [same]
  | .bool _ => by simp [same]
  | .number _ => by simp [same]
  | .string _ => by simp [same]
  | .array items => by simp [same, sameItems_self items]
  | .object members => by simp [same, sameMembers_self members]

theorem sameItems_self : (vs : List Json) → sameItems vs vs = true
  | [] => by simp [sameItems]
  | v :: r => by simp [sameItems, same_self v, sameItems_self r]

theorem sameMembers_self : (ms : List (String × Json)) → sameMembers ms ms = true
  | [] => by simp [sameMembers]
  | (_, v) :: r => by simp [sameMembers, same_self v, sameMembers_self r]

end

mutual

theorem eq_of_same : (v w : Json) → same v w = true → v = w
  | .array a, .array b => fun h => by
    rw [eq_of_sameItems a b (by simpa [same] using h)]
  | .object a, .object b => fun h => by
    rw [eq_of_sameMembers a b (by simpa [same] using h)]
  | .null, w => by cases w <;> simp [same]
  | .bool _, w => by cases w <;> simp [same]
  | .number _, w => by cases w <;> simp [same]
  | .string _, w => by cases w <;> simp [same]
  | .array _, .null => by simp [same]
  | .array _, .bool _ => by simp [same]
  | .array _, .number _ => by simp [same]
  | .array _, .string _ => by simp [same]
  | .array _, .object _ => by simp [same]
  | .object _, .null => by simp [same]
  | .object _, .bool _ => by simp [same]
  | .object _, .number _ => by simp [same]
  | .object _, .string _ => by simp [same]
  | .object _, .array _ => by simp [same]

theorem eq_of_sameItems : (vs ws : List Json) → sameItems vs ws = true → vs = ws
  | [], [] => fun _ => rfl
  | [], _ :: _ => by simp [sameItems]
  | _ :: _, [] => by simp [sameItems]
  | v :: r, w :: s => fun h => by
    simp only [sameItems, Bool.and_eq_true] at h
    rw [eq_of_same v w h.1, eq_of_sameItems r s h.2]

theorem eq_of_sameMembers :
    (ms ns : List (String × Json)) → sameMembers ms ns = true → ms = ns
  | [], [] => fun _ => rfl
  | [], _ :: _ => by simp [sameMembers]
  | _ :: _, [] => by simp [sameMembers]
  | (n, v) :: r, (m, w) :: s => fun h => by
    simp only [sameMembers, Bool.and_eq_true, beq_iff_eq] at h
    rw [h.1.1, eq_of_same v w h.1.2, eq_of_sameMembers r s h.2]

end

theorem same_iff (v w : Json) : same v w = true ↔ v = w :=
  ⟨eq_of_same v w, fun h => h ▸ same_self v⟩

instance : DecidableEq Json := fun v w => decidable_of_iff _ (same_iff v w)

def ofInt64 (n : Int64) : Json := .number (.whole (.ofInt64 n))

end Json

/-- The members of an object, in ascending order of their names and one for each name. -/
abbrev Members := List (String × Json)

namespace Members

def get? (ms : Members) (name : String) : Option Json := List.lookup name ms

/-- Puts a member in its place. A later one takes the place of an earlier one of the same name. -/
def insert (name : String) (v : Json) : Members → Members
  | [] => [(name, v)]
  | (other, w) :: r =>
    if name < other then (name, v) :: (other, w) :: r
    else if name = other then (name, v) :: r
    else (other, w) :: insert name v r

end Members
end HoverServer
