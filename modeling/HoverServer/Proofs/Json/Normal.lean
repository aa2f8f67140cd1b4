import HoverServer.Proofs.Json.Members

/-! Values as a reader has them. A reader puts the members of an object in their places, so a value
that was built in some other order comes back in its normal form. -/
namespace HoverServer.Json

mutual

/-- The value with the members of each of its objects in their places. -/
def normal : Json → Json
  | .null => .null
  | .bool b => .bool b
  | .number n => .number n
  | .string s => .string s
  | .array items => .array (normalItems items)
  | .object members => .object (Members.place [] (normalMembers members))

def normalItems : List Json → List Json
  | [] => []
  | v :: r => v.normal :: normalItems r

def normalMembers : List (String × Json) → List (String × Json)
  | [] => []
  | (name, v) :: r => (name, v.normal) :: normalMembers r

end

mutual

/-- How many containers there are inside each other. -/
def nesting : Json → Nat
  | .array items => nestingItems items + 1
  | .object members => nestingMembers members + 1
  | _ => 0

def nestingItems : List Json → Nat
  | [] => 0
  | v :: r => max v.nesting (nestingItems r)

def nestingMembers : List (String × Json) → Nat
  | [] => 0
  | (_, v) :: r => max v.nesting (nestingMembers r)

end

/-- Values whose numbers are all whole. -/
inductive Integral : Json → Prop where
  | null : Integral .null
  | bool (b : Bool) : Integral (.bool b)
  | whole (w : Whole) : Integral (.number (.whole w))
  | string (s : String) : Integral (.string s)
  | array {items : List Json} (h : ∀ v ∈ items, Integral v) : Integral (.array items)
  | object {members : Members} (h : ∀ m ∈ members, Integral m.2) : Integral (.object members)

/-- Values whose objects all have their members in order, each name once. -/
inductive Ordered : Json → Prop where
  | null : Ordered .null
  | bool (b : Bool) : Ordered (.bool b)
  | number (n : Number) : Ordered (.number n)
  | string (s : String) : Ordered (.string s)
  | array {items : List Json} (h : ∀ v ∈ items, Ordered v) : Ordered (.array items)
  | object {members : Members} (sorted : members.Sorted) (h : ∀ m ∈ members, Ordered m.2) :
      Ordered (.object members)

/-- Values that a reader gives back as they are, wherever there is room for their depth. -/
structure Canonical (v : Json) : Prop where
  integral : v.Integral
  ordered : v.Ordered

theorem normalItems_eq (vs : List Json) : normalItems vs = vs.map normal := by
  induction vs with
  | nil => rfl
  | cons v vs ih => rw [normalItems, ih, List.map_cons]

theorem normalMembers_eq (ms : Members) :
    normalMembers ms = ms.map fun m => (m.1, m.2.normal) := by
  induction ms with
  | nil => rfl
  | cons m ms ih => rw [normalMembers, ih, List.map_cons]

theorem nestingItems_le_iff {vs : List Json} {n : Nat} :
    nestingItems vs ≤ n ↔ ∀ v ∈ vs, v.nesting ≤ n := by
  induction vs with
  | nil => simp [nestingItems]
  | cons v vs ih => rw [nestingItems, Nat.max_le, ih, List.forall_mem_cons]

theorem nestingMembers_le_iff {ms : Members} {n : Nat} :
    nestingMembers ms ≤ n ↔ ∀ m ∈ ms, m.2.nesting ≤ n := by
  induction ms with
  | nil => simp [nestingMembers]
  | cons m ms ih => rw [nestingMembers, Nat.max_le, ih, List.forall_mem_cons]

theorem lt_nestingItems_iff {vs : List Json} {n : Nat} :
    n < nestingItems vs ↔ ∃ v ∈ vs, n < v.nesting := by
  rw [← Nat.not_le, nestingItems_le_iff]
  simp

theorem lt_nestingMembers_iff {ms : Members} {n : Nat} :
    n < nestingMembers ms ↔ ∃ m ∈ ms, n < m.2.nesting := by
  rw [← Nat.not_le, nestingMembers_le_iff]
  simp

theorem Ordered.distinct {ms : Members} (h : (Json.object ms).Ordered) : ms.Distinct := by
  cases h with
  | object sorted _ => exact sorted.distinct

theorem Ordered.member {ms : Members} (h : (Json.object ms).Ordered) {name : String} {v : Json}
    (hv : ms.get? name = some v) : v.Ordered := by
  cases h with
  | object _ hms => exact hms (name, v) (Members.mem_of_get? hv)

theorem Ordered.item {items : List Json} (h : (Json.array items).Ordered) {place : Nat} {v : Json}
    (hv : items[place]? = some v) : v.Ordered := by
  cases h with
  | array hitems => exact hitems v (List.mem_of_getElem? hv)

/-- A value in order is its own normal form. -/
theorem Ordered.normal_eq {v : Json} (h : v.Ordered) : v.normal = v := by
  induction h with
  | null => rfl
  | bool b => rfl
  | number n => rfl
  | string s => rfl
  | @array items _ ih =>
    have hitems : items.map normal = items := (List.map_congr_left ih).trans (List.map_id items)
    rw [normal, normalItems_eq, hitems]
  | @object members hs _ ih =>
    have hmembers : (members.map fun m => (m.1, m.2.normal)) = members := by
      refine (List.map_congr_left fun m hm => ?_).trans (List.map_id members)
      rw [ih m hm]
      rfl
    have hplace : Members.place [] members = members := Members.place_of_sorted hs
    rw [normal, normalMembers_eq, hmembers, hplace]

/-- What a reader finds under a name is the normal form of what was written there. -/
theorem get?_place_normalMembers {ms : Members} (h : ms.Distinct) (name : String) :
    Members.get? (Members.place [] (normalMembers ms)) name = (ms.get? name).map normal := by
  rw [normalMembers_eq, (h.map normal).get?_place, Members.get?_map]

theorem map_normal_get? {ms : Members} (h : ∀ m ∈ ms, m.2.Ordered) (name : String) :
    (ms.get? name).map normal = ms.get? name := by
  cases hget : ms.get? name with
  | none => rfl
  | some v => rw [Option.map_some, (h (name, v) (Members.mem_of_get? hget)).normal_eq]

end HoverServer.Json
