import HoverServer.Json.Record
import HoverServer.Proofs.Json.Normal

/-! Records that are read from an object, one field after the other. -/
namespace HoverServer.Json

variable {α β γ : Type} {ms : Members}

/-- What a field finds among some members, be it what it stands for where there is none. -/
def Field.Finds (f : Field α) (ms : Members) (a : α) : Prop :=
  match ms.get? f.name with
  | some v => f.decode v = .ok a
  | none => f.absent = some a

theorem Field.check_of_finds {f : Field α} {a : α} (h : f.Finds ms a) {m : String × Json}
    (hm : ms.get? m.1 = some m.2) : f.check m.1 m.2 = none := by
  rw [check]
  by_cases hn : m.1 = f.name
  · rw [hn] at hm
    rw [Finds, hm] at h
    rw [if_pos hn, h]
  · rw [if_neg hn]

theorem Field.get_of_finds {f : Field α} {a : α} (h : f.Finds ms a) (shape : Shape) (place : Nat) :
    f.get shape place (.named ms) = .ok a := by
  rw [Finds] at h
  rw [get]
  cases hv : ms.get? f.name with
  | some v =>
    rw [hv] at h
    exact h
  | none =>
    rw [hv] at h
    simp only [h]

/-- A field finds the same once the members are in their places. -/
theorem Field.Finds.place {f : Field α} {a : α} (h : f.Finds ms a) (hms : ms.Distinct)
    (hordered : ∀ m ∈ ms, m.2.Ordered) : f.Finds (Members.place [] (normalMembers ms)) a := by
  rw [Finds, get?_place_normalMembers hms, map_normal_get? hordered]
  exact h

/-! ### What a record was read from -/

/-- What a field finds at its place in an array, be it what it stands for behind the end. -/
def Field.Meets (f : Field α) (items : List Json) (place : Nat) (a : α) : Prop :=
  match items[place]? with
  | some v => f.decode v = .ok a
  | none => f.beyond = some a

theorem Field.get_named_iff {f : Field α} {shape : Shape} {place : Nat} {a : α} :
    f.get shape place (.named ms) = .ok a ↔ f.Finds ms a := by
  refine ⟨?_, fun h => f.get_of_finds h shape place⟩
  rw [get, Finds]
  cases ms.get? f.name with
  | some v => exact id
  | none =>
    intro h
    cases ha : f.absent with
    | some b =>
      rw [ha] at h
      cases h
      rfl
    | none =>
      rw [ha] at h
      cases h

theorem Field.get_listed_iff {f : Field α} {items : List Json} {shape : Shape} {place : Nat}
    {a : α} : f.get shape place (.listed items) = .ok a ↔ f.Meets items place a := by
  rw [get, Meets]
  cases items[place]? with
  | some v => exact Iff.rfl
  | none => cases f.beyond <;> simp

theorem ok_of_toOption {ε : Type} {got : Except ε α} {a : α}
    (h : got.toOption = some a) : got = .ok a := by
  cases got with
  | error e => cases h
  | ok b =>
    cases h
    rfl

theorem bind_ok_iff {ε : Type} {x : Except ε α} {f : α → Except ε β} {b : β} :
    (x >>= f) = .ok b ↔ ∃ a, x = .ok a ∧ f a = .ok b := by
  cases x with
  | error e =>
    constructor
    · intro h
      cases h
    · rintro ⟨_, h, _⟩
      cases h
  | ok a =>
    constructor
    · intro h
      exact ⟨a, rfl, h⟩
    · rintro ⟨_, h, hb⟩
      cases h
      exact hb

/-- Nothing is lost where what was read is put together. -/
theorem bind_ok_iff_fields {ε : Type} {x : Except ε α} {f : α → Except ε β} {fields : β → α}
    (h : ∀ a b, f a = .ok b ↔ a = fields b) {b : β} :
    (x >>= f) = .ok b ↔ x = .ok (fields b) := by
  simp only [bind_ok_iff, h, exists_eq_right]

/-- No member of an object is at odds with the field of its name. -/
def Check.Passes (check : Check) (ms : Members) : Prop := ∀ m ∈ ms, check m.1 m.2 = none

theorem Field.Finds.passes {f : Field α} {a : α} (h : f.Finds ms a) (hms : ms.Distinct) :
    f.check.Passes ms := fun m hm => Field.check_of_finds h (hms m hm)

/-- What a shape takes a value for, with nothing behind the last field. -/
def Shape.Takes (shape : Shape) (v : Json) (source : Source) : Prop :=
  shape.source v = .ok source ∧ shape.finish source = .ok ()

theorem Shape.takes_object_iff {shape : Shape} {source : Source} :
    shape.Takes (.object ms) source ↔
      source = .named ms ∧ ∀ check ∈ shape.checks, check.Passes ms := by
  have hpasses : (ms.findSome? fun m => shape.checks.findSome? fun check => check m.1 m.2) = none ↔
      ∀ check ∈ shape.checks, check.Passes ms := by
    simp only [List.findSome?_eq_none_iff]
    exact ⟨fun h check hcheck m hm => h m hm check hcheck,
      fun h m hm check hcheck => h check hcheck m hm⟩
  rw [Takes, Shape.source, ← hpasses]
  cases ms.findSome? fun m => shape.checks.findSome? fun check => check m.1 m.2 with
  | some e => simp
  | none =>
    simp only [Except.ok.injEq, and_true]
    constructor
    · rintro ⟨rfl, _⟩
      rfl
    · rintro rfl
      exact ⟨rfl, rfl⟩

theorem Shape.takes_array_iff {shape : Shape} {source : Source} {items : List Json} :
    shape.Takes (.array items) source ↔
      source = .listed items ∧ items.length ≤ shape.checks.length := by
  rw [Takes, Shape.source]
  constructor
  · rintro ⟨hsource, hfinish⟩
    cases hsource
    rw [Shape.finish] at hfinish
    split at hfinish
    · rename_i hlength
      exact ⟨rfl, hlength⟩
    · cases hfinish
  · rintro ⟨rfl, hlength⟩
    exact ⟨rfl, if_pos hlength⟩

/-- Whatever its fields find in an object is there, so it passes all their checks. -/
theorem Shape.exists_takes_object {shape : Shape} {Fits : Source → Prop}
    (h : Fits (.named ms) → ∀ check ∈ shape.checks, check.Passes ms) :
    (∃ source, shape.Takes (.object ms) source ∧ Fits source) ↔ Fits (.named ms) := by
  simp only [takes_object_iff]
  constructor
  · rintro ⟨_, ⟨rfl, _⟩, hfits⟩
    exact hfits
  · intro hfits
    exact ⟨_, ⟨rfl, h hfits⟩, hfits⟩

theorem Shape.exists_takes_array {shape : Shape} {Fits : Source → Prop} {items : List Json} :
    (∃ source, shape.Takes (.array items) source ∧ Fits source) ↔
      Fits (.listed items) ∧ items.length ≤ shape.checks.length := by
  simp only [takes_array_iff]
  constructor
  · rintro ⟨_, ⟨rfl, hlength⟩, hfits⟩
    exact ⟨hfits, hlength⟩
  · rintro ⟨hfits, hlength⟩
    exact ⟨_, ⟨rfl, hlength⟩, hfits⟩

/-! ### Records of one, two and three fields -/

section records

variable {name : String} {f : Field α} {g : Field β} {h : Field γ} {a : α} {b : β} {c : γ}
  {items : List Json}

theorem decodeOne_iff {v : Json} :
    decodeOne name f v = .ok a ↔ ∃ source, (Shape.mk name [f.check]).Takes v source ∧
      f.get (Shape.mk name [f.check]) 0 source = .ok a := by
  simp only [decodeOne, bind_ok_iff, pure, Except.pure]
  constructor
  · rintro ⟨source, hsource, a', ha, u, hu, h⟩
    cases h
    exact ⟨source, ⟨hsource, hu⟩, ha⟩
  · rintro ⟨source, ⟨hsource, hu⟩, ha⟩
    exact ⟨source, hsource, a, ha, (), hu, rfl⟩

theorem decodeOne_object_iff (hms : ms.Distinct) :
    decodeOne name f (.object ms) = .ok a ↔ f.Finds ms a := by
  rw [decodeOne_iff, Shape.exists_takes_object, Field.get_named_iff]
  intro ha
  exact List.forall_mem_singleton.2 ((Field.get_named_iff.1 ha).passes hms)

theorem decodeOne_array_iff :
    decodeOne name f (.array items) = .ok a ↔ f.Meets items 0 a ∧ items.length ≤ 1 := by
  rw [decodeOne_iff, Shape.exists_takes_array, Field.get_listed_iff]
  rfl

theorem decodeTwo_iff {v : Json} :
    decodeTwo name f g v = .ok (a, b) ↔
      ∃ source, (Shape.mk name [f.check, g.check]).Takes v source ∧
        f.get (Shape.mk name [f.check, g.check]) 0 source = .ok a ∧
        g.get (Shape.mk name [f.check, g.check]) 1 source = .ok b := by
  simp only [decodeTwo, bind_ok_iff, pure, Except.pure]
  constructor
  · rintro ⟨source, hsource, a', ha, b', hb, u, hu, h⟩
    cases h
    exact ⟨source, ⟨hsource, hu⟩, ha, hb⟩
  · rintro ⟨source, ⟨hsource, hu⟩, ha, hb⟩
    exact ⟨source, hsource, a, ha, b, hb, (), hu, rfl⟩

theorem decodeTwo_object_iff (hms : ms.Distinct) :
    decodeTwo name f g (.object ms) = .ok (a, b) ↔ f.Finds ms a ∧ g.Finds ms b := by
  rw [decodeTwo_iff, Shape.exists_takes_object, Field.get_named_iff, Field.get_named_iff]
  rintro ⟨ha, hb⟩
  exact List.forall_mem_cons.2 ⟨(Field.get_named_iff.1 ha).passes hms,
    List.forall_mem_singleton.2 ((Field.get_named_iff.1 hb).passes hms)⟩

theorem decodeTwo_array_iff :
    decodeTwo name f g (.array items) = .ok (a, b) ↔
      (f.Meets items 0 a ∧ g.Meets items 1 b) ∧ items.length ≤ 2 := by
  rw [decodeTwo_iff, Shape.exists_takes_array, Field.get_listed_iff, Field.get_listed_iff]
  rfl

theorem decodeThree_iff {v : Json} :
    decodeThree name f g h v = .ok (a, b, c) ↔
      ∃ source, (Shape.mk name [f.check, g.check, h.check]).Takes v source ∧
        f.get (Shape.mk name [f.check, g.check, h.check]) 0 source = .ok a ∧
        g.get (Shape.mk name [f.check, g.check, h.check]) 1 source = .ok b ∧
        h.get (Shape.mk name [f.check, g.check, h.check]) 2 source = .ok c := by
  simp only [decodeThree, bind_ok_iff, pure, Except.pure]
  constructor
  · rintro ⟨source, hsource, a', ha, b', hb, c', hc, u, hu, habc⟩
    cases habc
    exact ⟨source, ⟨hsource, hu⟩, ha, hb, hc⟩
  · rintro ⟨source, ⟨hsource, hu⟩, ha, hb, hc⟩
    exact ⟨source, hsource, a, ha, b, hb, c, hc, (), hu, rfl⟩

theorem decodeThree_object_iff (hms : ms.Distinct) :
    decodeThree name f g h (.object ms) = .ok (a, b, c) ↔
      f.Finds ms a ∧ g.Finds ms b ∧ h.Finds ms c := by
  rw [decodeThree_iff, Shape.exists_takes_object, Field.get_named_iff, Field.get_named_iff,
    Field.get_named_iff]
  rintro ⟨ha, hb, hc⟩
  exact List.forall_mem_cons.2 ⟨(Field.get_named_iff.1 ha).passes hms,
    List.forall_mem_cons.2 ⟨(Field.get_named_iff.1 hb).passes hms,
      List.forall_mem_singleton.2 ((Field.get_named_iff.1 hc).passes hms)⟩⟩

theorem decodeThree_array_iff :
    decodeThree name f g h (.array items) = .ok (a, b, c) ↔
      (f.Meets items 0 a ∧ g.Meets items 1 b ∧ h.Meets items 2 c) ∧ items.length ≤ 3 := by
  rw [decodeThree_iff, Shape.exists_takes_array, Field.get_listed_iff, Field.get_listed_iff,
    Field.get_listed_iff]
  rfl

/-- A record is found in the normal form of the object that its members make. -/
theorem decodeThree_normal (hms : ms.Distinct) (hordered : ∀ m ∈ ms, m.2.Ordered)
    (hf : f.Finds ms a) (hg : g.Finds ms b) (hh : h.Finds ms c) (name : String) :
    decodeThree name f g h (normal (.object ms)) = .ok (a, b, c) := by
  have hdistinct : Members.Distinct (Members.place [] (normalMembers ms)) :=
    (Members.sorted_place List.Pairwise.nil _).distinct
  exact (decodeThree_object_iff hdistinct).2 ⟨hf.place hms hordered, hg.place hms hordered,
    hh.place hms hordered⟩

end records

/-! ### Fields of each kind -/

/-- What a value says that may be null or not be there at all. -/
inductive Maybe (Says : α → Json → Prop) : Option Json → Option α → Prop where
  | absent : Maybe Says none none
  | null : Maybe Says (some .null) none
  | given {a : α} {v : Json} (read : Says a v) : Maybe Says (some v) (some a)

theorem Maybe.imp {Says Means : α → Json → Prop} {given : Option Json} {w : Option α}
    (h : Maybe Says given w) (himp : ∀ a v, given = some v → Says a v → Means a v) :
    Maybe Means given w := by
  cases h with
  | absent => exact .absent
  | null => exact .null
  | given read => exact .given (himp _ _ rfl read)

section kinds

variable {name : String} {d : Decoder α} {a : α} {items : List Json} {place : Nat}

theorem Field.finds_required_iff :
    (required name d).Finds ms a ↔ ∃ v, ms.get? name = some v ∧ d v = .ok a := by
  simp only [Finds, required]
  cases ms.get? name <;> simp

theorem Field.meets_required_iff :
    (required name d).Meets items place a ↔ ∃ v, items[place]? = some v ∧ d v = .ok a := by
  simp only [Meets, required]
  cases items[place]? <;> simp

theorem Decoder.text_iff {v : Json} {s : String} : Decoder.text v = .ok s ↔ v = .string s := by
  constructor
  · intro h
    cases v <;> cases h
    rfl
  · rintro rfl
    rfl

theorem Decoder.optional_iff (hnull : ∀ a, d .null ≠ .ok a) {v : Json} {w : Option α} :
    d.optional v = .ok w ↔ Maybe (fun a v => d v = .ok a) (some v) w := by
  constructor
  · intro h
    by_cases hv : v = .null
    · subst hv
      cases h
      exact .null
    · have hsome : d.optional v = (d v).map some := by
        cases v with
        | null => exact absurd rfl hv
        | _ => rfl
      rw [hsome] at h
      cases hd : d v with
      | error e =>
        rw [hd] at h
        cases h
      | ok a =>
        rw [hd] at h
        cases h
        exact .given hd
  · intro h
    cases h with
    | null => rfl
    | given read =>
      cases v with
      | null => exact absurd read (hnull _)
      | _ =>
        simp only [optional, read]
        rfl

theorem Field.finds_optional_iff (hnull : ∀ a, d .null ≠ .ok a) {w : Option α} :
    (optional name d).Finds ms w ↔ Maybe (fun a v => d v = .ok a) (ms.get? name) w := by
  simp only [Finds, optional]
  cases ms.get? name with
  | some v => exact Decoder.optional_iff hnull
  | none =>
    constructor
    · rintro ⟨⟩
      exact .absent
    · rintro ⟨⟩
      rfl

/-- Where an object is read, there is no difference between what an array may leave out and what
it may not. -/
theorem Field.finds_trailing_iff (hnull : ∀ a, d .null ≠ .ok a) {w : Option α} :
    (trailing name d).Finds ms w ↔ Maybe (fun a v => d v = .ok a) (ms.get? name) w :=
  finds_optional_iff hnull

theorem Field.meets_optional_iff (hnull : ∀ a, d .null ≠ .ok a) {w : Option α} :
    (optional name d).Meets items place w ↔
      ∃ v, items[place]? = some v ∧ Maybe (fun a v => d v = .ok a) (some v) w := by
  simp only [Meets, optional]
  cases items[place]? with
  | some v => simp [Decoder.optional_iff hnull]
  | none => simp

theorem Field.meets_trailing_iff (hnull : ∀ a, d .null ≠ .ok a) {w : Option α} :
    (trailing name d).Meets items place w ↔ Maybe (fun a v => d v = .ok a) items[place]? w := by
  simp only [Meets, trailing]
  cases items[place]? with
  | some v => exact Decoder.optional_iff hnull
  | none =>
    constructor
    · rintro ⟨⟩
      exact .absent
    · rintro ⟨⟩
      rfl

theorem Decoder.optional_any_iff {v : Json} {w : Option Json} :
    any.optional v = .ok w ↔ w = (some v).filter (· ≠ .null) := by
  cases v <;> simp [optional, any, Except.map, Option.filter, eq_comm]

theorem Field.finds_any_iff {w : Option Json} :
    (trailing name .any).Finds ms w ↔ w = (ms.get? name).filter (· ≠ .null) := by
  simp only [Finds, trailing]
  cases ms.get? name with
  | some v => exact Decoder.optional_any_iff
  | none => simp [eq_comm]

theorem Field.meets_any_iff {w : Option Json} :
    (trailing name .any).Meets items place w ↔ w = items[place]?.filter (· ≠ .null) := by
  simp only [Meets, trailing]
  cases items[place]? with
  | some v => exact Decoder.optional_any_iff
  | none => simp [eq_comm]

end kinds

/-! ### Arrays of exactly as many items as there are fields -/

theorem eq_single {items : List Json} {v : Json} (h : items[0]? = some v)
    (hlength : items.length ≤ 1) : items = [v] := by
  match items with
  | [] => cases h
  | [_] =>
    cases h
    rfl
  | _ :: _ :: _ =>
    simp only [List.length_cons] at hlength
    omega

theorem eq_pair {items : List Json} {v w : Json} (hv : items[0]? = some v)
    (hw : items[1]? = some w) (hlength : items.length ≤ 2) : items = [v, w] := by
  cases items with
  | nil => cases hv
  | cons x more =>
    cases hv
    have hmore : more = [w] := eq_single hw (Nat.le_of_succ_le_succ hlength)
    rw [hmore]

end HoverServer.Json
