import HoverServer.Message.Fault
import HoverServer.Proofs.Json.Written

/-! Which texts are messages, told by the members that stand in them. Every rule is stated by
itself; a text that breaks several is reported for the first of them. -/
namespace HoverServer

/-- The place of a rule in the order in which they are checked. Of the last three no two can be
broken at once. -/
def Fault.rank : Fault → Nat
  | .json _ => 0
  | .notAnObject => 1
  | .unsupportedVersion => 2
  | .missingMethod => 3
  | .invalidId => 4
  | .conflictingOutcome => 5
  | .missingOutcome => 5
  | .invalidError _ => 5

/-- The first of all the faults that there are. -/
def Fault.First (faulty : Fault → Prop) (f : Fault) : Prop :=
  faulty f ∧ ∀ g, faulty g → f.rank ≤ g.rank

namespace Message

/-- The text is an object and gives `v` under a name, where the last of several entries counts. -/
def Has (text name : String) (v : Json) : Prop :=
  ∃ es, Json.Written text es ∧ Json.Entry.value? es name = some v

/-- What makes a text no message, if besides the rules for all messages there are some `more`. -/
inductive Faulty (text : String) (more : Fault → Prop) : Fault → Prop where
  | json {e : Json.ReadError} (unread : Json.parse text = .error e) : Faulty text more (.json e)
  | notAnObject {v : Json} (read : Json.parse text = .ok v)
      (other : ∀ es, ¬ Json.Written text es) : Faulty text more .notAnObject
  | unsupportedVersion (other : ¬ Has text "jsonrpc" (.string "2.0")) :
      Faulty text more .unsupportedVersion
  | more {f : Fault} (h : more f) : Faulty text more f

end Message

/-- A true report on a text: it tells the first fault, and the id if one can be used. -/
structure Malformed.Reports (m : Malformed) (text : String) (more : Fault → Prop) : Prop where
  same : m.text = text
  first : Fault.First (Message.Faulty text more) m.fault
  id : ∀ id, m.id = some id ↔ Message.Has text "id" id.toJson

/-! ### The members of a text -/

theorem Id.ofJson?_iff {v : Json} {id : Id} : ofJson? v = some id ↔ v = id.toJson := by
  constructor
  · intro h
    cases v <;> cases h <;> rfl
  · rintro rfl
    exact id.ofJson?_toJson

theorem Id.toJson_injective {id other : Id} (h : id.toJson = other.toJson) : id = other := by
  have := congrArg ofJson? h
  rw [ofJson?_toJson, ofJson?_toJson] at this
  exact Option.some.inj this

namespace Message

variable {text name : String} {v w : Json} {ms : Members} {m : Malformed} {more : Fault → Prop}
  {f g : Fault}

theorem has_iff :
    Has text name v ↔
      ∃ ms : Members, Json.parse text = .ok (.object ms) ∧ ms.get? name = some v := by
  constructor
  · rintro ⟨es, hes, hv⟩
    exact ⟨_, Json.parse_object_iff.2 ⟨es, hes, rfl⟩, (Json.Entry.get?_place es name).trans hv⟩
  · rintro ⟨ms, hms, hv⟩
    obtain ⟨es, hes, rfl⟩ := Json.parse_object_iff.1 hms
    exact ⟨es, hes, (Json.Entry.get?_place es name).symm.trans hv⟩

theorem Has.unique (h : Has text name v) (h' : Has text name w) : v = w := by
  obtain ⟨es, hes, hv⟩ := h
  obtain ⟨es', hes', hw⟩ := h'
  cases hes.unique hes'
  exact Option.some.inj (hv.symm.trans hw)

theorem Has.ordered (h : Has text name v) : v.Ordered := by
  obtain ⟨ms, hparse, hv⟩ := has_iff.1 h
  exact (Json.parse_ordered hparse).member hv

theorem has_of_object (h : Json.parse text = .ok (.object ms)) :
    Has text name v ↔ ms.get? name = some v := by
  rw [has_iff, h]
  constructor
  · rintro ⟨_, hms, hv⟩
    cases hms
    exact hv
  · intro hv
    exact ⟨ms, rfl, hv⟩

theorem not_has (h : ∀ ms, Json.parse text ≠ .ok (.object ms)) : ¬ Has text name v := by
  rw [has_iff]
  rintro ⟨ms, hms, _⟩
  exact h ms hms

theorem usableId_iff (h : Json.parse text = .ok (.object ms)) {id : Id} :
    usableId ms = some id ↔ Has text "id" id.toJson := by
  rw [has_of_object h, usableId, Option.bind_eq_some_iff]
  simp only [Id.ofJson?_iff, exists_eq_right]

/-! ### The rules for all messages -/

/-- A text of the right version can only break the rules that are there besides. -/
theorem Faulty.of_version (h : Faulty text more f) (hversion : Has text "jsonrpc" (.string "2.0")) :
    more f := by
  obtain ⟨ms, hparse, _⟩ := has_iff.1 hversion
  cases h with
  | json unread => cases hparse.symm.trans unread
  | notAnObject _ other =>
    obtain ⟨es, hes, _⟩ := Json.parse_object_iff.1 hparse
    exact absurd hes (other es)
  | unsupportedVersion other => exact absurd hversion other
  | more h => exact h

/-- Faults of one place in the order are the same fault. -/
theorem Faulty.same (hlate : ∀ f, more f → 2 < f.rank)
    (hmore : ∀ f g, more f → more g → f.rank = g.rank → f = g) (hf : Faulty text more f)
    (hg : Faulty text more g) (hrank : f.rank = g.rank) : f = g := by
  have hearly {f : Fault} (h : more f) (hle : f.rank ≤ 2) : False :=
    Nat.not_le_of_lt (hlate f h) hle
  cases hf with
  | json unread =>
    cases hg with
    | json unread' =>
      cases unread.symm.trans unread'
      rfl
    | more h => exact (hearly h (hrank ▸ Nat.zero_le 2)).elim
    | _ => cases hrank
  | notAnObject _ _ =>
    cases hg with
    | notAnObject _ _ => rfl
    | more h => exact (hearly h (hrank ▸ Nat.le_succ 1)).elim
    | _ => cases hrank
  | unsupportedVersion _ =>
    cases hg with
    | unsupportedVersion _ => rfl
    | more h => exact (hearly h (hrank ▸ Nat.le_refl 2)).elim
    | _ => cases hrank
  | more h =>
    cases hg with
    | json _ => exact (hearly h (hrank ▸ Nat.zero_le 2)).elim
    | notAnObject _ _ => exact (hearly h (hrank ▸ Nat.le_succ 1)).elim
    | unsupportedVersion _ => exact (hearly h (hrank ▸ Nat.le_refl 2)).elim
    | more h' => exact hmore f g h h' hrank

theorem open?_ok (h : open? text = .ok ms) :
    Json.parse text = .ok (.object ms) ∧ Has text "jsonrpc" (.string "2.0") := by
  rw [open?] at h
  split at h
  · cases h
  · rename_i ms' hparse
    split at h
    · rename_i hversion
      cases h
      exact ⟨hparse, (has_of_object hparse).2 hversion⟩
    · cases h
  · cases h

/-- Rules that come later in the order do not change which fault is reported. -/
theorem open?_error (hlate : ∀ f, more f → 2 < f.rank) (h : open? text = .error m) :
    m.Reports text more := by
  rw [open?] at h
  split at h
  · rename_i e hparse
    cases h
    refine ⟨rfl, ⟨.json hparse, fun g _ => Nat.zero_le _⟩, ?_⟩
    intro id
    have hnot : ¬ Has text "id" id.toJson := not_has fun ms hms => by
      cases hparse.symm.trans hms
    simp [hnot]
  · rename_i ms hparse
    split at h
    · cases h
    · rename_i hversion
      cases h
      have hother : ¬ Has text "jsonrpc" (.string "2.0") := fun hhas =>
        hversion ((has_of_object hparse).1 hhas)
      refine ⟨rfl, ⟨.unsupportedVersion hother, ?_⟩, fun id => usableId_iff hparse⟩
      intro g hg
      cases hg with
      | json unread => cases hparse.symm.trans unread
      | notAnObject _ other =>
        obtain ⟨es, hes, _⟩ := Json.parse_object_iff.1 hparse
        exact absurd hes (other es)
      | unsupportedVersion _ => exact Nat.le_refl _
      | more hg => exact Nat.le_of_lt (hlate g hg)
  · rename_i v hobject hparse
    cases h
    have hother (ms : Members) : Json.parse text ≠ .ok (.object ms) := by
      intro hms
      cases hparse.symm.trans hms
      exact hobject ms rfl
    have hunwritten (es : List Json.Entry) : ¬ Json.Written text es := fun hes =>
      hother _ (Json.parse_object_iff.2 ⟨es, hes, rfl⟩)
    refine ⟨rfl, ⟨.notAnObject hparse hunwritten, ?_⟩, ?_⟩
    · intro g hg
      cases hg with
      | json unread => cases hparse.symm.trans unread
      | notAnObject _ _ => exact Nat.le_refl _
      | unsupportedVersion _ => exact Nat.le_succ 1
      | more hg => exact Nat.le_trans (Nat.le_succ 1) (Nat.le_of_lt (hlate g hg))
    · intro id
      have hnot : ¬ Has text "id" id.toJson := not_has hother
      simp [hnot]

/-- The fault of a text of the right version is the first of those that are there besides. -/
theorem reports_of_open (h : open? text = .ok ms) {m : Malformed} (hsame : m.text = text)
    (hid : m.id = usableId ms) (hfault : more m.fault)
    (hfirst : ∀ g, more g → m.fault.rank ≤ g.rank) : m.Reports text more := by
  obtain ⟨hparse, hversion⟩ := open?_ok h
  refine ⟨hsame, ⟨.more hfault, fun g hg => hfirst g (hg.of_version hversion)⟩, ?_⟩
  intro id
  rw [hid]
  exact usableId_iff hparse

end Message

theorem Malformed.Reports.unique {text : String} {more : Fault → Prop}
    (hlate : ∀ f, more f → 2 < f.rank)
    (hmore : ∀ f g, more f → more g → f.rank = g.rank → f = g) {m n : Malformed}
    (hm : m.Reports text more) (hn : n.Reports text more) : m = n := by
  obtain ⟨text', fault, id⟩ := m
  obtain ⟨text'', fault', id'⟩ := n
  obtain ⟨rfl, ⟨hfault, hfirst⟩, hid⟩ := hm
  obtain ⟨rfl, ⟨hfault', hfirst'⟩, hid'⟩ := hn
  have hrank := Nat.le_antisymm (hfirst fault' hfault') (hfirst' fault hfault)
  cases hfault.same hlate hmore hfault' hrank
  have : id = id' := Option.ext fun i => (hid i).trans (hid' i).symm
  rw [this]

/-- A reader that gives nothing but what stands in a text and true reports does so for all texts. -/
theorem Message.reads_iff {α : Type} {text : String} {got : Except Malformed α} {Good : α → Prop}
    {more : Fault → Prop} (hgood : ∀ a, got = .ok a → Good a)
    (hbad : ∀ m, got = .error m → m.Reports text more) (hunique : ∀ a b, Good a → Good b → a = b)
    (hlate : ∀ f, more f → 2 < f.rank)
    (hmore : ∀ f g, more f → more g → f.rank = g.rank → f = g)
    (hversion : ∀ a, Good a → Has text "jsonrpc" (.string "2.0"))
    (hnot : ∀ a f, Good a → ¬ more f) :
    (∀ a, got = .ok a ↔ Good a) ∧ ∀ m, got = .error m ↔ m.Reports text more := by
  have hexclusive (a : α) (m : Malformed) (ha : Good a) : ¬ m.Reports text more := fun hm =>
    hnot a m.fault ha (hm.first.1.of_version (hversion a ha))
  cases got with
  | ok b =>
    have hb := hgood b rfl
    constructor
    · intro a
      constructor
      · exact hgood a
      · intro ha
        rw [hunique a b ha hb]
    · intro m
      constructor
      · intro h
        cases h
      · intro hm
        exact absurd hm (hexclusive b m hb)
  | error n =>
    have hn := hbad n rfl
    constructor
    · intro a
      constructor
      · intro h
        cases h
      · intro ha
        exact absurd hn (hexclusive a n ha)
    · intro m
      constructor
      · exact hbad m
      · intro hm
        rw [hm.unique hlate hmore hn]

end HoverServer
