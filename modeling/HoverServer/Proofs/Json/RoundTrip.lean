import HoverServer.Proofs.Json.Normal
import HoverServer.Proofs.Json.Scalar

/-! A JSON value is read back as it was written, up to the order of its members. Doubles are left
out, because the reader rounds them in its own way, and a value that is nested too deeply is
refused. -/
namespace HoverServer.Json

/-- Values without doubles, with sorted objects, and with no more than so many containers inside
each other. -/
inductive Exact : Nat → Json → Prop where
  | null {depth : Nat} : Exact depth .null
  | bool {depth : Nat} (b : Bool) : Exact depth (.bool b)
  | whole {depth : Nat} (w : Whole) : Exact depth (.number (.whole w))
  | string {depth : Nat} (s : String) : Exact depth (.string s)
  | array {depth : Nat} {items : List Json} (h : ∀ v ∈ items, Exact depth v) :
      Exact (depth + 1) (.array items)
  | object {depth : Nat} {members : Members} (sorted : members.Sorted)
      (h : ∀ m ∈ members, Exact depth m.2) : Exact (depth + 1) (.object members)

theorem Exact.one {depth : Nat} {name : String} {v : Json} (h : Exact depth v) :
    Exact (depth + 1) (.object [(name, v)]) := by
  apply Exact.object (List.pairwise_singleton _ _)
  intro m hm
  rw [List.mem_singleton.1 hm]
  exact h

theorem Exact.two {depth : Nat} {name other : String} {v w : Json} (hlt : name < other)
    (hv : Exact depth v) (hw : Exact depth w) :
    Exact (depth + 1) (.object [(name, v), (other, w)]) := by
  apply Exact.object (List.pairwise_pair.2 hlt)
  intro m hm
  rcases List.mem_cons.1 hm with rfl | hm
  · exact hv
  · rw [List.mem_singleton.1 hm]
    exact hw

theorem Exact.integral {depth : Nat} {v : Json} (h : Exact depth v) : v.Integral := by
  induction h with
  | null => exact .null
  | bool b => exact .bool b
  | whole w => exact .whole w
  | string s => exact .string s
  | array _ ih => exact .array ih
  | object _ _ ih => exact .object ih

theorem Exact.ordered {depth : Nat} {v : Json} (h : Exact depth v) : v.Ordered := by
  induction h with
  | null => exact .null
  | bool b => exact .bool b
  | whole w => exact .number _
  | string s => exact .string s
  | array _ ih => exact .array ih
  | object hs _ ih => exact .object hs ih

theorem Exact.canonical {depth : Nat} {v : Json} (h : Exact depth v) : v.Canonical :=
  ⟨h.integral, h.ordered⟩

theorem Exact.nesting_le {depth : Nat} {v : Json} (h : Exact depth v) : v.nesting ≤ depth := by
  induction h with
  | array _ ih => exact Nat.succ_le_succ (nestingItems_le_iff.2 ih)
  | object _ _ ih => exact Nat.succ_le_succ (nestingMembers_le_iff.2 ih)
  | _ => exact Nat.zero_le _

/-! ### What is written -/

theorem text_object (ms : Members) : text (.object ms) = objectText ms := by
  rw [text, chars, objectText]

/-- What follows the first part of a list, each part behind its comma. -/
def later {α : Type} (f : α → List Char) (xs : List α) : List Char := xs.flatMap fun x => ',' :: f x

def listed {α : Type} (f : α → List Char) : List α → List Char
  | [] => []
  | x :: xs => f x ++ later f xs

theorem later_cons {α : Type} (f : α → List Char) (x : α) (xs : List α) :
    later f (x :: xs) = ',' :: (f x ++ later f xs) := rfl

def memberChars (m : String × Json) : List Char := stringChars m.1 ++ ':' :: m.2.chars

theorem itemsChars_eq (vs : List Json) : itemsChars vs = listed chars vs := by
  induction vs with
  | nil => rfl
  | cons v vs ih =>
    cases vs with
    | nil => simp [itemsChars, listed, later]
    | cons w vs =>
      rw [itemsChars, ih, listed, listed, later_cons]

theorem membersChars_eq (ms : Members) : membersChars ms = listed memberChars ms := by
  induction ms with
  | nil => rfl
  | cons m ms ih =>
    cases ms with
    | nil => simp [membersChars, listed, later, memberChars]
    | cons n ms =>
      rw [membersChars, ih, listed, listed, later_cons]
      simp [memberChars]

theorem length_later {α : Type} (f : α → List Char) (xs : List α) :
    xs.length ≤ (later f xs).length ∧ ∀ x ∈ xs, (f x).length ≤ (later f xs).length := by
  induction xs with
  | nil => exact ⟨Nat.le_refl 0, fun _ h => nomatch h⟩
  | cons x xs ih =>
    rw [later_cons, List.length_cons, List.length_cons, List.length_append]
    constructor
    · omega
    · intro y hy
      rcases List.mem_cons.1 hy with rfl | hy
      · omega
      · have := ih.2 y hy
        omega

/-- A list is longer than each of its parts, and has about as many characters as parts at least. -/
theorem length_listed {α : Type} (f : α → List Char) (xs : List α) :
    xs.length ≤ (listed f xs).length + 1 ∧ ∀ x ∈ xs, (f x).length ≤ (listed f xs).length := by
  cases xs with
  | nil => exact ⟨Nat.zero_le _, fun _ h => nomatch h⟩
  | cons x xs =>
    obtain ⟨hcount, hlater⟩ := length_later f xs
    rw [listed, List.length_append, List.length_cons]
    constructor
    · omega
    · intro y hy
      rcases List.mem_cons.1 hy with rfl | hy
      · omega
      · have := hlater y hy
        omega

theorem length_items (vs : List Json) :
    vs.length < (chars (.array vs)).length ∧
      ∀ v ∈ vs, v.chars.length ≤ (chars (.array vs)).length := by
  obtain ⟨hcount, hlen⟩ := length_listed chars vs
  have hlength : (chars (.array vs)).length = (listed chars vs).length + 2 := by
    simp [chars, itemsChars_eq]
  refine ⟨by omega, ?_⟩
  intro v hv
  have := hlen v hv
  omega

theorem length_members (ms : Members) :
    ms.length < (chars (.object ms)).length ∧
      ∀ m ∈ ms, m.2.chars.length ≤ (chars (.object ms)).length := by
  obtain ⟨hcount, hlen⟩ := length_listed memberChars ms
  have hlength : (chars (.object ms)).length = (listed memberChars ms).length + 2 := by
    simp [chars, membersChars_eq]
  refine ⟨by omega, ?_⟩
  intro m hm
  have := hlen m hm
  rw [memberChars, List.length_append, List.length_cons] at this
  omega

theorem digit_front {c : Char} (h : c.isDigit) : Reader.isBlank c = false ∧ c ≠ ']' := by
  refine ⟨?_, Decimal.ne_of_isDigit h rfl⟩
  have hspace : c ≠ ' ' := Decimal.ne_of_isDigit h rfl
  have hline : c ≠ '\n' := Decimal.ne_of_isDigit h rfl
  have htab : c ≠ '\t' := Decimal.ne_of_isDigit h rfl
  have hreturn : c ≠ '\r' := Decimal.ne_of_isDigit h rfl
  simp [Reader.isBlank, hspace, hline, htab, hreturn]

/-- The first character tells a value from the end of a list. -/
theorem Integral.front {v : Json} (h : v.Integral) :
    ∃ c r, v.chars = c :: r ∧ Reader.isBlank c = false ∧ c ≠ ']' := by
  cases h with
  | null => exact ⟨_, _, rfl, rfl, by decide⟩
  | bool b => cases b <;> exact ⟨_, _, rfl, rfl, by decide⟩
  | whole w =>
    rw [chars, Number.chars, Number.wholeChars]
    split
    · exact ⟨_, _, rfl, rfl, by decide⟩
    · obtain ⟨c, r, hc, hd⟩ := Decimal.toDigits_cons w.value.natAbs
      exact ⟨c, r, hc, digit_front hd⟩
  | string s => exact ⟨_, _, by rw [chars, stringChars], rfl, by decide⟩
  | array h => exact ⟨_, _, by rw [chars], rfl, by decide⟩
  | object h => exact ⟨_, _, by rw [chars], rfl, by decide⟩

namespace Reader

theorem skipBlanks_of_front {c : Char} (h : isBlank c = false) (r : List Char) :
    skipBlanks (c :: r) = c :: r := by
  rw [skipBlanks, List.dropWhile_cons, h]
  rfl

/-- An item reader gets a value back in its normal form, whatever closes it. -/
def Reads (item : List Char → Reading Json) (v : Json) : Prop :=
  ∀ r, continuesNumber r = false → item (v.chars ++ r) = .ok (v.normal, r)

/-- An item reader stops inside a value, because there is no room for its depth. -/
def Stops (item : List Char → Reading Json) (v : Json) : Prop :=
  ∀ r, continuesNumber r = false →
    ∃ stop, item (v.chars ++ r) = .error stop ∧ stop.cause = .tooDeep

variable {item : List Char → Reading Json}

theorem ends_later {α : Type} (f : α → List Char) (xs : List α) {close : List Char}
    (h : continuesNumber close = false) : continuesNumber (later f xs ++ close) = false := by
  cases xs with
  | nil => exact h
  | cons x xs => rfl

/-! ### Items -/

/-- The next item of a list and those behind it. -/
theorem items_later_cons {v : Json} (h : v.Integral) (vs : List Json) (budget : Nat)
    (r : List Char) :
    items item false (budget + 1) (later chars (v :: vs) ++ ']' :: r) =
      match item (v.chars ++ (later chars vs ++ ']' :: r)) with
      | .error stop => .error stop
      | .ok (w, s) => (items item false budget s).map fun (ws, s) => (w :: ws, s) := by
  obtain ⟨c, t, hc, hblank, hclose⟩ := h.front
  rw [later_cons, List.cons_append, List.append_assoc, hc, List.cons_append, items,
    skipBlanks_of_front rfl]
  simp only [skipBlanks_of_front hblank, if_neg hclose]
  rfl

/-- The first item of a list is read like the later ones. -/
theorem items_first {vs : List Json} (h : ∀ v ∈ vs, v.Integral) (budget : Nat) (r : List Char) :
    items item true budget (itemsChars vs ++ ']' :: r) =
      items item false budget (later chars vs ++ ']' :: r) := by
  cases budget with
  | zero => rfl
  | succ budget =>
    cases vs with
    | nil => rfl
    | cons v vs =>
      have hv := h v (by simp)
      obtain ⟨c, t, hc, hblank, hclose⟩ := hv.front
      rw [items_later_cons hv, itemsChars_eq, listed, hc, List.append_assoc, List.cons_append,
        items, skipBlanks_of_front hblank]
      exact (if_neg hclose).trans rfl

theorem items_later {vs : List Json} (hvs : ∀ v ∈ vs, v.Integral) (h : ∀ v ∈ vs, Reads item v)
    {budget : Nat} (hb : vs.length < budget) (r : List Char) :
    items item false budget (later chars vs ++ ']' :: r) = .ok (normalItems vs, r) := by
  induction vs generalizing budget with
  | nil =>
    obtain ⟨budget, rfl⟩ : ∃ k, budget = k + 1 := ⟨budget - 1, by omega⟩
    rfl
  | cons v vs ih =>
    obtain ⟨budget, rfl⟩ : ∃ k, budget = k + 1 := ⟨budget - 1, by omega⟩
    obtain ⟨hv, hvs⟩ := List.forall_mem_cons.1 hvs
    obtain ⟨hread, hreads⟩ := List.forall_mem_cons.1 h
    rw [items_later_cons hv, hread _ (ends_later chars vs rfl)]
    simp only [ih hvs hreads (Nat.lt_of_succ_lt_succ hb)]
    rfl

/-- The items are read up to the first one that is too deep. -/
theorem items_later_stops {vs : List Json} (hvs : ∀ v ∈ vs, v.Integral)
    (h : ∀ v ∈ vs, Reads item v ∨ Stops item v) (hs : ∃ v ∈ vs, Stops item v) {budget : Nat}
    (hb : vs.length < budget) (r : List Char) :
    ∃ stop, items item false budget (later chars vs ++ ']' :: r) = .error stop ∧
      stop.cause = .tooDeep := by
  induction vs generalizing budget with
  | nil =>
    obtain ⟨v, hv, _⟩ := hs
    cases hv
  | cons v vs ih =>
    obtain ⟨budget, rfl⟩ : ∃ k, budget = k + 1 := ⟨budget - 1, by omega⟩
    obtain ⟨hv, hvs⟩ := List.forall_mem_cons.1 hvs
    obtain ⟨hfirst, hmore⟩ := List.forall_mem_cons.1 h
    have hends : continuesNumber (later chars vs ++ ']' :: r) = false := ends_later chars vs rfl
    rw [items_later_cons hv]
    by_cases hstop : Stops item v
    · obtain ⟨stop, herror, hcause⟩ := hstop _ hends
      rw [herror]
      exact ⟨stop, rfl, hcause⟩
    · have hlater : ∃ w ∈ vs, Stops item w := by
        obtain ⟨w, hw, hws⟩ := hs
        rcases List.mem_cons.1 hw with rfl | hw
        · exact absurd hws hstop
        · exact ⟨w, hw, hws⟩
      obtain ⟨stop, herror, hcause⟩ := ih hvs hmore hlater (Nat.lt_of_succ_lt_succ hb)
      rw [hfirst.resolve_right hstop _ hends]
      simp only [herror]
      exact ⟨stop, rfl, hcause⟩

/-! ### Members -/

/-- One member, from behind the quote that opens its name. -/
theorem member_chars (m : String × Json) (r : List Char) :
    ∃ s t, memberChars m ++ r = '"' :: s ∧ stringRest [] s = .ok (m.1, t) ∧
      memberValue item t = item (m.2.chars ++ r) := by
  refine ⟨m.1.toList.flatMap escape ++ '"' :: (':' :: (m.2.chars ++ r)),
    ':' :: (m.2.chars ++ r), ?_, stringRest_stringChars m.1 _, ?_⟩
  · simp [memberChars, stringChars]
  · rw [memberValue, skipBlanks_of_front rfl]
    rfl

theorem members_later_cons (m : String × Json) (ms read : Members) (budget : Nat)
    (r : List Char) :
    members item false read (budget + 1) (later memberChars (m :: ms) ++ '\x7d' :: r) =
      match item (m.2.chars ++ (later memberChars ms ++ '\x7d' :: r)) with
      | .error stop => .error stop
      | .ok (v, s) => members item false (read.insert m.1 v) budget s := by
  obtain ⟨s, t, hs, hname, hvalue⟩ :=
    @member_chars item m (later memberChars ms ++ '\x7d' :: r)
  rw [later_cons, List.cons_append, List.append_assoc, hs, members, skipBlanks_of_front rfl,
    ← hvalue]
  simp only [@skipBlanks_of_front '"' rfl, hname]
  rfl

theorem members_first (ms read : Members) (budget : Nat) (r : List Char) :
    members item true read budget (membersChars ms ++ '\x7d' :: r) =
      members item false read budget (later memberChars ms ++ '\x7d' :: r) := by
  cases budget with
  | zero => rfl
  | succ budget =>
    cases ms with
    | nil => rfl
    | cons m ms =>
      obtain ⟨s, t, hs, hname, hvalue⟩ :=
        @member_chars item m (later memberChars ms ++ '\x7d' :: r)
      rw [members_later_cons, membersChars_eq, listed, List.append_assoc, hs, members,
        skipBlanks_of_front rfl, ← hvalue]
      simp only [hname]
      rfl

theorem members_later {ms : Members} (h : ∀ m ∈ ms, Reads item m.2) {budget : Nat}
    (hb : ms.length < budget) (read : Members) (r : List Char) :
    members item false read budget (later memberChars ms ++ '\x7d' :: r) =
      .ok (read.place (normalMembers ms), r) := by
  induction ms generalizing budget read with
  | nil =>
    obtain ⟨budget, rfl⟩ : ∃ k, budget = k + 1 := ⟨budget - 1, by omega⟩
    rfl
  | cons m ms ih =>
    obtain ⟨budget, rfl⟩ : ∃ k, budget = k + 1 := ⟨budget - 1, by omega⟩
    obtain ⟨hread, hreads⟩ := List.forall_mem_cons.1 h
    rw [members_later_cons, hread _ (ends_later memberChars ms rfl)]
    exact ih hreads (Nat.lt_of_succ_lt_succ hb) _

theorem members_later_stops {ms : Members} (h : ∀ m ∈ ms, Reads item m.2 ∨ Stops item m.2)
    (hs : ∃ m ∈ ms, Stops item m.2) {budget : Nat} (hb : ms.length < budget) (read : Members)
    (r : List Char) :
    ∃ stop, members item false read budget (later memberChars ms ++ '\x7d' :: r) = .error stop ∧
      stop.cause = .tooDeep := by
  induction ms generalizing budget read with
  | nil =>
    obtain ⟨m, hm, _⟩ := hs
    cases hm
  | cons m ms ih =>
    obtain ⟨budget, rfl⟩ : ∃ k, budget = k + 1 := ⟨budget - 1, by omega⟩
    obtain ⟨hfirst, hmore⟩ := List.forall_mem_cons.1 h
    have hends : continuesNumber (later memberChars ms ++ '\x7d' :: r) = false :=
      ends_later memberChars ms rfl
    rw [members_later_cons]
    by_cases hstop : Stops item m.2
    · obtain ⟨stop, herror, hcause⟩ := hstop _ hends
      rw [herror]
      exact ⟨stop, rfl, hcause⟩
    · have hlater : ∃ n ∈ ms, Stops item n.2 := by
        obtain ⟨n, hn, hns⟩ := hs
        rcases List.mem_cons.1 hn with rfl | hn
        · exact absurd hns hstop
        · exact ⟨n, hn, hns⟩
      rw [hfirst.resolve_right hstop _ hends]
      exact ih hmore hlater (Nat.lt_of_succ_lt_succ hb) _

/-! ### Values -/

theorem valueWith_whole (inner : List Char → Reading Json) (w : Whole) {r : List Char}
    (hr : continuesNumber r = false) :
    valueWith inner (Number.wholeChars w.value ++ r) = .ok (.number (.whole w), r) := by
  have hread := number_natAbs w hr
  rw [Number.wholeChars]
  by_cases hneg : w.value < 0
  · rw [decide_eq_true hneg] at hread
    rw [if_pos hneg, List.cons_append, valueWith, skipBlanks_of_front rfl]
    simp [hread, Except.map]
  · rw [decide_eq_false hneg] at hread
    obtain ⟨c, s, hc, hd⟩ := Decimal.toDigits_cons w.value.natAbs
    have hne (d : Char) (h : d.isDigit = false) : c ≠ d := Decimal.ne_of_isDigit hd h
    rw [hc, List.cons_append] at hread
    rw [if_neg hneg, hc, List.cons_append, valueWith, skipBlanks_of_front (digit_front hd).1]
    simp only [if_neg (hne 'n' rfl), if_neg (hne 't' rfl),
      if_neg (hne 'f' rfl), if_neg (hne '-' rfl), hd, if_true, hread, Except.map]

theorem valueWith_string (inner : List Char → Reading Json) (t : String) (r : List Char) :
    valueWith inner (stringChars t ++ r) = .ok (.string t, r) := by
  rw [stringChars, List.cons_append, List.append_assoc, List.singleton_append, valueWith,
    skipBlanks_of_front rfl]
  simp [stringRest_stringChars, Except.map]

theorem value_eq (budget depth : Nat) : ∃ inner, value budget depth = valueWith inner := by
  cases depth with
  | zero => exact ⟨_, rfl⟩
  | succ depth => exact ⟨_, rfl⟩

theorem value_array (budget depth : Nat) {vs : List Json} (h : ∀ v ∈ vs, v.Integral)
    (r : List Char) :
    value budget (depth + 1) ((Json.array vs).chars ++ r) =
      (items (value budget depth) false budget (later chars vs ++ ']' :: r)).map
        fun (ws, s) => (.array ws, s) := by
  rw [chars, List.cons_append, List.append_assoc, List.singleton_append, value, valueWith,
    skipBlanks_of_front rfl, ← items_first h]
  rfl

theorem value_object (budget depth : Nat) (ms : Members) (r : List Char) :
    value budget (depth + 1) ((Json.object ms).chars ++ r) =
      (members (value budget depth) false [] budget (later memberChars ms ++ '\x7d' :: r)).map
        fun (ns, s) => (.object ns, s) := by
  rw [chars, List.cons_append, List.append_assoc, List.singleton_append, value, valueWith,
    skipBlanks_of_front rfl, ← members_first]
  rfl

/-- A container where there is no room for one. -/
theorem value_zero (budget : Nat) {c : Char} (hc : c = '[' ∨ c = '\x7b') (r : List Char) :
    value budget 0 (c :: r) = stopAt .tooDeep (c :: r) := by
  rcases hc with rfl | rfl <;> rw [value, valueWith, skipBlanks_of_front rfl] <;> rfl

end Reader

/-- A value is read back where the reader has room for its depth and for its items. -/
theorem Integral.reads {v : Json} (h : v.Integral) {budget depth : Nat}
    (hb : v.chars.length ≤ budget) (hd : v.nesting ≤ depth) :
    Reader.Reads (Reader.value budget depth) v := by
  induction h generalizing depth with
  | null =>
    intro r _
    obtain ⟨inner, hinner⟩ := Reader.value_eq budget depth
    rw [hinner]
    rfl
  | bool b =>
    intro r _
    obtain ⟨inner, hinner⟩ := Reader.value_eq budget depth
    rw [hinner]
    cases b <;> rfl
  | whole w =>
    intro r hr
    obtain ⟨inner, hinner⟩ := Reader.value_eq budget depth
    rw [hinner]
    exact Reader.valueWith_whole inner w hr
  | string s =>
    intro r _
    obtain ⟨inner, hinner⟩ := Reader.value_eq budget depth
    rw [hinner]
    exact Reader.valueWith_string inner s r
  | @array vs hvs ih =>
    intro r _
    obtain ⟨depth, rfl⟩ : ∃ k, depth = k + 1 := ⟨depth - 1, by rw [nesting] at hd; omega⟩
    have hdepth := nestingItems_le_iff.1 (Nat.le_of_succ_le_succ hd)
    obtain ⟨hcount, hlen⟩ := length_items vs
    have hreads : ∀ v ∈ vs, Reader.Reads (Reader.value budget depth) v := by
      intro v hv
      exact ih v hv (Nat.le_trans (hlen v hv) hb) (hdepth v hv)
    rw [Reader.value_array budget depth hvs, Reader.items_later hvs hreads (by omega)]
    rfl
  | @object ms hms ih =>
    intro r _
    obtain ⟨depth, rfl⟩ : ∃ k, depth = k + 1 := ⟨depth - 1, by rw [nesting] at hd; omega⟩
    have hdepth := nestingMembers_le_iff.1 (Nat.le_of_succ_le_succ hd)
    obtain ⟨hcount, hlen⟩ := length_members ms
    have hreads : ∀ m ∈ ms, Reader.Reads (Reader.value budget depth) m.2 := by
      intro m hm
      exact ih m hm (Nat.le_trans (hlen m hm) hb) (hdepth m hm)
    rw [Reader.value_object, Reader.members_later hreads (by omega)]
    rfl

/-- A value is refused where the reader has no room for its depth. -/
theorem Integral.stops {v : Json} (h : v.Integral) {budget depth : Nat}
    (hb : v.chars.length ≤ budget) (hd : depth < v.nesting) :
    Reader.Stops (Reader.value budget depth) v := by
  induction h generalizing depth with
  | @array vs hvs ih =>
    intro r _
    cases depth with
    | zero => exact ⟨_, Reader.value_zero budget (Or.inl rfl) _, rfl⟩
    | succ depth =>
      obtain ⟨hcount, hlen⟩ := length_items vs
      have hcases : ∀ v ∈ vs, Reader.Reads (Reader.value budget depth) v ∨
          Reader.Stops (Reader.value budget depth) v := by
        intro v hv
        have hfits := Nat.le_trans (hlen v hv) hb
        rcases Nat.lt_or_ge depth v.nesting with hdeep | hroom
        · exact Or.inr (ih v hv hfits hdeep)
        · exact Or.inl ((hvs v hv).reads hfits hroom)
      obtain ⟨v, hv, hdeep⟩ := lt_nestingItems_iff.1 (Nat.lt_of_succ_lt_succ hd)
      have hstops : ∃ v ∈ vs, Reader.Stops (Reader.value budget depth) v :=
        ⟨v, hv, ih v hv (Nat.le_trans (hlen v hv) hb) hdeep⟩
      obtain ⟨stop, herror, hcause⟩ :=
        Reader.items_later_stops hvs hcases hstops (Nat.lt_of_lt_of_le hcount hb) r
      rw [Reader.value_array budget depth hvs, herror]
      exact ⟨stop, rfl, hcause⟩
  | @object ms hms ih =>
    intro r _
    cases depth with
    | zero => exact ⟨_, Reader.value_zero budget (Or.inr rfl) _, rfl⟩
    | succ depth =>
      obtain ⟨hcount, hlen⟩ := length_members ms
      have hcases : ∀ m ∈ ms, Reader.Reads (Reader.value budget depth) m.2 ∨
          Reader.Stops (Reader.value budget depth) m.2 := by
        intro m hm
        have hfits := Nat.le_trans (hlen m hm) hb
        rcases Nat.lt_or_ge depth m.2.nesting with hdeep | hroom
        · exact Or.inr (ih m hm hfits hdeep)
        · exact Or.inl ((hms m hm).reads hfits hroom)
      obtain ⟨m, hm, hdeep⟩ := lt_nestingMembers_iff.1 (Nat.lt_of_succ_lt_succ hd)
      have hstops : ∃ m ∈ ms, Reader.Stops (Reader.value budget depth) m.2 :=
        ⟨m, hm, ih m hm (Nat.le_trans (hlen m hm) hb) hdeep⟩
      obtain ⟨stop, herror, hcause⟩ :=
        Reader.members_later_stops hcases hstops (Nat.lt_of_lt_of_le hcount hb) [] r
      rw [Reader.value_object, herror]
      exact ⟨stop, rfl, hcause⟩
  | _ => exact absurd hd (Nat.not_lt_zero depth)

/-- A text that was written from a value gives its normal form back. -/
theorem parse_text {v : Json} (h : v.Integral) (hd : v.nesting ≤ Reader.maxDepth) :
    parse v.text = .ok v.normal := by
  have hread := h.reads (Nat.le_refl _) hd [] rfl
  rw [List.append_nil] at hread
  rw [parse, text, String.toList_ofList, Reader.document, hread]
  rfl

theorem parse_text_of_deep {v : Json} (h : v.Integral) (hd : Reader.maxDepth < v.nesting) :
    ∃ e, parse v.text = .error e ∧ e.cause = .tooDeep := by
  obtain ⟨stop, hstop, hcause⟩ := h.stops (Nat.le_refl _) hd [] rfl
  rw [List.append_nil] at hstop
  rw [parse, text, String.toList_ofList, Reader.document, hstop]
  exact ⟨_, rfl, hcause⟩

end HoverServer.Json
