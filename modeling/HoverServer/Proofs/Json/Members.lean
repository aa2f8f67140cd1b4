import HoverServer.Json.Basic

/-! The members of an object as they come in, one after the other. -/
namespace HoverServer.Members

theorem get?_cons (name other : String) (v : Json) (ms : Members) :
    get? ((other, v) :: ms) name = if name = other then some v else get? ms name := by
  rw [get?, List.lookup_cons]
  by_cases h : name = other
  · simp [h]
  · rw [beq_eq_false_iff_ne.2 h, if_neg h]
    rfl

theorem get?_insert (ms : Members) (name other : String) (v : Json) :
    get? (insert name v ms) other = if other = name then some v else get? ms other := by
  induction ms with
  | nil => exact get?_cons other name v []
  | cons m r ih =>
    obtain ⟨name', w⟩ := m
    rw [insert]
    by_cases hlt : name < name'
    · rw [if_pos hlt, get?_cons]
    rw [if_neg hlt]
    by_cases heq : name = name'
    · rw [if_pos heq, get?_cons, get?_cons]
      subst heq
      by_cases ho : other = name <;> simp [ho]
    · rw [if_neg heq, get?_cons, ih, get?_cons]
      by_cases ho : other = name'
      · subst ho
        simp [Ne.symm heq]
      · simp [ho]

theorem get?_append (ms more : Members) (name : String) :
    get? (ms ++ more) name = (get? ms name).or (get? more name) := by
  induction ms with
  | nil => rfl
  | cons m r ih =>
    rw [List.cons_append, get?_cons, get?_cons, ih]
    split <;> rfl

theorem mem_of_get? {ms : Members} {name : String} {v : Json} (h : get? ms name = some v) :
    (name, v) ∈ ms := by
  induction ms with
  | nil => cases h
  | cons m r ih =>
    rw [get?_cons] at h
    split at h
    · rename_i hn
      rw [hn, ← Option.some.inj h]
      exact List.mem_cons_self
    · exact List.mem_cons_of_mem m (ih h)

theorem get?_ne_none {ms : Members} {m : String × Json} (h : m ∈ ms) : get? ms m.1 ≠ none := by
  induction ms with
  | nil => cases h
  | cons n r ih =>
    rw [get?_cons]
    split
    · simp
    · rename_i hn
      rcases List.mem_cons.1 h with rfl | h
      · exact absurd rfl hn
      · exact ih h

/-- No member hides behind another one of its name. -/
def Distinct (ms : Members) : Prop := ∀ m ∈ ms, get? ms m.1 = some m.2

theorem distinct_of_nodup {ms : Members} (h : (ms.map Prod.fst).Nodup) : ms.Distinct := by
  induction ms with
  | nil =>
    intro m hm
    cases hm
  | cons n r ih =>
    rw [List.map_cons, List.nodup_cons] at h
    intro m hm
    rcases List.mem_cons.1 hm with rfl | hm
    · rw [get?_cons, if_pos rfl]
    · have hne : m.1 ≠ n.1 := by
        intro he
        apply h.1
        rw [← he]
        exact List.mem_map_of_mem hm
      rw [get?_cons, if_neg hne]
      exact ih h.2 m hm

theorem get?_map (f : Json → Json) (ms : Members) (name : String) :
    get? (ms.map fun m => (m.1, f m.2)) name = (get? ms name).map f := by
  induction ms with
  | nil => rfl
  | cons m ms ih =>
    rw [List.map_cons, get?_cons, get?_cons, ih]
    split <;> rfl

theorem Distinct.map {ms : Members} (h : ms.Distinct) (f : Json → Json) :
    Distinct (ms.map fun m => (m.1, f m.2)) := by
  intro m hm
  obtain ⟨n, hn, rfl⟩ := List.mem_map.1 hm
  rw [get?_map, h n hn, Option.map_some]

/-- Names in strictly ascending order. -/
def Sorted (ms : Members) : Prop := ms.Pairwise fun m n => m.1 < n.1

/-- Members put in their places one by one. -/
def place (ms : Members) : Members → Members
  | [] => ms
  | (name, v) :: r => place (ms.insert name v) r

theorem insert_last {ms : Members} {name : String} (h : ∀ m ∈ ms, m.1 < name) (v : Json) :
    insert name v ms = ms ++ [(name, v)] := by
  induction ms with
  | nil => rfl
  | cons m r ih =>
    obtain ⟨name', w⟩ := m
    have hm : name' < name := h (name', w) (by simp)
    have hne : name ≠ name' := by
      intro he
      rw [he] at hm
      exact String.lt_irrefl name' hm
    rw [insert, if_neg (String.lt_asymm hm), if_neg hne,
      ih fun n hn => h n (List.mem_cons_of_mem _ hn)]
    rfl

theorem place_of_sorted {ms more : Members} (h : Sorted (ms ++ more)) :
    place ms more = ms ++ more := by
  induction more generalizing ms with
  | nil => exact (List.append_nil ms).symm
  | cons m r ih =>
    obtain ⟨name, v⟩ := m
    have hlast : ∀ m ∈ ms, m.1 < name := by
      intro m hm
      exact (List.pairwise_append.1 h).2.2 m hm (name, v) (by simp)
    have hsorted : Sorted (ms ++ [(name, v)] ++ r) := by
      rw [List.append_assoc]
      exact h
    rw [place, insert_last hlast, ih hsorted, List.append_assoc]
    rfl

/-- Of the members of one name the last one counts. -/
theorem get?_place (ms more : Members) (name : String) :
    get? (place ms more) name = (get? more.reverse name).or (get? ms name) := by
  induction more generalizing ms with
  | nil => rfl
  | cons m r ih =>
    rw [place, ih, List.reverse_cons, get?_append, get?_insert, Option.or_assoc, get?_cons]
    split <;> rfl

theorem Distinct.get?_place {ms : Members} (h : ms.Distinct) (name : String) :
    get? (place [] ms) name = get? ms name := by
  rw [Members.get?_place]
  cases hr : get? ms.reverse name with
  | some v => exact (h (name, v) (List.mem_reverse.1 (mem_of_get? hr))).symm
  | none =>
    cases hn : get? ms name with
    | none => rfl
    | some v => exact absurd hr (get?_ne_none (List.mem_reverse.2 (mem_of_get? hn)))

theorem mem_insert {ms : Members} {name : String} {v : Json} {m : String × Json}
    (h : m ∈ insert name v ms) : m = (name, v) ∨ m ∈ ms := by
  induction ms with
  | nil => exact Or.inl (List.mem_singleton.1 h)
  | cons n r ih =>
    obtain ⟨other, w⟩ := n
    rw [insert] at h
    split at h
    · exact List.mem_cons.1 h
    · split at h
      · rcases List.mem_cons.1 h with rfl | h
        · exact Or.inl rfl
        · exact Or.inr (List.mem_cons_of_mem _ h)
      · rcases List.mem_cons.1 h with rfl | h
        · exact Or.inr List.mem_cons_self
        · rcases ih h with rfl | h
          · exact Or.inl rfl
          · exact Or.inr (List.mem_cons_of_mem _ h)

theorem Sorted.insert {ms : Members} (h : ms.Sorted) (name : String) (v : Json) :
    Sorted (ms.insert name v) := by
  induction ms with
  | nil => exact List.pairwise_singleton _ _
  | cons n r ih =>
    obtain ⟨other, w⟩ := n
    obtain ⟨hfirst, hrest⟩ := List.pairwise_cons.1 h
    rw [Members.insert]
    split
    · rename_i hlt
      refine List.pairwise_cons.2 ⟨?_, h⟩
      intro m hm
      rcases List.mem_cons.1 hm with rfl | hm
      · exact hlt
      · exact String.lt_trans hlt (hfirst m hm)
    · rename_i hlt
      split
      · rename_i heq
        subst heq
        exact List.pairwise_cons.2 ⟨hfirst, hrest⟩
      · rename_i hne
        refine List.pairwise_cons.2 ⟨?_, ih hrest⟩
        intro m hm
        rcases mem_insert hm with rfl | hm
        · exact Std.lt_of_le_of_ne (String.not_lt.1 hlt) (Ne.symm hne)
        · exact hfirst m hm

theorem sorted_place {ms : Members} (h : ms.Sorted) (more : Members) :
    Sorted (place ms more) := by
  induction more generalizing ms with
  | nil => exact h
  | cons m more ih => exact ih (h.insert m.1 m.2)

theorem of_mem_place {ms more : Members} {m : String × Json} (h : m ∈ place ms more) :
    m ∈ ms ∨ m ∈ more := by
  induction more generalizing ms with
  | nil => exact Or.inl h
  | cons n more ih =>
    rcases ih h with h | h
    · rcases mem_insert h with rfl | h
      · exact Or.inr List.mem_cons_self
      · exact Or.inl h
    · exact Or.inr (List.mem_cons_of_mem n h)

theorem Sorted.distinct {ms : Members} (h : ms.Sorted) : ms.Distinct := by
  apply distinct_of_nodup
  rw [List.Nodup, List.pairwise_map]
  apply h.imp
  intro m n hlt he
  rw [he] at hlt
  exact String.lt_irrefl _ hlt

end HoverServer.Members
