import HoverServer.Frame.Decoder

/-! The first terminator of some bytes. A scan that resumes three bytes before the part it knows
to be free of terminators finds the same one as a scan from the front. -/
namespace HoverServer.Frame

@[simp] theorem terminator_length : terminator.length = 4 := rfl

/-- What stands before the first terminator, and what stands after it. -/
def cut : Bytes → Option (Bytes × Bytes)
  | [] => none
  | b :: r =>
    if terminator <+: b :: r then some ([], r.drop 3)
    else (cut r).map fun (header, after) => (b :: header, after)

theorem cut_front {s : Bytes} (h : terminator <+: s) : cut s = some ([], s.drop 4) := by
  cases s with
  | nil => simp [terminator] at h
  | cons b r => simp [cut, h]

theorem cut_cons {b : UInt8} {r : Bytes} (h : ¬ terminator <+: b :: r) :
    cut (b :: r) = (cut r).map fun (header, after) => (b :: header, after) := by
  simp [cut, h]

/-- A terminator is found at once, or else behind the first byte. -/
theorem cut_cons_cases {b : UInt8} {r header after : Bytes}
    (h : cut (b :: r) = some (header, after)) :
    (header = [] ∧ b :: r = terminator ++ after) ∨
      (¬ terminator <+: b :: r ∧ ∃ more, header = b :: more ∧ cut r = some (more, after)) := by
  by_cases hp : terminator <+: b :: r
  · obtain ⟨t, ht⟩ := hp
    rw [cut_front ⟨t, ht⟩, ← ht] at h
    simp only [Option.some.injEq, Prod.mk.injEq] at h
    exact Or.inl ⟨h.1.symm, by rw [← ht, ← h.2]; rfl⟩
  · rw [cut_cons hp] at h
    obtain ⟨⟨more, after'⟩, hc, he⟩ := Option.map_eq_some_iff.1 h
    simp only [Prod.mk.injEq] at he
    exact Or.inr ⟨hp, more, he.1.symm, he.2 ▸ hc⟩

theorem eq_of_cut {s header after : Bytes} (h : cut s = some (header, after)) :
    s = header ++ (terminator ++ after) := by
  induction s generalizing header with
  | nil => simp [cut] at h
  | cons b r ih =>
    obtain ⟨rfl, hs⟩ | ⟨_, more, rfl, hc⟩ := cut_cons_cases h
    · exact hs
    · rw [List.cons_append, ← ih hc]

theorem length_of_cut {s header after : Bytes} (h : cut s = some (header, after)) :
    s.length = header.length + 4 + after.length := by
  rw [eq_of_cut h]
  simp
  omega

theorem cut_eq_none_iff {s : Bytes} : cut s = none ↔ ¬ terminator <:+: s := by
  induction s with
  | nil => simp [cut, terminator]
  | cons b r ih =>
    by_cases hp : terminator <+: b :: r
    · simp [cut_front hp, hp.isInfix]
    · rw [cut_cons hp, Option.map_eq_none_iff, ih, List.infix_cons_iff]
      simp [hp]

/-- A header block is cut off in the same place whatever follows its terminator. -/
theorem cut_header {s header after : Bytes} (h : cut s = some (header, after)) (t : Bytes) :
    cut (header ++ (terminator ++ t)) = some (header, t) := by
  induction s generalizing header with
  | nil => simp [cut] at h
  | cons b r ih =>
    obtain ⟨rfl, _⟩ | ⟨hp, more, rfl, hc⟩ := cut_cons_cases h
    · exact cut_front (List.prefix_append _ _)
    · have hs : b :: (more ++ terminator) <+: b :: r := ⟨after, by rw [eq_of_cut hc]; simp⟩
      have ht : b :: (more ++ terminator) <+: b :: (more ++ (terminator ++ t)) := ⟨t, by simp⟩
      have hn : ¬ terminator <+: b :: (more ++ (terminator ++ t)) := by
        intro hp'
        apply hp
        exact (List.prefix_of_prefix_length_le hp' ht (by simp)).trans hs
      rw [List.cons_append, cut_cons hn, ih hc]
      rfl

/-- Later bytes do not move the first terminator. -/
theorem cut_append {s header after : Bytes} (h : cut s = some (header, after)) (t : Bytes) :
    cut (s ++ t) = some (header, after ++ t) := by
  have ht := cut_header h (after ++ t)
  rwa [← List.append_assoc, ← List.append_assoc, List.append_assoc header, ← eq_of_cut h] at ht

/-- A terminator that later bytes complete ends among them. -/
theorem length_lt_of_cut_append {s t header after : Bytes} (hs : cut s = none)
    (ht : cut (s ++ t) = some (header, after)) : s.length < header.length + 4 := by
  rcases Nat.lt_or_ge s.length (header.length + 4) with hlt | hge
  · exact hlt
  · have hp : header ++ terminator <+: s ++ t :=
      ⟨after, by rw [eq_of_cut ht, List.append_assoc]⟩
    have hp' : header ++ terminator <+: s :=
      List.prefix_of_prefix_length_le hp (List.prefix_append _ _) (by simpa using hge)
    exact absurd ((List.suffix_append _ _).isInfix.trans hp'.isInfix) (cut_eq_none_iff.1 hs)

theorem cut_take_of_none {s : Bytes} (h : cut s = none) (n : Nat) : cut (s.take n) = none := by
  rw [cut_eq_none_iff] at h ⊢
  intro hi
  exact h (hi.trans (List.take_prefix n s).isInfix)

/-- A part without terminators may be skipped but for its last three bytes. -/
theorem cut_skip {u v : Bytes} (h : cut (u ++ v.take 3) = none) :
    cut (u ++ v) = (cut v).map fun (header, after) => (u ++ header, after) := by
  induction u with
  | nil => simp
  | cons b u ih =>
    have hn : ¬ terminator <+: b :: (u ++ v) := by
      intro hp
      have hs : b :: (u ++ v.take 3) <+: b :: (u ++ v) :=
        ⟨v.drop 3, by rw [List.cons_append, List.append_assoc, List.take_append_drop]⟩
      apply cut_eq_none_iff.1 h
      by_cases hv : 3 ≤ v.length
      · exact (List.prefix_of_prefix_length_le hp hs (by simp; omega)).isInfix
      · rw [List.take_of_length_le (by omega)]
        exact hp.isInfix
    have hu : cut (u ++ v.take 3) = none := by
      rw [cut_eq_none_iff] at h ⊢
      intro hi
      exact h (hi.trans (List.suffix_cons b _).isInfix)
    rw [List.cons_append, cut_cons hn, ih hu, Option.map_map]
    rfl

namespace Decoder

theorem terminatorFrom_eq (place : Nat) (s : Bytes) :
    terminatorFrom place s = (cut s).map fun (header, _) => place + header.length := by
  induction s generalizing place with
  | nil => rfl
  | cons b r ih =>
    rw [terminatorFrom]
    by_cases hp : terminator <+: b :: r
    · rw [if_pos (List.isPrefixOf_iff_prefix.2 hp), cut_front hp]
      rfl
    · rw [if_neg (mt List.isPrefixOf_iff_prefix.1 hp), cut_cons hp, ih, Option.map_map]
      congr 1
      funext p
      simp
      omega

/-- What a decoder knows of its buffer: no terminator lies in the part it has scanned. -/
structure Scanned (d : Decoder) : Prop where
  within : d.scanned ≤ d.buffer.length
  free : cut (d.buffer.take d.scanned) = none

theorem Scanned.fresh (buffer : Bytes) : Scanned ⟨buffer, 0⟩ where
  within := Nat.zero_le _
  free := rfl

theorem Scanned.whole {buffer : Bytes} (h : cut buffer = none) : Scanned ⟨buffer, buffer.length⟩ where
  within := Nat.le_refl _
  free := cut_take_of_none h _

theorem Scanned.append {d : Decoder} (h : d.Scanned) (chunk : Bytes) :
    Scanned ⟨d.buffer ++ chunk, d.scanned⟩ where
  within := by
    have := h.within
    simp only [List.length_append]
    omega
  free := by
    rw [List.take_append_of_le_length h.within]
    exact h.free

/-- The resumed search finds the first terminator of the whole buffer. -/
theorem Scanned.findTerminator {d : Decoder} (h : d.Scanned) :
    d.findTerminator = (cut d.buffer).map fun (header, _) => header.length := by
  have hr : d.resume = d.scanned - 3 := by
    have := h.within
    rw [resume]
    omega
  have hfree : cut (d.buffer.take d.resume ++ (d.buffer.drop d.resume).take 3) = none := by
    rw [← List.take_add, hr]
    by_cases hs : 3 ≤ d.scanned
    · rw [Nat.sub_add_cancel hs]
      exact h.free
    · rw [cut_eq_none_iff]
      intro hi
      have := hi.length_le
      simp at this
      omega
  have hskip := cut_skip hfree
  rw [List.take_append_drop] at hskip
  have hlen : d.resume ≤ d.buffer.length := Nat.min_le_right _ _
  rw [Decoder.findTerminator, terminatorFrom_eq, hskip, Option.map_map]
  congr 1
  funext p
  simp [hlen]

end Decoder
end HoverServer.Frame
