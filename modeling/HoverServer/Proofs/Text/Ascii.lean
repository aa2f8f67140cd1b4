import Mathlib.Data.List.Forall2
import HoverServer.Proofs.Decimal.Digits

/-! Fields of ASCII text: what is left of one without the blanks around it, names that are equal
up to case, and numbers with any zeros in front. Each has a description of its own here, and the
function that computes it meets the description. -/
namespace HoverServer.Bytes

variable {s t : Bytes}

/-! ### Blanks -/

/-- A field, and what is left of it without the blanks at its two ends. -/
structure Trimmed (s t : Bytes) : Prop where
  around : ∃ u v, s = u ++ (t ++ v) ∧ (∀ b ∈ u, isBlank b) ∧ ∀ b ∈ v, isBlank b
  first : ∀ b r, t = b :: r → isBlank b = false
  last : ∀ b r, t = r ++ [b] → isBlank b = false

theorem exists_trimLeft (s : Bytes) : ∃ u, s = u ++ trimLeft s ∧ ∀ b ∈ u, isBlank b := by
  refine ⟨s.takeWhile isBlank, List.takeWhile_append_dropWhile.symm, fun b hb => ?_⟩
  exact List.all_eq_true.1 List.all_takeWhile b hb

theorem trimLeft_first {b : UInt8} {r : Bytes} (h : trimLeft s = b :: r) : isBlank b = false := by
  have hne : s.dropWhile isBlank ≠ [] := by
    rw [trimLeft] at h
    simp [h]
  have hhead := List.head_dropWhile_not isBlank hne
  rw [trimLeft] at h
  simpa [h] using hhead

theorem trimLeft_append (h : ∀ b ∈ s, isBlank b) (t : Bytes) :
    trimLeft (s ++ t) = trimLeft t :=
  List.dropWhile_append_of_pos h

theorem trimLeft_of_first (h : ∀ b r, t = b :: r → isBlank b = false) : trimLeft t = t := by
  cases t with
  | nil => rfl
  | cons b r => simp [trimLeft, h b r rfl]

theorem trimRight_eq (s : Bytes) : trimRight s = (trimLeft s.reverse).reverse := rfl

theorem trim_trimmed (s : Bytes) : Trimmed s (trim s) := by
  obtain ⟨u, hu, hblank⟩ := exists_trimLeft s
  obtain ⟨v, hv, hblank'⟩ := exists_trimLeft (trimLeft s).reverse
  have hleft : trimLeft s = trim s ++ v.reverse := by
    have h := congrArg List.reverse hv
    rwa [List.reverse_reverse, List.reverse_append, ← trimRight_eq] at h
  constructor
  · exact ⟨u, v.reverse, by rw [← hleft, ← hu], hblank, by simpa using hblank'⟩
  · intro b r h
    rw [h] at hleft
    exact trimLeft_first hleft
  · intro b r h
    have hreverse : trimLeft (trimLeft s).reverse = b :: r.reverse := by
      have h' := congrArg List.reverse h
      rwa [trim, trimRight_eq, List.reverse_reverse, List.reverse_concat] at h'
    exact trimLeft_first hreverse

theorem trim_eq_iff : trim s = t ↔ Trimmed s t := by
  constructor
  · rintro rfl
    exact trim_trimmed s
  · rintro ⟨⟨u, v, rfl, hu, hv⟩, hfirst, hlast⟩
    -- Only an empty field leaves the blanks behind it in reach of those in front of it.
    cases t with
    | nil =>
      have hblank : ∀ b ∈ u ++ v, isBlank b := List.forall_mem_append.2 ⟨hu, hv⟩
      have hnil := trimLeft_append hblank []
      rw [List.append_nil] at hnil
      rw [List.nil_append, trim, hnil]
      rfl
    | cons b r =>
      have hleft : trimLeft (u ++ (b :: r ++ v)) = b :: r ++ v := by
        rw [trimLeft_append hu]
        apply trimLeft_of_first
        rintro c q hc
        exact hfirst b r rfl ▸ (List.cons.inj hc).1 ▸ rfl
      have hback : trimLeft (b :: r).reverse = (b :: r).reverse := by
        apply trimLeft_of_first
        intro c q hc
        apply hlast c q.reverse
        have h := congrArg List.reverse hc
        rwa [List.reverse_reverse, List.reverse_cons] at h
      rw [trim, hleft, trimRight_eq, List.reverse_append, trimLeft_append (by simpa using hv),
        hback, List.reverse_reverse]

/-- Nothing is in a trimmed field that was not there before. -/
theorem Trimmed.mem (h : Trimmed s t) {b : UInt8} (hb : b ∈ t) : b ∈ s := by
  obtain ⟨u, v, rfl, _, _⟩ := h.around
  simp [hb]

theorem Trimmed.length_le (h : Trimmed s t) : t.length ≤ s.length := by
  obtain ⟨u, v, rfl, _, _⟩ := h.around
  simp only [List.length_append]
  omega

theorem isBlank_of_isDigit {b : UInt8} (h : isDigit b = true) : isBlank b = false := by
  simp only [isDigit, Bool.and_eq_true, decide_eq_true_eq] at h
  have h13 : ¬ b ≤ 13 := by
    intro hb
    exact absurd (UInt8.le_trans h.1 hb) (by decide)
  have h32 : b ≠ 32 := by
    intro hb
    rw [hb] at h
    exact absurd h.1 (by decide)
  simp [isBlank, h13, h32]

/-! ### Letters -/

/-- The same byte, or the same letter in its two cases. -/
inductive SameLetter : UInt8 → UInt8 → Prop where
  | same (b : UInt8) : SameLetter b b
  | lower {b : UInt8} (first : 65 ≤ b) (last : b ≤ 90) : SameLetter b (b + 32)
  | upper {b : UInt8} (first : 65 ≤ b) (last : b ≤ 90) : SameLetter (b + 32) b

theorem lower_upper {b : UInt8} (hfirst : 65 ≤ b) (hlast : b ≤ 90) : lower b = b + 32 := by
  simp [lower, hfirst, hlast]

theorem lower_shifted {b : UInt8} (hfirst : 65 ≤ b) (hlast : b ≤ 90) :
    lower (b + 32) = b + 32 := by
  have hb : ¬ b + 32 ≤ 90 := by
    simp only [UInt8.le_iff_toNat_le, UInt8.toNat_add, UInt8.reduceToNat] at hfirst hlast ⊢
    omega
  simp [lower, hb]

theorem lower_eq_iff {a b : UInt8} : lower a = lower b ↔ SameLetter a b := by
  constructor
  · intro h
    by_cases ha : 65 ≤ a ∧ a ≤ 90
    · by_cases hb : 65 ≤ b ∧ b ≤ 90
      · rw [lower_upper ha.1 ha.2, lower_upper hb.1 hb.2, UInt8.add_left_inj] at h
        exact h ▸ .same a
      · have hlower : lower b = b := by simpa [lower] using hb
        rw [lower_upper ha.1 ha.2, hlower] at h
        exact h ▸ .lower ha.1 ha.2
    · have hlower : lower a = a := by simpa [lower] using ha
      by_cases hb : 65 ≤ b ∧ b ≤ 90
      · rw [lower_upper hb.1 hb.2, hlower] at h
        exact h ▸ .upper hb.1 hb.2
      · have hlower' : lower b = b := by simpa [lower] using hb
        rw [hlower, hlower'] at h
        exact h ▸ .same a
  · intro h
    cases h with
    | same => rfl
    | lower hfirst hlast => rw [lower_upper hfirst hlast, lower_shifted hfirst hlast]
    | upper hfirst hlast => rw [lower_upper hfirst hlast, lower_shifted hfirst hlast]

theorem sameLetters_iff : sameLetters s t ↔ List.Forall₂ SameLetter s t := by
  rw [sameLetters, beq_iff_eq, ← List.forall₂_eq_eq_eq, List.forall₂_map_left_iff,
    List.forall₂_map_right_iff]
  simp only [lower_eq_iff]

/-! ### Characters -/

theorem toNat_asciiChar {b : UInt8} (h : b < 128) : (Char.ofNat b.toNat).toNat = b.toNat := by
  have hlt : b.toNat < 128 := UInt8.lt_iff_toNat_lt.1 h
  have hvalid : b.toNat.isValidChar := Or.inl (by omega)
  rw [Char.ofNat, dif_pos hvalid]
  rfl

theorem utf8EncodeChar_asciiChar {b : UInt8} (h : b < 128) :
    String.utf8EncodeChar (Char.ofNat b.toNat) = [b] := by
  have hlt : b.toNat < 128 := UInt8.lt_iff_toNat_lt.1 h
  have hv : (Char.ofNat b.toNat).val.toNat = b.toNat := toNat_asciiChar h
  rw [String.utf8EncodeChar]
  simp only [hv, Nat.le_of_lt_succ hlt, if_true]
  rw [UInt8.ofNat_toNat]

/-- The text of some ASCII is written with the same bytes. -/
theorem ofString_asciiText (h : ∀ b ∈ s, b < 128) : ofString (asciiText s) = s := by
  rw [ofString, asciiText, String.toList_ofList]
  induction s with
  | nil => rfl
  | cons b r ih =>
    obtain ⟨hb, hr⟩ := List.forall_mem_cons.1 h
    rw [List.map_cons, List.flatMap_cons, utf8EncodeChar_asciiChar hb, ih hr, List.singleton_append]

/-! ### Numbers -/

/-- The digits of a number, with any zeros in front of them. -/
def Denotes (digits : Bytes) (n : Nat) : Prop :=
  ∃ zeros, digits = List.replicate zeros 48 ++ decimal n

theorem exists_digits (h : ∀ b ∈ s, isDigit b) :
    ∃ cs : List Char, (∀ c ∈ cs, c.isDigit) ∧ cs.map ofDigit = s := by
  induction s with
  | nil => exact ⟨[], by simp, rfl⟩
  | cons b r ih =>
    obtain ⟨hb, hr⟩ := List.forall_mem_cons.1 h
    obtain ⟨cs, hcs, rfl⟩ := ih hr
    simp only [isDigit, Bool.and_eq_true, decide_eq_true_eq] at hb
    have hchar := toNat_asciiChar (UInt8.lt_of_le_of_lt hb.2 (by decide))
    refine ⟨Char.ofNat b.toNat :: cs, List.forall_mem_cons.2 ⟨?_, hcs⟩, ?_⟩
    · rw [Char.isDigit_iff_toNat, hchar]
      exact hb
    · rw [List.map_cons, ofDigit, hchar, UInt8.ofNat_toNat]

theorem decimalValue_zeros (zeros : Nat) (s : Bytes) :
    decimalValue (List.replicate zeros 48 ++ s) = decimalValue s := by
  induction zeros with
  | zero => rfl
  | succ zeros ih => exact ih

theorem denotes_decimalValue (hne : s ≠ []) (h : ∀ b ∈ s, isDigit b) :
    Denotes s (decimalValue s) := by
  induction s with
  | nil => exact absurd rfl hne
  | cons b r ih =>
    by_cases hb : b = 48
    · subst hb
      cases r with
      | nil => exact ⟨0, by decide⟩
      | cons c r =>
        obtain ⟨zeros, hzeros⟩ := ih (List.cons_ne_nil c r) (List.forall_mem_cons.1 h).2
        exact ⟨zeros + 1, congrArg (48 :: ·) hzeros⟩
    · obtain ⟨cs, hcs, hs⟩ := exists_digits h
      obtain ⟨c, cs, rfl⟩ := List.exists_cons_of_ne_nil (l := cs) (by rintro rfl; cases hs)
      have hzero : c ≠ '0' := by
        rintro rfl
        exact hb (List.cons.inj hs).1.symm
      obtain ⟨hc, hcs'⟩ := List.forall_mem_cons.1 hcs
      have hvalue : decimalValue (b :: r) = Nat.ofDigitChars 10 cs (c.toNat - 48) := by
        rw [← hs, decimalValue_digits hcs, Nat.ofDigitChars_cons]
        exact congrArg (Nat.ofDigitChars 10 cs) (Nat.zero_add _)
      refine ⟨0, ?_⟩
      rw [hvalue, decimal_eq, Decimal.toDigits_ofDigitChars hc hzero hcs']
      exact hs.symm

/-- Digits denote one number, and nothing else denotes any. -/
theorem denotes_iff {n : Nat} :
    Denotes s n ↔ s ≠ [] ∧ (∀ b ∈ s, isDigit b) ∧ decimalValue s = n := by
  constructor
  · rintro ⟨zeros, rfl⟩
    refine ⟨by simp [decimal_ne_nil], ?_, ?_⟩
    · intro b hb
      rcases List.mem_append.1 hb with hb | hb
      · rw [List.eq_of_mem_replicate hb]
        rfl
      · exact isDigit_of_mem_decimal hb
    · rw [decimalValue_zeros, decimalValue_decimal]
  · rintro ⟨hne, hdigits, rfl⟩
    exact denotes_decimalValue hne hdigits

end HoverServer.Bytes
