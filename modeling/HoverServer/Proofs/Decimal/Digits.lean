import HoverServer.Bytes

/-! Whole numbers in decimal: the characters that a number is written with, and the same in
bytes. -/
namespace HoverServer
namespace Decimal

theorem isDigit_toDigits {n : Nat} {c : Char} (h : c ∈ Nat.toDigits 10 n) : c.isDigit :=
  Nat.isDigit_of_mem_toDigits (by decide) (by decide) h

theorem ne_of_isDigit {c d : Char} (hc : c.isDigit) (hd : d.isDigit = false) : c ≠ d := by
  intro he
  rw [he, hd] at hc
  cases hc

theorem toDigits_cons (n : Nat) : ∃ c cs, Nat.toDigits 10 n = c :: cs ∧ c.isDigit := by
  obtain ⟨c, cs, hc⟩ := List.exists_cons_of_ne_nil (@Nat.toDigits_ne_nil n 10)
  have hmem : c ∈ Nat.toDigits 10 n := hc ▸ List.mem_cons_self
  exact ⟨c, cs, hc, isDigit_toDigits hmem⟩

/-- Only zero is written with a zero in front. -/
theorem toDigits_front (n : Nat) (hn : 0 < n) : ∃ c cs, Nat.toDigits 10 n = c :: cs ∧ c ≠ '0' := by
  induction n using Nat.strongRecOn with
  | _ n ih =>
    by_cases hlt : n < 10
    · refine ⟨Nat.digitChar n, [], Nat.toDigits_of_lt_base hlt, ?_⟩
      have h : ∀ k < 10, 0 < k → Nat.digitChar k ≠ '0' := by decide
      exact h n hlt hn
    · obtain ⟨c, cs, hc, hne⟩ := ih (n / 10) (by omega) (by omega)
      refine ⟨c, cs ++ [Nat.digitChar (n % 10)], ?_, hne⟩
      rw [Nat.toDigits_of_base_le (by decide) (by omega), hc]
      rfl

theorem toDigits_injective {m n : Nat} (h : Nat.toDigits 10 m = Nat.toDigits 10 n) : m = n := by
  have hm := @Nat.ofDigitChars_ten_toDigits m
  rw [h, Nat.ofDigitChars_ten_toDigits] at hm
  exact hm.symm

theorem eq_of_later_number {more : List Char} {c : Char} (hc : c.isDigit = false) {m n : Nat}
    (h : c :: Nat.toDigits 10 m = more ++ c :: Nat.toDigits 10 n) : more = [] ∧ m = n := by
  cases more with
  | nil =>
    rw [List.nil_append, List.cons.injEq] at h
    exact ⟨rfl, toDigits_injective h.2⟩
  | cons d more =>
    rw [List.cons_append, List.cons.injEq] at h
    have hmem : c ∈ Nat.toDigits 10 m := by simp [h.2]
    exact absurd rfl (ne_of_isDigit (isDigit_toDigits hmem) hc)

/-- A number at the end of a text is told apart from what is in front of it. -/
theorem eq_of_trailing_number {front front' : List Char} {c : Char} (hc : c.isDigit = false)
    {m n : Nat} (h : front ++ c :: Nat.toDigits 10 m = front' ++ c :: Nat.toDigits 10 n) :
    front = front' ∧ m = n := by
  rcases List.append_eq_append_iff.1 h with ⟨more, hfront, hrest⟩ | ⟨more, hfront, hrest⟩
  · obtain ⟨rfl, hmn⟩ := eq_of_later_number hc hrest
    exact ⟨by rw [hfront, List.append_nil], hmn⟩
  · obtain ⟨rfl, hnm⟩ := eq_of_later_number hc hrest
    exact ⟨by rw [hfront, List.append_nil], hnm.symm⟩

theorem le_ofDigitChars (cs : List Char) (n : Nat) : n ≤ Nat.ofDigitChars 10 cs n := by
  induction cs generalizing n with
  | nil => exact Nat.le_refl n
  | cons c cs ih =>
    rw [Nat.ofDigitChars_cons]
    exact Nat.le_trans (by omega) (ih _)

theorem bounds_of_isDigit {c : Char} (h : c.isDigit) : 48 ≤ c.toNat ∧ c.toNat ≤ 57 :=
  Char.isDigit_iff_toNat.1 h

theorem digitChar_of_isDigit {c : Char} (h : c.isDigit) : Nat.digitChar (c.toNat - 48) = c := by
  obtain ⟨hlow, hhigh⟩ := bounds_of_isDigit h
  apply Char.toNat_inj.1
  have hlt : c.toNat - 48 < 10 := by omega
  have hvalue := Nat.toNat_digitChar_sub_48_of_lt_ten hlt
  have hdigit : 48 ≤ (Nat.digitChar (c.toNat - 48)).toNat := by
    have h : ∀ k < 10, 48 ≤ (Nat.digitChar k).toNat := by decide
    exact h _ hlt
  omega

/-- More digits behind a number that is not zero. -/
theorem toDigits_append {cs : List Char} (hcs : ∀ c ∈ cs, c.isDigit) {n : Nat} (hn : 0 < n) :
    Nat.toDigits 10 (Nat.ofDigitChars 10 cs n) = Nat.toDigits 10 n ++ cs := by
  induction cs generalizing n with
  | nil => exact (List.append_nil _).symm
  | cons c cs ih =>
    obtain ⟨hc, hcs⟩ := List.forall_mem_cons.1 hcs
    have hlt : c.toNat - 48 < 10 := by
      have := (bounds_of_isDigit hc).2
      omega
    have hdiv : (10 * n + (c.toNat - 48)) / 10 = n := by omega
    have hmod : (10 * n + (c.toNat - 48)) % 10 = c.toNat - 48 := by omega
    rw [Nat.ofDigitChars_cons, ih hcs (by omega)]
    show Nat.toDigits 10 (10 * n + (c.toNat - 48)) ++ cs = _
    rw [Nat.toDigits_of_base_le (by decide) (by omega), hdiv, hmod, digitChar_of_isDigit hc,
      List.append_assoc, List.singleton_append]

/-- Digits that do not begin with a zero are those of their number. -/
theorem toDigits_ofDigitChars {c : Char} (hc : c.isDigit) (hzero : c ≠ '0') {cs : List Char}
    (hcs : ∀ d ∈ cs, d.isDigit) :
    Nat.toDigits 10 (Nat.ofDigitChars 10 cs (c.toNat - 48)) = c :: cs := by
  obtain ⟨hlow, hhigh⟩ := bounds_of_isDigit hc
  have hpos : 0 < c.toNat - 48 := by
    have hne : c.toNat ≠ 48 := fun h => hzero (Char.toNat_inj.1 h)
    omega
  have hlt : c.toNat - 48 < 10 := by omega
  rw [toDigits_append hcs hpos, Nat.toDigits_of_lt_base hlt, digitChar_of_isDigit hc,
    List.singleton_append]

end Decimal

namespace Bytes

/-- The byte of a digit. -/
def ofDigit (c : Char) : UInt8 := UInt8.ofNat c.toNat

theorem utf8EncodeChar_digit {c : Char} (h : c.isDigit) : String.utf8EncodeChar c = [ofDigit c] := by
  have hle : c.toNat ≤ 57 := (Char.isDigit_iff_toNat.1 h).2
  have hv : c.val.toNat ≤ 127 := Nat.le_trans hle (by decide)
  rw [String.utf8EncodeChar]
  simp only [hv, if_true]
  rfl

theorem toNat_ofDigit {c : Char} (h : c.isDigit) : (ofDigit c).toNat = c.toNat := by
  have hle : c.toNat ≤ 57 := (Char.isDigit_iff_toNat.1 h).2
  rw [ofDigit, UInt8.toNat_ofNat', Nat.mod_eq_of_lt (by omega)]

theorem isDigit_ofDigit {c : Char} (h : c.isDigit) : isDigit (ofDigit c) = true := by
  have hc := Char.isDigit_iff_toNat.1 h
  simp only [isDigit, Bool.and_eq_true, decide_eq_true_eq, UInt8.le_iff_toNat_le, toNat_ofDigit h]
  exact hc

theorem ofString_digits {cs : List Char} (h : ∀ c ∈ cs, c.isDigit) :
    ofString (String.ofList cs) = cs.map ofDigit := by
  rw [ofString, String.toList_ofList]
  induction cs with
  | nil => rfl
  | cons c cs ih =>
    rw [List.flatMap_cons, utf8EncodeChar_digit (h c (by simp)),
      ih fun d hd => h d (List.mem_cons_of_mem c hd)]
    rfl

theorem decimal_eq (n : Nat) : decimal n = (Nat.toDigits 10 n).map ofDigit := by
  rw [decimal, Nat.toString_eq_ofList_toDigits]
  exact ofString_digits fun c hc => Decimal.isDigit_toDigits hc

theorem decimal_ne_nil (n : Nat) : decimal n ≠ [] := by
  simp [decimal_eq, Nat.toDigits_ne_nil]

theorem isDigit_of_mem_decimal {n : Nat} {b : UInt8} (h : b ∈ decimal n) : isDigit b = true := by
  rw [decimal_eq] at h
  obtain ⟨c, hc, rfl⟩ := List.mem_map.1 h
  exact isDigit_ofDigit (Decimal.isDigit_toDigits hc)

theorem decimalValue_digits {cs : List Char} (h : ∀ c ∈ cs, c.isDigit) :
    decimalValue (cs.map ofDigit) = Nat.ofDigitChars 10 cs 0 := by
  rw [decimalValue]
  generalize 0 = m
  induction cs generalizing m with
  | nil => simp
  | cons c cs ih =>
    rw [List.map_cons, List.foldl_cons, ih fun d hd => h d (List.mem_cons_of_mem c hd),
      toNat_ofDigit (h c (by simp)), Nat.ofDigitChars_cons]
    rfl

/-- A number is read back from its digits. -/
theorem decimalValue_decimal (n : Nat) : decimalValue (decimal n) = n := by
  rw [decimal_eq, decimalValue_digits fun c hc => Decimal.isDigit_toDigits hc]
  exact Nat.ofDigitChars_ten_toDigits

end Bytes
end HoverServer
