import HoverServer.Json.Printer
import HoverServer.Json.Reader
import HoverServer.Proofs.Decimal.Digits

/-! Strings and whole numbers are read back as they were written, whatever text follows them. -/
namespace HoverServer.Json.Reader

/-! ### Strings -/

theorem hexDigit_spec (n : Nat) :
    hexValue? (hexDigit n) = some (n % 16) ∧ (hexDigit n).utf8Size = 1 := by
  have h : ∀ k < 16,
      hexValue? (Nat.digitChar k) = some k ∧ (Nat.digitChar k).utf8Size = 1 := by decide
  exact h (n % 16) (Nat.mod_lt n (by decide))

theorem hexQuad_hexDigit (a b : Nat) (r : List Char) :
    hexQuad ('0' :: '0' :: hexDigit a :: hexDigit b :: r) = .ok (16 * (a % 16) + b % 16, r) := by
  have hzero : hexValue? '0' = some 0 ∧ '0'.utf8Size = 1 := by decide
  have hcount : byteCount ['0', '0', hexDigit a, hexDigit b] = 4 := by
    simp only [byteCount, List.foldl_cons, List.foldl_nil, hzero.2, (hexDigit_spec a).2,
      (hexDigit_spec b).2]
  rw [hexQuad]
  simp only [List.take_succ_cons, List.take_zero, hcount, Nat.lt_irrefl, if_false, hzero.1,
    (hexDigit_spec a).1, (hexDigit_spec b).1]
  congr 2
  omega

/-- A control character without a short escape. -/
theorem escapeSequence_control {c : Char} (h : c.toNat < 32) (r : List Char) :
    escapeSequence ('u' :: '0' :: '0' :: hexDigit (c.toNat / 16) :: hexDigit c.toNat :: r) =
      .ok (c, r) := by
  have hvalue : 16 * (c.toNat / 16 % 16) + c.toNat % 16 = c.toNat := by omega
  have hname : namedEscape? 'u' = none := by decide
  have htrailing : isTrailing c.toNat = false := by simp [isTrailing]; omega
  have hleading : isLeading c.toNat = false := by simp [isLeading]; omega
  rw [escapeSequence, hname]
  simp only [if_true, unicodeEscape, hexQuad_hexDigit, hvalue, htrailing, hleading,
    Bool.false_eq_true, if_false, Char.ofNat_toNat]

/-- How a character is written: by a letter of its own, by its number, or as it is. -/
theorem escape_cases (c : Char) :
    (∃ d, namedEscape? d = some c ∧ escape c = ['\\', d]) ∨
      (c.toNat < 32 ∧
        escape c = ['\\', 'u', '0', '0', hexDigit (c.toNat / 16), hexDigit c.toNat]) ∨
      (c ≠ '"' ∧ c ≠ '\\' ∧ ¬ c.toNat < 32 ∧ escape c = [c]) := by
  have hnamed {d e : Char} (hc : c = e) (he : escape e = ['\\', d])
      (h : namedEscape? d = some e) : ∃ d, namedEscape? d = some c ∧ escape c = ['\\', d] :=
    ⟨d, hc ▸ h, hc ▸ he⟩
  by_cases hquote : c = '"'
  · exact Or.inl (hnamed hquote rfl rfl)
  by_cases hback : c = '\\'
  · exact Or.inl (hnamed hback rfl rfl)
  by_cases hcontrol : c.toNat < 32
  · by_cases hn : c = '\n'
    · exact Or.inl (hnamed hn rfl rfl)
    by_cases hr : c = '\r'
    · exact Or.inl (hnamed hr rfl rfl)
    by_cases ht : c = '\t'
    · exact Or.inl (hnamed ht rfl rfl)
    by_cases hb : c.toNat = 8
    · exact Or.inl (hnamed (Char.toNat_inj.1 hb : c = '\x08') rfl rfl)
    by_cases hf : c.toNat = 12
    · exact Or.inl (hnamed (Char.toNat_inj.1 hf : c = '\x0c') rfl rfl)
    · refine Or.inr (Or.inl ⟨hcontrol, ?_⟩)
      rw [escape, if_neg hquote, if_neg hback, if_pos hcontrol, if_neg hn, if_neg hr, if_neg ht,
        if_neg hb, if_neg hf]
  · refine Or.inr (Or.inr ⟨hquote, hback, hcontrol, ?_⟩)
    rw [escape, if_neg hquote, if_neg hback, if_neg hcontrol]

theorem stringRest_backslash {s r : List Char} {c : Char} (h : escapeSequence s = .ok (c, r))
    (read : List Char) : stringRest read ('\\' :: s) = stringRest (c :: read) r := by
  rw [stringRest, if_neg (by decide), if_pos rfl]
  split
  · rename_i he
    rw [h] at he
    cases he
  · rename_i he
    rw [h] at he
    cases he
    rfl

theorem stringRest_escape (c : Char) (read r : List Char) :
    stringRest read (escape c ++ r) = stringRest (c :: read) r := by
  rcases escape_cases c with ⟨d, hd, he⟩ | ⟨hc, he⟩ | ⟨hquote, hback, hc, he⟩
  · rw [he]
    apply stringRest_backslash
    show escapeSequence (d :: r) = _
    rw [escapeSequence, hd]
  · rw [he]
    exact stringRest_backslash (escapeSequence_control hc r) read
  · rw [he, List.singleton_append, stringRest, if_neg hquote, if_neg hback, if_neg hc]

/-- The rest of a written string, from behind its opening quote. -/
theorem stringRest_stringChars (s : String) (r : List Char) :
    stringRest [] (s.toList.flatMap escape ++ '"' :: r) = .ok (s, r) := by
  have h (cs read : List Char) : stringRest read (cs.flatMap escape ++ '"' :: r) =
      .ok (String.ofList (read.reverse ++ cs), r) := by
    induction cs generalizing read with
    | nil =>
      rw [List.flatMap_nil, List.nil_append, stringRest, if_pos rfl, List.append_nil]
    | cons c cs ih =>
      rw [List.flatMap_cons, List.append_assoc, stringRest_escape, ih, List.reverse_cons,
        List.append_assoc]
      rfl
  rw [h, List.reverse_nil, List.nil_append, String.ofList_toList]

/-! ### Whole numbers -/

/-- A number could go on with these characters. -/
def continuesNumber : List Char → Bool
  | [] => false
  | c :: _ => c.isDigit || c = '.' || isExponentMark c

theorem startsWithDigit_of_ends {r : List Char} (h : continuesNumber r = false) :
    startsWithDigit r = false := by
  cases r with
  | nil => rfl
  | cons c r =>
    simp only [continuesNumber, Bool.or_eq_false_iff] at h
    exact h.1.1

theorem afterInteger_of_ends {r : List Char} (h : continuesNumber r = false) (negative : Bool)
    (n : Nat) : afterInteger negative n r = integerEnd negative n r := by
  cases r with
  | nil => rfl
  | cons c r =>
    simp only [continuesNumber, Bool.or_eq_false_iff, decide_eq_false_iff_not] at h
    rw [afterInteger, if_neg h.1.2, if_neg (by simp [h.2])]

/-- Digits are gathered as long as their number is one of 64 bits. -/
theorem gather_digits {cs : List Char} (hcs : ∀ c ∈ cs, c.isDigit) {n : Nat}
    (hn : Nat.ofDigitChars 10 cs n < 0x10000000000000000) {r : List Char}
    (hr : startsWithDigit r = false) :
    gather n (cs ++ r) = (Nat.ofDigitChars 10 cs n, r) := by
  induction cs generalizing n with
  | nil =>
    cases r with
    | nil => rfl
    | cons c r =>
      have hc : c.isDigit = false := hr
      rw [List.nil_append, gather, hc]
      rfl
  | cons c cs ih =>
    rw [Nat.ofDigitChars_cons] at hn ⊢
    have hlt : 10 * n + digitValue c < 0x10000000000000000 :=
      Nat.lt_of_le_of_lt (Decimal.le_ofDigitChars cs _) hn
    have hfits : (c.isDigit && decide (10 * n + digitValue c < 0x10000000000000000)) = true := by
      rw [hcs c (by simp), decide_eq_true hlt]
      rfl
    rw [List.cons_append, gather, if_pos hfits]
    exact ih (fun d hd => hcs d (List.mem_cons_of_mem c hd)) hn

theorem number_toDigits {n : Nat} (hn : n < 0x10000000000000000) (negative : Bool) {r : List Char}
    (hr : continuesNumber r = false) :
    number negative (Nat.toDigits 10 n ++ r) = integerEnd negative n r := by
  have hd : ∀ c ∈ Nat.toDigits 10 n, c.isDigit := fun c hc => Decimal.isDigit_toDigits hc
  have hs := startsWithDigit_of_ends hr
  by_cases hzero : n = 0
  · subst hzero
    have h0 : Nat.toDigits 10 0 = ['0'] := by decide
    rw [h0, List.singleton_append, number, if_pos rfl, hs]
    exact afterInteger_of_ends hr negative 0
  · obtain ⟨c, cs, hc, hne⟩ := Decimal.toDigits_front n (by omega)
    have hvalue : Nat.ofDigitChars 10 cs (digitValue c) = n := by
      have h := @Nat.ofDigitChars_ten_toDigits n
      rw [hc, Nat.ofDigitChars_cons] at h
      simpa [digitValue] using h
    rw [hc] at hd ⊢
    have hgather := gather_digits (fun d h => hd d (List.mem_cons_of_mem c h)) (hvalue ▸ hn) hs
    rw [List.cons_append, number, if_neg hne, if_pos (hd c (by simp)), hgather, hvalue]
    simp only [hs, Bool.false_eq_true, if_false]
    exact afterInteger_of_ends hr negative n

/-- A whole number behind its sign. -/
theorem number_natAbs (w : Whole) {r : List Char} (hr : continuesNumber r = false) :
    number (decide (w.value < 0)) (Nat.toDigits 10 w.value.natAbs ++ r) =
      .ok (.whole w, r) := by
  have hlower := w.lower
  have hupper := w.upper
  have habs : (if decide (w.value < 0) = true then -(w.value.natAbs : Int) else w.value.natAbs) =
      w.value := by
    by_cases hneg : w.value < 0
    · rw [if_pos (decide_eq_true hneg)]
      omega
    · rw [if_neg (by rw [decide_eq_false hneg]; decide)]
      omega
  have hwhole : Whole.ofInt? w.value = some w := by
    rw [Whole.ofInt?, dif_pos ⟨hlower, hupper⟩]
  have hsign : (decide (w.value < 0) && w.value.natAbs == 0) = false := by
    rw [Bool.and_eq_false_iff, decide_eq_false_iff_not, beq_eq_false_iff_ne]
    omega
  rw [number_toDigits (by omega) _ hr, integerEnd, hsign, habs, hwhole]
  rfl

end HoverServer.Json.Reader
