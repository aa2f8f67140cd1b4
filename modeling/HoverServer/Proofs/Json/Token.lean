import HoverServer.Proofs.Json.Scalar

/-! What the readers of words, numbers and strings leave of a text: an end of it. A number that is
read as a whole one was written with its own digits, since there is no other way to write it. -/
namespace HoverServer.Json.Reader

theorem word_eq {es s r : List Char} (h : word es s = .ok r) : s = es ++ r := by
  induction es generalizing s with
  | nil => exact Except.ok.inj h
  | cons e es ih =>
    cases s with
    | nil => cases h
    | cons c s =>
      rw [word] at h
      split at h
      · rename_i hc
        rw [hc, ih h, List.cons_append]
      · cases h

/-! ### Numbers -/

theorem skipDigits_suffix (s : List Char) : skipDigits s <:+ s := List.dropWhile_suffix _

theorem gather_split {n m : Nat} {s r : List Char} (h : gather n s = (m, r)) :
    ∃ cs, s = cs ++ r ∧ (∀ c ∈ cs, c.isDigit) ∧ m = Nat.ofDigitChars 10 cs n := by
  induction s generalizing n with
  | nil =>
    cases h
    exact ⟨[], rfl, by simp, rfl⟩
  | cons c s ih =>
    rw [gather] at h
    split at h
    · rename_i hc
      obtain ⟨cs, hs, hcs, hm⟩ := ih h
      have hdigit : c.isDigit := (Bool.and_eq_true_iff.1 hc).1
      refine ⟨c :: cs, by rw [hs, List.cons_append], List.forall_mem_cons.2 ⟨hdigit, hcs⟩, ?_⟩
      rw [hm, Nat.ofDigitChars_cons]
      rfl
    · cases h
      exact ⟨[], rfl, by simp, rfl⟩

theorem gather_suffix (n : Nat) (s : List Char) : (gather n s).2 <:+ s := by
  obtain ⟨cs, hs, _⟩ := gather_split (rfl : gather n s = ((gather n s).1, (gather n s).2))
  exact ⟨cs, hs.symm⟩

/-- Nothing but a double is read, and an end of the text is left. -/
def GivesReal (s : List Char) (got : Reading Number) : Prop :=
  ∀ n r, got = .ok (n, r) → (∃ x, n = .real x) ∧ r <:+ s

theorem GivesReal.of_suffix {s t : List Char} {got : Reading Number} (h : GivesReal s got)
    (hs : s <:+ t) : GivesReal t got :=
  fun n r hgot => ⟨(h n r hgot).1, (h n r hgot).2.trans hs⟩

theorem GivesReal.cons {s : List Char} {got : Reading Number} (h : GivesReal s got) (c : Char) :
    GivesReal (c :: s) got :=
  h.of_suffix (List.suffix_cons c s)

theorem givesReal_error (s : List Char) (stop : Stop) : GivesReal s (.error stop) :=
  fun _ _ h => nomatch h

theorem givesReal_ok (s : List Char) (x : Float) {r : List Char} (h : r <:+ s) :
    GivesReal s (.ok (.real x, r)) := by
  intro n t hgot
  cases hgot
  exact ⟨⟨x, rfl⟩, h⟩

theorem finish_givesReal (negative : Bool) (n : Nat) (exponent : Int) (r : List Char) :
    GivesReal r (finish negative n exponent r) := by
  rw [finish]
  split
  · exact givesReal_ok r _ List.suffix_rfl
  · exact givesReal_error r _

theorem exponentDigits_givesReal (negative zero up : Bool) (n : Nat) (base : Int) (e : Nat)
    (s : List Char) : GivesReal s (exponentDigits negative zero up n base e s) := by
  induction s generalizing e with
  | nil => exact finish_givesReal negative n _ []
  | cons c s ih =>
    rw [exponentDigits]
    split
    · split
      · exact (ih _).cons c
      · split
        · exact givesReal_error _ _
        · exact givesReal_ok _ _ ((skipDigits_suffix s).trans (List.suffix_cons c s))
    · exact finish_givesReal negative n _ (c :: s)

theorem exponentValue_givesReal (negative up : Bool) (n : Nat) (base : Int) (s : List Char) :
    GivesReal s (exponentValue negative up n base s) := by
  cases s with
  | nil => exact givesReal_error _ _
  | cons c s =>
    rw [exponentValue]
    split
    · exact (exponentDigits_givesReal negative _ up n base _ s).cons c
    · exact givesReal_error _ _

theorem exponentPart_givesReal (negative : Bool) (n : Nat) (base : Int) (s : List Char) :
    GivesReal s (exponentPart negative n base s) := by
  cases s with
  | nil => exact givesReal_error _ _
  | cons c s =>
    rw [exponentPart]
    split
    · exact (exponentValue_givesReal negative true n base s).cons c
    · split
      · exact (exponentValue_givesReal negative false n base s).cons c
      · exact exponentValue_givesReal negative true n base (c :: s)

theorem exponentOrEnd_givesReal (negative : Bool) (n : Nat) (base : Int) (s : List Char) :
    GivesReal s (exponentOrEnd negative n base s) := by
  cases s with
  | nil => exact finish_givesReal negative n base []
  | cons c s =>
    rw [exponentOrEnd]
    split
    · exact (exponentPart_givesReal negative n base s).cons c
    · exact finish_givesReal negative n base (c :: s)

theorem fractionPart_givesReal (negative : Bool) (n : Nat) (base : Int) (s : List Char) :
    GivesReal s (fractionPart negative n base s) := by
  unfold fractionPart
  split
  · exact (exponentOrEnd_givesReal negative _ _ _).of_suffix
      ((skipDigits_suffix _).trans (gather_suffix n s))
  · split <;> exact givesReal_error _ _

theorem longInteger_givesReal (negative : Bool) (n : Nat) (s : List Char) :
    GivesReal s (longInteger negative n s) := by
  have hrest := skipDigits_suffix s
  rw [longInteger]
  generalize skipDigits s = rest at hrest
  cases rest with
  | nil => exact (finish_givesReal negative n _ []).of_suffix hrest
  | cons c r =>
    simp only
    split
    · exact ((fractionPart_givesReal negative n _ r).cons c).of_suffix hrest
    · exact (exponentOrEnd_givesReal negative n _ (c :: r)).of_suffix hrest

/-- What a number can be that was read from a text and left the rest of it. -/
inductive NumberRead (negative : Bool) (s : List Char) : Number → List Char → Prop where
  | real (x : Float) {r : List Char} (left : r <:+ s) : NumberRead negative s (.real x) r
  | whole (w : Whole) {r : List Char} (sign : negative = decide (w.value < 0))
      (digits : s = Nat.toDigits 10 w.value.natAbs ++ r) : NumberRead negative s (.whole w) r

theorem GivesReal.numberRead {negative : Bool} {s r : List Char} {got : Reading Number}
    {n : Number} (h : GivesReal s got) (hgot : got = .ok (n, r)) : NumberRead negative s n r := by
  obtain ⟨⟨x, rfl⟩, hr⟩ := h n r hgot
  exact .real x hr

theorem value_of_ofInt? {n : Int} {w : Whole} (h : Whole.ofInt? n = some w) : w.value = n := by
  unfold Whole.ofInt? at h
  split at h
  · rw [← Option.some.inj h]
  · cases h

theorem integerEnd_read {negative : Bool} {k : Nat} {s t r : List Char} {n : Number}
    (hs : s = Nat.toDigits 10 k ++ t) (h : integerEnd negative k t = .ok (n, r)) :
    NumberRead negative s n r := by
  have ht : t <:+ s := ⟨_, hs.symm⟩
  rw [integerEnd] at h
  split at h
  · cases h
    exact .real _ ht
  · rename_i hzero
    split at h
    · rename_i w hw
      have hvalue := value_of_ofInt? hw
      simp only [Bool.and_eq_true, beq_iff_eq, not_and] at hzero
      cases h
      have habs : w.value.natAbs = k := by
        rw [hvalue]
        split <;> omega
      refine .whole w ?_ (by rw [habs, hs])
      -- A zero behind a minus sign is a double, so the sign of a whole number says all.
      cases negative with
      | false =>
        symm
        rw [decide_eq_false_iff_not, hvalue, if_neg (by decide)]
        omega
      | true =>
        have hk : k ≠ 0 := hzero rfl
        symm
        rw [decide_eq_true_eq, hvalue, if_pos rfl]
        omega
    · cases h
      exact .real _ ht

theorem afterInteger_read {negative : Bool} {k : Nat} {s t r : List Char} {n : Number}
    (hs : s = Nat.toDigits 10 k ++ t) (h : afterInteger negative k t = .ok (n, r)) :
    NumberRead negative s n r := by
  have ht : t <:+ s := ⟨_, hs.symm⟩
  cases t with
  | nil => exact integerEnd_read hs h
  | cons c t =>
    rw [afterInteger] at h
    split at h
    · exact (((fractionPart_givesReal negative k 0 t).cons c).of_suffix ht).numberRead h
    · split at h
      · exact (((exponentPart_givesReal negative k 0 t).cons c).of_suffix ht).numberRead h
      · exact integerEnd_read hs h

theorem number_read {negative : Bool} {s r : List Char} {n : Number}
    (h : number negative s = .ok (n, r)) : NumberRead negative s n r := by
  cases s with
  | nil => cases h
  | cons c s =>
    rw [number] at h
    split at h
    · rename_i hc
      split at h
      · cases h
      · exact afterInteger_read (by rw [hc]; rfl) h
    · rename_i hzero
      split at h
      · rename_i hc
        obtain ⟨cs, hs, hcs, hm⟩ :=
          gather_split (rfl : gather (digitValue c) s =
            ((gather (digitValue c) s).1, (gather (digitValue c) s).2))
        generalize gather (digitValue c) s = gathered at h hs hm
        obtain ⟨m, rest⟩ := gathered
        simp only at h hs hm
        split at h
        · have hrest : rest <:+ c :: s := ⟨c :: cs, by rw [hs, List.cons_append]⟩
          exact ((longInteger_givesReal negative m rest).of_suffix hrest).numberRead h
        · refine afterInteger_read ?_ h
          have hdigits := Decimal.toDigits_ofDigitChars hc hzero hcs
          rw [hm, digitValue, hdigits, List.cons_append, hs]
      · cases h

/-! ### Strings -/

theorem hexQuad_suffix {s r : List Char} {n : Nat} (h : hexQuad s = .ok (n, r)) : r <:+ s := by
  unfold hexQuad at h
  split at h
  · cases h
  · split at h
    · split at h
      · cases h
        exact ⟨[_, _, _, _], rfl⟩
      · cases h
    · cases h

theorem trailingQuad_suffix {k : Nat} {s r : List Char} {c : Char}
    (h : trailingQuad k s = .ok (c, r)) : r <:+ s := by
  rw [trailingQuad] at h
  split at h
  · cases h
  · rename_i hquad
    split at h
    · simp only [Except.ok.injEq, Prod.mk.injEq] at h
      exact h.2 ▸ hexQuad_suffix hquad
    · cases h

theorem trailingHalf_suffix {k : Nat} {s r : List Char} {c : Char}
    (h : trailingHalf k s = .ok (c, r)) : r <:+ s := by
  unfold trailingHalf at h
  split at h
  · cases h
  · split at h
    · split at h
      · cases h
      · split at h
        · exact (trailingQuad_suffix h).trans ((List.suffix_cons _ _).trans (List.suffix_cons _ _))
        · cases h
    · cases h

theorem unicodeEscape_suffix {s r : List Char} {c : Char} (h : unicodeEscape s = .ok (c, r)) :
    r <:+ s := by
  rw [unicodeEscape] at h
  split at h
  · cases h
  · rename_i hquad
    split at h
    · cases h
    · split at h
      · exact (trailingHalf_suffix h).trans (hexQuad_suffix hquad)
      · cases h
        exact hexQuad_suffix hquad

theorem escapeSequence_suffix {s r : List Char} {c : Char} (h : escapeSequence s = .ok (c, r)) :
    r <:+ s := by
  cases s with
  | nil => cases h
  | cons d s =>
    rw [escapeSequence] at h
    split at h
    · cases h
      exact List.suffix_cons d _
    · split at h
      · exact (unicodeEscape_suffix h).trans (List.suffix_cons d s)
      · cases h

theorem stringRest_suffix {read s r : List Char} {t : String}
    (h : stringRest read s = .ok (t, r)) : r <:+ s := by
  fun_induction stringRest read s with
  | case1 => cases h
  | case2 read s =>
    cases h
    exact List.suffix_cons _ _
  | case3 => cases h
  | case4 read s _ _ hescape _ _ ih =>
    exact (ih h).trans ((escapeSequence_suffix hescape).trans (List.suffix_cons _ s))
  | case5 => cases h
  | case6 read c s _ _ _ ih => exact (ih h).trans (List.suffix_cons c s)

end HoverServer.Json.Reader
