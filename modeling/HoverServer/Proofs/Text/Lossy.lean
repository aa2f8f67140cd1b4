import HoverServer.Text.Lossy

/-! Lossy reading loses nothing of a text that was written as UTF-8. -/
namespace HoverServer.Text.Lossy

theorem chars_cons (s : State) (b : UInt8) (r : Bytes) :
    chars s (b :: r) = (step s b).1 ++ chars (step s b).2 r := by
  cases s <;> rfl

theorem toNat_ofNat {n : Nat} (h : n < 256) : (UInt8.ofNat n).toNat = n := by
  rw [UInt8.toNat_ofNat', Nat.mod_eq_of_lt h]

theorem le_ofNat_iff {n : Nat} (h : n < 256) (b : UInt8) : b ≤ UInt8.ofNat n ↔ b.toNat ≤ n := by
  rw [UInt8.le_iff_toNat_le, toNat_ofNat h]

theorem ofNat_le_iff {n : Nat} (h : n < 256) (b : UInt8) : UInt8.ofNat n ≤ b ↔ n ≤ b.toNat := by
  rw [UInt8.le_iff_toNat_le, toNat_ofNat h]

theorem ofNat_lt_iff {n : Nat} (h : n < 256) (b : UInt8) : UInt8.ofNat n < b ↔ n < b.toNat := by
  rw [UInt8.lt_iff_toNat_lt, toNat_ofNat h]

theorem ofNat_eq_iff {n : Nat} (h : n < 256) (b : UInt8) : UInt8.ofNat n = b ↔ n = b.toNat := by
  rw [← UInt8.toNat_inj, toNat_ofNat h]

/-- The first byte of a character, as a number. -/
theorem start_ofNat {n : Nat} (h : n < 256) :
    start (UInt8.ofNat n) =
      if n < 0x80 then ([Char.ofNat n], .between)
      else if 0xC2 ≤ n ∧ n ≤ 0xDF then ([], .inside 0 0x80 0xBF (n - 0xC0))
      else if n = 0xE0 then ([], .inside 1 0xA0 0xBF 0)
      else if n = 0xED then ([], .inside 1 0x80 0x9F 13)
      else if 0xE1 ≤ n ∧ n ≤ 0xEF then ([], .inside 1 0x80 0xBF (n - 0xE0))
      else if n = 0xF0 then ([], .inside 2 0x90 0xBF 0)
      else if 0xF1 ≤ n ∧ n ≤ 0xF3 then ([], .inside 2 0x80 0xBF (n - 0xF0))
      else if n = 0xF4 then ([], .inside 2 0x80 0x8F 4)
      else ([replacement], .between) := by
  simp only [start, Bool.and_eq_true, decide_eq_true_eq, beq_iff_eq, le_ofNat_iff h,
    ofNat_le_iff h, ofNat_lt_iff h, ofNat_eq_iff h, toNat_ofNat h]
  rfl

/-- The last byte of a character. -/
theorem chars_last {low high : UInt8} {value n v : Nat} (hn : n < 256) (hl : low.toNat ≤ n)
    (hh : n ≤ high.toNat) (hv : 64 * value + (n - 0x80) = v) (r : Bytes) :
    chars (.inside 0 low high value) (UInt8.ofNat n :: r) = Char.ofNat v :: chars .between r := by
  rw [← hv]
  simp only [chars_cons, step, Bool.and_eq_true, decide_eq_true_eq, le_ofNat_iff hn,
    ofNat_le_iff hn, toNat_ofNat hn, hl, hh, and_self, if_true]
  rfl

/-- A byte inside a character that is not its last. -/
theorem chars_more {low high : UInt8} {need value n : Nat} (hn : n < 256) (hl : low.toNat ≤ n)
    (hh : n ≤ high.toNat) (r : Bytes) :
    chars (.inside (need + 1) low high value) (UInt8.ofNat n :: r) =
      chars (.inside need 0x80 0xBF (64 * value + (n - 0x80))) r := by
  simp only [chars_cons, step, Bool.and_eq_true, decide_eq_true_eq, le_ofNat_iff hn,
    ofNat_le_iff hn, toNat_ofNat hn, hl, hh, and_self, if_true]
  rfl

theorem tail_ofNat {k : Nat} (h : k < 64) :
    k + 0x80 < 256 ∧ (0x80 : UInt8).toNat ≤ k + 0x80 ∧ k + 0x80 ≤ (0xBF : UInt8).toNat := by
  have h80 : (0x80 : UInt8).toNat = 0x80 := rfl
  have hBF : (0xBF : UInt8).toNat = 0xBF := rfl
  omega

theorem chars_two {v : Nat} (h1 : 0x7f < v) (h2 : v ≤ 0x7ff) (r : Bytes) :
    chars .between (UInt8.ofNat (v / 64 % 0x20 + 0xc0) :: UInt8.ofNat (v % 0x40 + 0x80) :: r) =
      Char.ofNat v :: chars .between r := by
  obtain ⟨ht, htl, hth⟩ := tail_ofNat (Nat.mod_lt v (by decide : 0 < 64))
  rw [chars_cons, step, start_ofNat (by omega), if_neg (by omega), if_pos (by omega)]
  exact chars_last ht htl hth (by omega) r

theorem chars_three {v : Nat} (h1 : 0x7ff < v) (h2 : v ≤ 0xffff) (hs : v < 0xd800 ∨ 0xdfff < v)
    (r : Bytes) :
    chars .between (UInt8.ofNat (v / 4096 % 0x10 + 0xe0) :: UInt8.ofNat (v / 64 % 0x40 + 0x80) ::
        UInt8.ofNat (v % 0x40 + 0x80) :: r) =
      Char.ofNat v :: chars .between r := by
  obtain ⟨ht, htl, hth⟩ := tail_ofNat (Nat.mod_lt v (by decide : 0 < 64))
  obtain ⟨hm, hml, hmh⟩ := tail_ofNat (Nat.mod_lt (v / 64) (by decide : 0 < 64))
  have hA0 : (0xA0 : UInt8).toNat = 0xA0 := rfl
  have h9F : (0x9F : UInt8).toNat = 0x9F := rfl
  rw [chars_cons, step, start_ofNat (by omega), if_neg (by omega), if_neg (by omega)]
  by_cases hE0 : v / 4096 % 0x10 + 0xe0 = 0xE0
  · rw [if_pos hE0, List.nil_append, chars_more hm (by omega) hmh]
    exact chars_last ht htl hth (by omega) r
  · rw [if_neg hE0]
    by_cases hED : v / 4096 % 0x10 + 0xe0 = 0xED
    · rw [if_pos hED, List.nil_append, chars_more hm hml (by omega)]
      exact chars_last ht htl hth (by omega) r
    · rw [if_neg hED, if_pos (by omega), List.nil_append, chars_more hm hml hmh]
      exact chars_last ht htl hth (by omega) r

theorem chars_four {v : Nat} (h1 : 0xffff < v) (h2 : v < 0x110000) (r : Bytes) :
    chars .between (UInt8.ofNat (v / 262144 % 0x08 + 0xf0) :: UInt8.ofNat (v / 4096 % 0x40 + 0x80) ::
        UInt8.ofNat (v / 64 % 0x40 + 0x80) :: UInt8.ofNat (v % 0x40 + 0x80) :: r) =
      Char.ofNat v :: chars .between r := by
  obtain ⟨ht, htl, hth⟩ := tail_ofNat (Nat.mod_lt v (by decide : 0 < 64))
  obtain ⟨hm, hml, hmh⟩ := tail_ofNat (Nat.mod_lt (v / 64) (by decide : 0 < 64))
  obtain ⟨hn, hnl, hnh⟩ := tail_ofNat (Nat.mod_lt (v / 4096) (by decide : 0 < 64))
  have h90 : (0x90 : UInt8).toNat = 0x90 := rfl
  have h8F : (0x8F : UInt8).toNat = 0x8F := rfl
  rw [chars_cons, step, start_ofNat (by omega), if_neg (by omega), if_neg (by omega),
    if_neg (by omega), if_neg (by omega), if_neg (by omega)]
  by_cases hF0 : v / 262144 % 0x08 + 0xf0 = 0xF0
  · rw [if_pos hF0, List.nil_append, chars_more hn (by omega) hnh, chars_more hm hml hmh]
    exact chars_last ht htl hth (by omega) r
  · rw [if_neg hF0]
    by_cases hF4 : v / 262144 % 0x08 + 0xf0 = 0xF4
    · rw [if_neg (by omega), if_pos hF4, List.nil_append, chars_more hn hnl (by omega),
        chars_more hm hml hmh]
      exact chars_last ht htl hth (by omega) r
    · rw [if_pos (by omega), List.nil_append, chars_more hn hnl hnh, chars_more hm hml hmh]
      exact chars_last ht htl hth (by omega) r

/-- A character is read back from its bytes, whatever follows them. -/
theorem chars_utf8EncodeChar (c : Char) (r : Bytes) :
    chars .between (String.utf8EncodeChar c ++ r) = c :: chars .between r := by
  have hvalid : c.val.toNat < 0xd800 ∨ 0xdfff < c.val.toNat ∧ c.val.toNat < 0x110000 := c.valid
  have hc : Char.ofNat c.val.toNat = c := Char.ofNat_toNat c
  rw [String.utf8EncodeChar]
  by_cases h1 : c.val.toNat ≤ 0x7f
  · rw [if_pos h1, List.singleton_append, chars_cons, step, start_ofNat (by omega),
      if_pos (by omega), hc]
    rfl
  · rw [if_neg h1]
    by_cases h2 : c.val.toNat ≤ 0x7ff
    · rw [if_pos h2]
      exact (chars_two (by omega) h2 r).trans (by rw [hc])
    · rw [if_neg h2]
      by_cases h3 : c.val.toNat ≤ 0xffff
      · rw [if_pos h3]
        exact (chars_three (by omega) h3 (by omega) r).trans (by rw [hc])
      · rw [if_neg h3]
        exact (chars_four (by omega) (by omega) r).trans (by rw [hc])

/-- A text that was written is read back. -/
theorem decode_ofString (s : String) : decode (Bytes.ofString s) = s := by
  have hchars (cs : List Char) : chars .between (cs.flatMap String.utf8EncodeChar) = cs := by
    induction cs with
    | nil => rfl
    | cons c cs ih => rw [List.flatMap_cons, chars_utf8EncodeChar, ih]
  rw [decode, Bytes.ofString, hchars, String.ofList_toList]

end HoverServer.Text.Lossy
