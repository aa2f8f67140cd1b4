import HoverServer.Proofs.Frame.Header
import HoverServer.Proofs.Frame.Parse

/-! Frames as they are written. The header block of a payload gives its length in decimal, and a
reader gets back the payload and nothing else, whatever bytes it is made of. -/
namespace HoverServer

/-- No program holds this many bytes at once: 2⁶³. -/
def Bytes.limit : Nat := 0x8000000000000000

namespace Frame

theorem cut_of_not_mem {header : Bytes} (h : 13 ∉ header) (t : Bytes) :
    cut (header ++ (terminator ++ t)) = some (header, t) := by
  induction header with
  | nil => exact cut_front (List.prefix_append _ _)
  | cons b r ih =>
    have hp : ¬ terminator <+: b :: (r ++ (terminator ++ t)) := by
      rintro ⟨u, hu⟩
      exact h (List.mem_cons.2 (Or.inl (List.cons.inj hu).1))
    rw [List.cons_append, cut_cons hp, ih fun hr => h (List.mem_cons_of_mem b hr)]
    rfl

theorem header_ofPayload (payload : Bytes) :
    (ofPayload payload).header = lengthName ++ 58 :: 32 :: Bytes.decimal payload.length := by
  rw [ofPayload, List.append_assoc]
  rfl

theorem of_mem_header {payload : Bytes} {b : UInt8} (h : b ∈ (ofPayload payload).header) :
    b ∈ lengthName ∨ b = 58 ∨ b = 32 ∨ Bytes.isDigit b = true := by
  rw [header_ofPayload] at h
  rcases List.mem_append.1 h with h | h
  · exact Or.inl h
  · rcases List.mem_cons.1 h with h | h
    · exact Or.inr (Or.inl h)
    · rcases List.mem_cons.1 h with h | h
      · exact Or.inr (Or.inr (Or.inl h))
      · exact Or.inr (Or.inr (Or.inr (Bytes.isDigit_of_mem_decimal h)))

theorem not_mem_header (payload : Bytes) : 13 ∉ (ofPayload payload).header := by
  intro h
  rcases of_mem_header h with h | h | h | h
  · exact absurd h (by decide)
  · exact absurd h (by decide)
  · exact absurd h (by decide)
  · exact absurd h (by decide)

theorem ascii_header {payload : Bytes} {b : UInt8} (h : b ∈ (ofPayload payload).header) :
    b < 128 := by
  have hname : lengthName.all (· < 128) = true := by decide
  rcases of_mem_header h with h | h | h | h
  · exact of_decide_eq_true (List.all_eq_true.1 hname b h)
  · simp [h]
  · simp [h]
  · simp only [Bytes.isDigit, Bool.and_eq_true, decide_eq_true_eq] at h
    exact UInt8.lt_of_le_of_lt h.2 (by decide)

/-- The header block is one line. -/
theorem lines_header (payload : Bytes) :
    Lines (ofPayload payload).header [(ofPayload payload).header] := by
  apply lines_eq_iff.1
  apply lines_unbroken
  intro h
  exact not_mem_header payload (h.subset List.mem_cons_self)

theorem trimmed_decimal (n : Nat) : Bytes.Trimmed (32 :: Bytes.decimal n) (Bytes.decimal n) where
  around := ⟨[32], [], by simp, List.forall_mem_singleton.2 rfl, List.forall_mem_nil _⟩
  first b r h := Bytes.isBlank_of_isDigit (Bytes.isDigit_of_mem_decimal (n := n) (by simp [h]))
  last b r h := Bytes.isBlank_of_isDigit (Bytes.isDigit_of_mem_decimal (n := n) (by simp [h]))

theorem givesLength_header (payload : Bytes) :
    GivesLength (ofPayload payload).header (Bytes.decimal payload.length) := by
  have hname : Bytes.Trimmed lengthName lengthName := Bytes.trim_eq_iff.1 (by decide)
  have hspelled := Bytes.sameLetters_iff.1 (by decide : Bytes.sameLetters lengthName lengthName)
  rw [header_ofPayload]
  exact .line (by decide) hname hspelled (trimmed_decimal payload.length)

theorem contentLength_ofPayload {payload : Bytes} (h : payload.length < wordLimit) :
    contentLength (ofPayload payload).header = .ok payload.length := by
  have hlines : Lines (ofPayload payload).header ([] ++ (ofPayload payload).header :: []) :=
    lines_header payload
  have hfirst : FirstLength (ofPayload payload).header (Bytes.decimal payload.length) :=
    .line hlines (List.forall_mem_nil _) (givesLength_header payload)
  have hdenotes : Bytes.Denotes (Bytes.decimal payload.length) payload.length :=
    Bytes.denotes_iff.2 ⟨Bytes.decimal_ne_nil _, fun b hb => Bytes.isDigit_of_mem_decimal hb,
      Bytes.decimalValue_decimal _⟩
  exact contentLength_eq_iff.2 (.length (fun b hb => ascii_header hb) hfirst hdenotes h)

/-- Bytes that a program can hold at once can be framed. -/
theorem payloadLength_ofPayload {payload : Bytes} (h : payload.length < Bytes.limit) :
    payloadLength (ofPayload payload).header = .ok payload.length := by
  have hdigits : (Bytes.decimal payload.length).length ≤ 19 := by
    rw [Bytes.decimal_eq, List.length_map, Nat.length_toDigits_le_iff (by decide) (by decide)]
    exact Nat.lt_trans h (by decide)
  have hlen : (ofPayload payload).header.length ≤ 35 := by
    have hname : lengthName.length = 14 := by decide
    rw [header_ofPayload, List.length_append, List.length_cons, List.length_cons]
    omega
  have hlimit : payload.length < wordLimit := by
    rw [wordLimit]
    rw [Bytes.limit] at h
    omega
  simp only [payloadLength, contentLength_ofPayload hlimit]
  rw [if_neg]
  rw [terminator_length, wordLimit]
  rw [Bytes.limit] at h
  omega

theorem encode_eq (payload : Bytes) :
    encode payload = (ofPayload payload).header ++ (terminator ++ payload) := by
  rw [encode, bytes, List.append_assoc]
  rfl

theorem encode_ne_nil (payload : Bytes) : encode payload ≠ [] := by
  rw [encode_eq]
  simp [terminator]

theorem front_encode {payload : Bytes} (h : payload.length < Bytes.limit) (t : Bytes) :
    front (encode payload ++ t) = .whole (ofPayload payload) t := by
  apply front_of_cut _ (payloadLength_ofPayload h)
  rw [encode_eq, List.append_assoc, List.append_assoc]
  exact cut_of_not_mem (not_mem_header payload) _

/-- A frame is not complete before its last byte. -/
theorem front_of_prefix_encode {payload t : Bytes} (h : payload.length < Bytes.limit)
    (ht : t <+: encode payload) (hne : t ≠ encode payload) : front t = .unfinished := by
  obtain ⟨u, hu⟩ := ht
  have hw := front_encode h []
  rw [List.append_nil, ← hu] at hw
  cases hf : front t with
  | unfinished => rfl
  | refused fault =>
    rw [front_append_refused hf u] at hw
    cases hw
  | whole f rest =>
    rw [front_append_whole hf u] at hw
    simp only [Front.whole.injEq, List.append_eq_nil_iff] at hw
    exact absurd (by rw [← hu, hw.2.2, List.append_nil]) hne

/-- Reading gives back what was written, up to what follows it. -/
theorem parse_encode {bodies : List Bytes} (h : ∀ b ∈ bodies, b.length < Bytes.limit) (t : Bytes) :
    parse (bodies.flatMap encode ++ t) =
      ⟨bodies.map ofPayload ++ (parse t).frames, (parse t).fault, (parse t).left⟩ := by
  induction bodies with
  | nil => rfl
  | cons b r ih =>
    rw [List.flatMap_cons, List.append_assoc, parse_whole (front_encode (h b (by simp)) _),
      ih fun c hc => h c (List.mem_cons_of_mem b hc)]
    rfl

theorem parse_bodies {bodies : List Bytes} (h : ∀ b ∈ bodies, b.length < Bytes.limit) :
    parse (bodies.flatMap encode) = ⟨bodies.map ofPayload, none, []⟩ := by
  have hparse := parse_encode h []
  have hnil : parse [] = ⟨[], none, []⟩ := parse_unfinished rfl
  rw [List.append_nil, hnil, List.append_nil] at hparse
  exact hparse

end Frame
end HoverServer
