import HoverServer.Proofs.Frame.Feeds
import HoverServer.Proofs.Frame.Header

/-! What a decoder makes of the header blocks in front of it. It waits for as many bytes as a block
announces and takes no more, and a frame that could not be addressed is refused. -/
namespace HoverServer.Frame

/-- What a feed that finds these bytes hands on, and what it holds back. -/
inductive Yields : Bytes → Except Fault (List String) → Bytes → Prop where
  | headless {s : Bytes} (block : cut s = none) : Yields s (.ok []) s
  | refused {s header after : Bytes} {fault : Fault} (block : cut s = some (header, after))
      (reads : Reads header (.error fault)) : Yields s (.error fault) s
  | unaddressable {s header after : Bytes} {n : Nat} (block : cut s = some (header, after))
      (reads : Reads header (.ok n)) (large : wordLimit ≤ header.length + 4 + n) :
      Yields s (.error (.invalidLength (toString n))) s
  | short {s header after : Bytes} {n : Nat} (block : cut s = some (header, after))
      (reads : Reads header (.ok n)) (fits : header.length + 4 + n < wordLimit)
      (missing : s.length < header.length + 4 + n) : Yields s (.ok []) s
  | whole {s header payload rest left : Bytes} {bodies : Except Fault (List String)}
      (block : cut s = some (header, payload ++ rest)) (reads : Reads header (.ok payload.length))
      (fits : header.length + 4 + payload.length < wordLimit) (more : Yields rest bodies left) :
      Yields s (bodies.map (Text.Lossy.decode payload :: ·)) left

theorem Reads.payloadLength_error {header : Bytes} {fault : Fault}
    (h : Reads header (.error fault)) : payloadLength header = .error fault := by
  simp only [payloadLength, h.eq]

theorem Reads.payloadLength_ok {header : Bytes} {n : Nat} (h : Reads header (.ok n)) :
    payloadLength header = if wordLimit ≤ header.length + 4 + n then
      .error (.invalidLength (toString n)) else .ok n := by
  simp only [payloadLength, h.eq]
  rfl

namespace Decoder

theorem Feed.bodies_cons (f : Frame) (fed : Feed) :
    Feed.bodies ⟨f :: fed.frames, fed.fault, fed.decoder⟩ = fed.bodies.map (f.text :: ·) := by
  obtain ⟨frames, fault, d⟩ := fed
  cases fault <;> rfl

theorem feed_of_yields {s left : Bytes} {bodies : Except Fault (List String)}
    (h : Yields s bodies left) {d : Decoder} (hd : d.Scanned) {chunk : Bytes}
    (hs : d.buffer ++ chunk = s) :
    (d.feed chunk).bodies = bodies ∧ (d.feed chunk).decoder.buffer = left := by
  induction h generalizing d chunk with
  | headless block =>
    subst hs
    exact hd.feed_unfinished (front_of_none block)
  | refused block reads =>
    subst hs
    exact hd.feed_refused (front_of_error block reads.payloadLength_error)
  | unaddressable block reads large =>
    subst hs
    have hlength := reads.payloadLength_ok
    rw [if_pos large] at hlength
    exact hd.feed_refused (front_of_error block hlength)
  | short block reads fits missing =>
    subst hs
    have hlength := reads.payloadLength_ok
    rw [if_neg (Nat.not_le.2 fits)] at hlength
    have hcut := length_of_cut block
    apply hd.feed_unfinished
    rw [front_of_ok block hlength, if_pos (by omega)]
  | @whole s header payload rest left bodies block reads fits more ih =>
    subst hs
    have hlength := reads.payloadLength_ok
    rw [if_neg (Nat.not_le.2 fits)] at hlength
    obtain ⟨hbodies, hleft⟩ := ih Idle.empty.toScanned (empty_append rest)
    rw [hd.feed_whole (front_of_cut (f := ⟨header, payload⟩) block hlength), Feed.bodies_cons,
      hbodies]
    exact ⟨rfl, hleft⟩

end Decoder

theorem exists_yields (s : Bytes) : ∃ bodies left, Yields s bodies left := by
  induction hk : s.length using Nat.strongRecOn generalizing s with
  | _ k ih =>
    cases hcut : cut s with
    | none => exact ⟨_, _, .headless hcut⟩
    | some p =>
      obtain ⟨header, after⟩ := p
      have hlen := length_of_cut hcut
      obtain ⟨r, hr⟩ := exists_reads header
      cases r with
      | error fault => exact ⟨_, _, .refused hcut hr⟩
      | ok n =>
        by_cases hfits : header.length + 4 + n < wordLimit
        · by_cases hshort : s.length < header.length + 4 + n
          · exact ⟨_, _, .short hcut hr hfits hshort⟩
          · have htake : (after.take n).length = n := by
              rw [List.length_take]
              omega
            obtain ⟨bodies, left, hmore⟩ :=
              ih (after.drop n).length (by rw [List.length_drop]; omega) (after.drop n) rfl
            rw [← List.take_append_drop n after] at hcut
            rw [← htake] at hr hfits
            exact ⟨_, _, .whole hcut hr hfits hmore⟩
        · exact ⟨_, _, .unaddressable hcut hr (Nat.not_lt.1 hfits)⟩

/-- A header block is read just as its grammar says. A decoder that has been fed any chunks waits
for the bytes that the next block announces, hands on just these, and refuses the block if the
frame would end beyond the last address. -/
theorem Decoder.feed_eq_iff :
    (∀ header r, contentLength header = r ↔ Reads header r) ∧
      ∀ (past : List Bytes) (chunk : Bytes) (bodies : Except Fault (List String)) (left : Bytes),
        let d := empty.fed past
        ((d.feed chunk).bodies = bodies ∧ (d.feed chunk).decoder.buffer = left) ↔
          Yields (d.buffer ++ chunk) bodies left := by
  refine ⟨fun _ _ => contentLength_eq_iff, fun past chunk bodies left => ?_⟩
  have hd : (empty.fed past).Scanned := Scanned.fed (.fresh []) past
  constructor
  · rintro ⟨rfl, rfl⟩
    obtain ⟨bodies, left, h⟩ := exists_yields ((empty.fed past).buffer ++ chunk)
    obtain ⟨hbodies, hleft⟩ := feed_of_yields h hd rfl
    rwa [hbodies, hleft]
  · exact fun h => feed_of_yields h hd rfl

end HoverServer.Frame
