import HoverServer.Proofs.Frame.Feeds

/-! The loop of a feed, one frame at a time. Wherever the loop looks for a terminator, the search
that goes on from the last one comes to what a search of the whole buffer would. -/
namespace HoverServer.Frame

/-- The place in some bytes where a terminator stands, and none stands before it. -/
structure FirstAt (s : Bytes) (place : Nat) : Prop where
  here : terminator <+: s.drop place
  before : ∀ k < place, ¬ terminator <+: s.drop k

theorem FirstAt.unique {s : Bytes} {a b : Nat} (ha : FirstAt s a) (hb : FirstAt s b) : a = b := by
  rcases Nat.lt_trichotomy a b with hlt | heq | hgt
  · exact absurd ha.here (hb.before a hlt)
  · exact heq
  · exact absurd hb.here (ha.before b hgt)

theorem FirstAt.isInfix {s : Bytes} {place : Nat} (h : FirstAt s place) : terminator <:+: s :=
  h.here.isInfix.trans (List.drop_suffix place s).isInfix

theorem firstAt_of_cut {s header after : Bytes} (h : cut s = some (header, after)) :
    FirstAt s header.length where
  here := by
    rw [eq_of_cut h, List.drop_left]
    exact List.prefix_append _ _
  before := by
    induction s generalizing header with
    | nil => cases h
    | cons b r ih =>
      intro k hk
      obtain ⟨rfl, _⟩ | ⟨hfront, more, rfl, hmore⟩ := cut_cons_cases h
      · cases hk
      · cases k with
        | zero => exact hfront
        | succ k => exact ih hmore k (Nat.lt_of_succ_lt_succ hk)

namespace Decoder

/-! ### Steps of the loop -/

/-- The loop of a feed takes these frames off a decoder, one for each time around. -/
inductive Takes : Decoder → List Frame → Decoder → Prop where
  | none (d : Decoder) : Takes d [] d
  | frame {d e last : Decoder} {f : Frame} {more : List Frame} (next : d.next = .take f e)
      (rest : Takes e more last) : Takes d (f :: more) last

/-- Where the loop finds no whole frame it leaves off. -/
inductive Stops : Decoder → Option Fault → Decoder → Prop where
  | wait {d e : Decoder} (next : d.next = .wait e) : Stops d none e
  | refuse {d : Decoder} {fault : Fault} (next : d.next = .refuse fault) : Stops d (some fault) d

theorem Takes.drain {d e : Decoder} {frames : List Frame} (h : Takes d frames e) :
    d.drain = ⟨frames ++ e.drain.frames, e.drain.fault, e.drain.decoder⟩ := by
  induction h with
  | none d => rfl
  | frame next rest ih => rw [drain_take next, ih, List.cons_append]

/-- The loop comes to its end, and has then taken the frames of the feed. -/
theorem exists_stops (d : Decoder) :
    ∃ e, Takes d d.drain.frames e ∧ Stops e d.drain.fault d.drain.decoder := by
  induction d using drain.induct with
  | case1 d e hwait =>
    rw [drain_wait hwait]
    exact ⟨d, .none d, .wait hwait⟩
  | case2 d fault hrefuse =>
    rw [drain_refuse hrefuse]
    exact ⟨d, .none d, .refuse hrefuse⟩
  | case3 d f e htake _ ih =>
    obtain ⟨last, htakes, hstops⟩ := ih
    rw [drain_take htake]
    exact ⟨last, .frame htake htakes, hstops⟩

/-- A frame that is taken stood at the front, and the decoder starts afresh behind it. -/
theorem Scanned.next_take {d e : Decoder} {f : Frame} (h : d.Scanned) (ht : d.next = .take f e) :
    front d.buffer = .whole f e.buffer ∧ e.Scanned := by
  have hnext := h.next
  rw [ht] at hnext
  split at hnext
  · obtain ⟨k, hk, _⟩ := hnext
    cases hk
  · cases hnext
  · rename_i f' rest hfront
    cases hnext
    exact ⟨hfront, .fresh rest⟩

/-- Where the loop leaves off, it leaves the buffer as it is. -/
theorem Scanned.stops_buffer {d e : Decoder} {fault : Option Fault} (h : d.Scanned)
    (hs : Stops d fault e) : e.buffer = d.buffer := by
  cases hs with
  | refuse _ => rfl
  | wait hwait =>
    have hnext := h.next
    rw [hwait] at hnext
    split at hnext
    · obtain ⟨k, hk, _⟩ := hnext
      cases hk
      rfl
    · cases hnext
    · cases hnext

theorem Scanned.takes {d e : Decoder} {frames : List Frame} (h : d.Scanned)
    (ht : Takes d frames e) : e.Scanned := by
  induction ht with
  | none d => exact h
  | frame next rest ih => exact ih (h.next_take next).2

/-! ### Searches that are resumed -/

/-- A decoder that searches only a part of its buffer, and misses nothing in the rest. -/
structure FindsFirst (d : Decoder) : Prop where
  within : d.scanned ≤ d.buffer.length
  free : ¬ terminator <:+: d.buffer.take d.scanned
  found (place : Nat) : d.findTerminator = some place ↔ FirstAt d.buffer place
  absent : d.findTerminator = none ↔ ¬ terminator <:+: d.buffer
  afresh : d.findTerminator = findTerminator ⟨d.buffer, 0⟩

theorem Scanned.findTerminator_eq_some_iff {d : Decoder} (h : d.Scanned) {place : Nat} :
    d.findTerminator = some place ↔ FirstAt d.buffer place := by
  rw [h.findTerminator]
  cases hcut : cut d.buffer with
  | none =>
    refine iff_of_false (by simp) fun hfirst => ?_
    exact cut_eq_none_iff.1 hcut hfirst.isInfix
  | some p =>
    obtain ⟨header, after⟩ := p
    have hfirst := firstAt_of_cut hcut
    rw [Option.map_some, Option.some.injEq]
    constructor
    · rintro rfl
      exact hfirst
    · exact hfirst.unique

theorem Scanned.findsFirst {d : Decoder} (h : d.Scanned) : d.FindsFirst where
  within := h.within
  free := cut_eq_none_iff.1 h.free
  found _ := h.findTerminator_eq_some_iff
  absent := by rw [h.findTerminator, Option.map_eq_none_iff, cut_eq_none_iff]
  afresh := by rw [h.findTerminator, (Scanned.fresh d.buffer).findTerminator]

/-- Whatever a decoder has been fed, faults or not, and wherever the loop of the next feed has come
to, the search for a terminator finds the first one of the whole buffer. -/
theorem fed_findsFirst (past : List Bytes) :
    let d := empty.fed past
    d.FindsFirst ∧ ∀ chunk frames e, Takes ⟨d.buffer ++ chunk, d.scanned⟩ frames e →
      e.FindsFirst := by
  intro d
  have hd : d.Scanned := Scanned.fed (.fresh []) past
  refine ⟨hd.findsFirst, fun chunk frames e htakes => ?_⟩
  exact ((hd.append chunk).takes htakes).findsFirst

/-- A terminator in three parts, the last of which completes a frame and brings a block that is
refused. -/
theorem fed_findsFirst_straddling :
    let past := [Bytes.ofString "Content-Length:1\r", Bytes.ofString "\n\r"]
    let chunk := Bytes.ofString "\nx\r\n\r\n"
    let d := empty.fed past
    let frames : List Frame := [⟨Bytes.ofString "Content-Length:1", Bytes.ofString "x"⟩]
    d = ⟨past.flatten, 19⟩ ∧ Takes ⟨d.buffer ++ chunk, d.scanned⟩ frames ⟨terminator, 0⟩ ∧
      FindsFirst ⟨terminator, 0⟩ := by
  intro past chunk d frames
  have hfirst : empty.feed (Bytes.ofString "Content-Length:1\r") =
      ⟨[], none, ⟨Bytes.ofString "Content-Length:1\r", 17⟩⟩ := drain_wait rfl
  have hsecond : Decoder.feed ⟨Bytes.ofString "Content-Length:1\r", 17⟩ (Bytes.ofString "\n\r") =
      ⟨[], none, ⟨past.flatten, 19⟩⟩ := drain_wait rfl
  have hd : d = ⟨past.flatten, 19⟩ := by
    simp only [d, past, fed, hfirst, hsecond]
  have htakes : Takes ⟨d.buffer ++ chunk, d.scanned⟩ frames ⟨terminator, 0⟩ := by
    rw [hd]
    exact .frame rfl (.none _)
  exact ⟨hd, htakes, (fed_findsFirst past).2 chunk frames _ htakes⟩

end Decoder
end HoverServer.Frame
