import Mathlib.Algebra.GroupWithZero.Nat
import HoverServer.Proofs.Frame.Encode
import HoverServer.Proofs.Frame.Feeds
import HoverServer.Proofs.Text.Lossy

/-! When frames are handed on. A decoder hands on a frame with the chunk that brings the last byte
of it, no sooner and no later, so the bodies that were framed come out one by one. -/
namespace HoverServer.Frame

variable {α β : Type}

/-- Parts of a stream with the places where they end. -/
def ends (size : α → Nat) (start : Nat) : List α → List (α × Nat)
  | [] => []
  | x :: r => (x, start + size x) :: ends size (start + size x) r

/-- The parts whose last byte is among those from place `a` up to place `b`. -/
def endingIn (a b : Nat) (parts : List (α × Nat)) : List α :=
  (parts.filter fun p => a < p.2 && p.2 ≤ b).map Prod.fst

/-- For each chunk of a stream the parts whose last byte it brings. -/
def deliveries (parts : List (α × Nat)) (start : Nat) : List Bytes → List (List α)
  | [] => []
  | chunk :: r =>
    endingIn start (start + chunk.length) parts :: deliveries parts (start + chunk.length) r

theorem ends_append (size : α → Nat) (start : Nat) (u v : List α) :
    ends size start (u ++ v) = ends size start u ++ ends size (start + (u.map size).sum) v := by
  induction u generalizing start with
  | nil => rfl
  | cons x u ih => simp [ends, ih, Nat.add_assoc]

theorem ends_map (size : β → Nat) (f : α → β) (start : Nat) (u : List α) :
    ends size start (u.map f) = (ends (size ∘ f) start u).map (Prod.map f id) := by
  induction u generalizing start with
  | nil => rfl
  | cons x u ih => simp [ends, ih]

/-- No part ends before it has begun, or after the end of them all. -/
theorem ends_bounds {size : α → Nat} {start : Nat} {u : List α} {p : α × Nat}
    (h : p ∈ ends size start u) : start ≤ p.2 ∧ p.2 ≤ start + (u.map size).sum := by
  induction u generalizing start with
  | nil => cases h
  | cons x u ih =>
    rw [List.map_cons, List.sum_cons]
    rcases List.mem_cons.1 h with rfl | h
    · dsimp only
      omega
    · have := ih h
      omega

theorem endingIn_append (a b : Nat) (u v : List (α × Nat)) :
    endingIn a b (u ++ v) = endingIn a b u ++ endingIn a b v := by
  simp [endingIn]

theorem endingIn_of_inside {a b : Nat} {u : List (α × Nat)} (h : ∀ p ∈ u, a < p.2 ∧ p.2 ≤ b) :
    endingIn a b u = u.map Prod.fst := by
  rw [endingIn, List.filter_eq_self.2]
  simpa using h

theorem endingIn_of_outside {a b : Nat} {u : List (α × Nat)} (h : ∀ p ∈ u, p.2 ≤ a ∨ b < p.2) :
    endingIn a b u = [] := by
  rw [endingIn, List.filter_eq_nil_iff.2]
  · rfl
  · intro p hp
    have := h p hp
    simp
    omega

theorem map_fst_ends (size : α → Nat) (start : Nat) (u : List α) :
    (ends size start u).map Prod.fst = u := by
  induction u generalizing start with
  | nil => rfl
  | cons x u ih => simp [ends, ih]

theorem deliveries_map (f : α → β) (parts : List (α × Nat)) (start : Nat) (chunks : List Bytes) :
    deliveries (parts.map (Prod.map f id)) start chunks =
      (deliveries parts start chunks).map (List.map f) := by
  induction chunks generalizing start with
  | nil => rfl
  | cons chunk r ih =>
    rw [deliveries, deliveries, ih, List.map_cons]
    congr 1
    rw [endingIn, endingIn, List.filter_map, List.map_map, List.map_map]
    rfl

/-- What has ended before is delivered no more. -/
theorem deliveries_append {u : List (α × Nat)} {start : Nat} (h : ∀ p ∈ u, p.2 ≤ start)
    (v : List (α × Nat)) (chunks : List Bytes) :
    deliveries (u ++ v) start chunks = deliveries v start chunks := by
  induction chunks generalizing start with
  | nil => rfl
  | cons chunk r ih =>
    rw [deliveries, deliveries, endingIn_append, endingIn_of_outside fun p hp => Or.inl (h p hp),
      List.nil_append, ih fun p hp => Nat.le_trans (h p hp) (Nat.le_add_right _ _)]

theorem deliveries_cons {u v : List (α × Nat)} {start : Nat} {chunk : Bytes}
    (hu : ∀ p ∈ u, start < p.2 ∧ p.2 ≤ start + chunk.length)
    (hv : ∀ p ∈ v, start + chunk.length < p.2) (r : List Bytes) :
    deliveries (u ++ v) start (chunk :: r) =
      u.map Prod.fst :: deliveries v (start + chunk.length) r := by
  rw [deliveries, endingIn_append, endingIn_of_inside hu,
    endingIn_of_outside fun p hp => Or.inr (hv p hp), List.append_nil,
    deliveries_append fun p hp => (hu p hp).2]

/-- Frames that are still to come end behind the bytes that are there. -/
theorem lt_of_mem_ends {s : Bytes} (h : front s = .unfinished) {t : Bytes} {start : Nat}
    {p : Frame × Nat} (hp : p ∈ ends size start (parse (s ++ t)).frames) :
    start + s.length < p.2 := by
  cases ht : front (s ++ t) with
  | unfinished =>
    rw [parse_unfinished ht] at hp
    cases hp
  | refused fault =>
    rw [parse_refused ht] at hp
    cases hp
  | whole f rest =>
    have hsize := size_of_unfinished h ht
    rw [parse_whole ht] at hp
    rcases List.mem_cons.1 hp with rfl | hp
    · dsimp only
      omega
    · have := (ends_bounds hp).1
      omega

theorem length_bytes (frames : List Frame) :
    (frames.flatMap bytes).length = (frames.map size).sum := by
  rw [List.length_flatMap]
  simp [bytes_length]

namespace Decoder

/-- A decoder that meets no fault hands on every frame with the chunk that completes it. -/
theorem Idle.feeds_deliveries {d : Decoder} (h : d.Idle) {chunks : List Bytes}
    (hf : (parse (d.buffer ++ chunks.flatten)).fault = none) (start : Nat) :
    let frames := (parse (d.buffer ++ chunks.flatten)).frames
    let handed := deliveries (ends size start frames) (start + d.buffer.length) chunks
    d.feeds chunks = handed.map (fun fs => .ok (fs.map text)) ∧ handed.flatten = frames := by
  induction chunks generalizing d start with
  | nil => simp [h.parse_buffer, feeds, deliveries]
  | cons chunk r ih =>
    rw [List.flatten_cons, ← List.append_assoc] at hf ⊢
    have hchunk := fault_of_append hf
    have hidle := h.feed_idle hchunk
    have hlen := length_of_parse (d.buffer ++ chunk)
    rw [parse_append hchunk] at hf ⊢
    rw [← h.feed_buffer chunk, length_bytes, List.length_append] at hlen
    rw [← h.feed_buffer chunk] at hf ⊢
    obtain ⟨hfeeds, hflat⟩ :=
      ih hidle hf (start + ((parse (d.buffer ++ chunk)).frames.map size).sum)
    have hplace : start + ((parse (d.buffer ++ chunk)).frames.map size).sum +
        (d.feed chunk).decoder.buffer.length = start + d.buffer.length + chunk.length := by omega
    have hnow : ∀ p ∈ ends size start (parse (d.buffer ++ chunk)).frames,
        start + d.buffer.length < p.2 ∧ p.2 ≤ start + d.buffer.length + chunk.length := by
      intro p hp
      have := lt_of_mem_ends h.waiting hp
      have := (ends_bounds hp).2
      omega
    have hlater : ∀ p ∈ ends size (start + ((parse (d.buffer ++ chunk)).frames.map size).sum)
        (parse ((d.feed chunk).decoder.buffer ++ r.flatten)).frames,
        start + d.buffer.length + chunk.length < p.2 := by
      intro p hp
      have := lt_of_mem_ends hidle.waiting hp
      omega
    rw [hplace] at hfeeds hflat
    dsimp only
    rw [ends_append, deliveries_cons hnow hlater, map_fst_ends]
    constructor
    · rw [feeds, h.feed_bodies hchunk, hfeeds, List.map_cons]
    · rw [List.flatten_cons, hflat]

/-- Bodies that were framed are all handed on, in order and each with the chunk that brings the
last byte of its frame, and nothing is held back in the end. -/
theorem feeds_encode {bodies : List Bytes} (hbodies : ∀ b ∈ bodies, b.length < Bytes.limit)
    {chunks : List Bytes} (hchunks : chunks.flatten = bodies.flatMap encode) :
    let handed := deliveries (ends (fun b => (encode b).length) 0 bodies) 0 chunks
    empty.feeds chunks = handed.map (fun bs => .ok (bs.map Text.Lossy.decode)) ∧
      handed.flatten = bodies ∧ (empty.fed chunks).buffer.length = 0 ∧
      ∀ s, Bytes.ofString s ∈ bodies → Text.Lossy.decode (Bytes.ofString s) = s := by
  intro handed
  have hparse := parse_bodies hbodies
  rw [← hchunks] at hparse
  have hfault : (parse (empty.buffer ++ chunks.flatten)).fault = none := by
    rw [empty_append, hparse]
  obtain ⟨hfeeds, hflat⟩ := Idle.empty.feeds_deliveries hfault 0
  obtain ⟨_, _, _, hbuffer, _⟩ := Idle.empty.feeds_ok hfault
  have hsize : size ∘ ofPayload = fun b => (encode b).length := by
    funext b
    exact (bytes_length _).symm
  have hstart : 0 + empty.buffer.length = 0 := rfl
  rw [empty_append, hparse, ends_map, hsize, hstart, deliveries_map] at hfeeds hflat
  refine ⟨?_, ?_, ?_, fun s _ => Text.Lossy.decode_ofString s⟩
  · rw [hfeeds, List.map_map]
    simp only [Function.comp_def, List.map_map]
    rfl
  · rw [← List.map_flatten] at hflat
    have hpayloads := congrArg (List.map payload) hflat
    simpa [Function.comp_def, ofPayload] using hpayloads
  · rw [hbuffer, empty_append, hparse]
    rfl

/-- An empty body and one that is a frame itself. The first chunk ends one byte short of the first
body, the second one inside the header block of the second body. -/
theorem feeds_encode_nested :
    let bodies := [[], encode (Bytes.ofString "x")]
    let stream := bodies.flatMap encode
    let chunks := [stream.take 20, (stream.drop 20).take 15, stream.drop 35]
    (∀ b ∈ bodies, b.length < Bytes.limit) ∧ chunks.flatten = stream ∧
      empty.feeds chunks = [.ok [], .ok [""], .ok ["Content-Length: 1\r\n\r\nx"]] ∧
      (empty.fed chunks).buffer.length = 0 := by
  intro bodies stream chunks
  have hbodies : ∀ b ∈ bodies, b.length < Bytes.limit := by decide
  have hchunks : chunks.flatten = bodies.flatMap encode := by decide
  obtain ⟨hfeeds, _, hbuffer, _⟩ := feeds_encode hbodies hchunks
  have hhanded : deliveries (ends (fun b => (encode b).length) 0 bodies) 0 chunks =
      [[], [[]], [encode (Bytes.ofString "x")]] := by decide
  rw [hhanded] at hfeeds
  exact ⟨hbodies, hchunks, hfeeds, hbuffer⟩

end Decoder
end HoverServer.Frame
