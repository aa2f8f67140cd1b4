import HoverServer.Proofs.Frame.Parse

/-! A decoder that is fed a stream in chunks, against the stream parsed in one go. Whatever the
chunks, the frames are the same. A fault comes out of the chunk that brings the last byte of the
header block it is about, and takes the frames with it that only this chunk completes. -/
namespace HoverServer.Frame
namespace Decoder

theorem drain_wait {d e : Decoder} (h : d.next = .wait e) : d.drain = ⟨[], none, e⟩ := by
  rw [drain]
  split <;> simp_all

theorem drain_refuse {d : Decoder} {fault : Fault} (h : d.next = .refuse fault) :
    d.drain = ⟨[], some fault, d⟩ := by
  rw [drain]
  split <;> simp_all

theorem drain_take {d e : Decoder} {f : Frame} (h : d.next = .take f e) :
    d.drain = ⟨f :: e.drain.frames, e.drain.fault, e.drain.decoder⟩ := by
  rw [drain]
  split <;> simp_all

/-- One step of the decoder looks at the front of its buffer. -/
theorem Scanned.next {d : Decoder} (h : d.Scanned) :
    match front d.buffer with
    | .unfinished => ∃ k, d.next = .wait ⟨d.buffer, k⟩ ∧ Scanned ⟨d.buffer, k⟩
    | .refused fault => d.next = .refuse fault
    | .whole f rest => d.next = .take f ⟨rest, 0⟩ := by
  cases hc : cut d.buffer with
  | none =>
    rw [front_of_none hc]
    refine ⟨d.buffer.length, ?_, .whole hc⟩
    simp only [Decoder.next, h.findTerminator, hc, Option.map_none]
  | some p =>
    obtain ⟨header, after⟩ := p
    have hbytes := eq_of_cut hc
    have hlen := length_of_cut hc
    have htake : d.buffer.take header.length = header := by rw [hbytes, List.take_left]
    have hdrop (n : Nat) : d.buffer.drop (header.length + 4 + n) = after.drop n := by
      rw [hbytes, Nat.add_assoc, ← List.drop_drop, List.drop_left, ← List.drop_drop]
      rfl
    cases hn : contentLength header with
    | error fault =>
      have hp : payloadLength header = .error fault := by simp only [payloadLength, hn]
      rw [front_of_error hc hp]
      simp only [Decoder.next, h.findTerminator, hc, Option.map_some, htake, hn]
    | ok n =>
      by_cases hlimit : wordLimit ≤ header.length + terminator.length + n
      · have hp : payloadLength header = .error (.invalidLength (toString n)) := by
          simp only [payloadLength, hn, if_pos hlimit]
        rw [front_of_error hc hp]
        simp only [Decoder.next, h.findTerminator, hc, Option.map_some, htake, hn, if_pos hlimit]
      · have hp : payloadLength header = .ok n := by
          simp only [payloadLength, hn, if_neg hlimit]
        rw [front_of_ok hc hp]
        simp only [Decoder.next, h.findTerminator, hc, Option.map_some, htake, hn, if_neg hlimit]
        by_cases hshort : after.length < n
        · rw [if_pos hshort, if_pos (by simp; omega)]
          exact ⟨d.scanned, rfl, h⟩
        · rw [if_neg hshort, if_neg (by simp; omega), terminator_length, hdrop n, ← Nat.add_zero
            (header.length + 4), hdrop 0]
          rfl

/-- Draining a buffer parses it. -/
theorem Scanned.drain {d : Decoder} (h : d.Scanned) :
    ∃ k, d.drain = ⟨(parse d.buffer).frames, (parse d.buffer).fault, ⟨(parse d.buffer).left, k⟩⟩ ∧
      Scanned ⟨(parse d.buffer).left, k⟩ := by
  obtain ⟨buffer, scanned⟩ := d
  have hnext := h.next
  simp only at hnext ⊢
  induction buffer using parse.induct generalizing scanned with
  | case1 s hs =>
    rw [hs] at hnext
    obtain ⟨k, hw, hk⟩ := hnext
    rw [parse_unfinished hs]
    exact ⟨k, drain_wait hw, hk⟩
  | case2 s fault hs =>
    rw [hs] at hnext
    rw [parse_refused hs]
    exact ⟨scanned, drain_refuse hnext, h⟩
  | case3 s f rest hs _ ih =>
    rw [hs] at hnext
    obtain ⟨k, hd, hk⟩ := ih 0 (.fresh rest) (Scanned.next (.fresh rest))
    rw [parse_whole hs]
    refine ⟨k, ?_, hk⟩
    rw [drain_take hnext, hd]

/-- A feed parses what was held back together with what has come. -/
theorem Scanned.feed {d : Decoder} (h : d.Scanned) (chunk : Bytes) :
    ∃ k, d.feed chunk = ⟨(parse (d.buffer ++ chunk)).frames,
        (parse (d.buffer ++ chunk)).fault, ⟨(parse (d.buffer ++ chunk)).left, k⟩⟩ ∧
      Scanned ⟨(parse (d.buffer ++ chunk)).left, k⟩ :=
  (h.append chunk).drain

theorem Scanned.feed_bodies {d : Decoder} (h : d.Scanned) {chunk : Bytes}
    (hf : (parse (d.buffer ++ chunk)).fault = none) :
    (d.feed chunk).bodies = .ok ((parse (d.buffer ++ chunk)).frames.map text) := by
  obtain ⟨k, hk, _⟩ := h.feed chunk
  simp only [hk, Feed.bodies, hf]

theorem Scanned.feed_fault {d : Decoder} (h : d.Scanned) {chunk : Bytes} {fault : Fault}
    (hf : (parse (d.buffer ++ chunk)).fault = some fault) :
    (d.feed chunk).bodies = .error fault := by
  obtain ⟨k, hk, _⟩ := h.feed chunk
  simp only [hk, Feed.bodies, hf]

theorem Scanned.feed_buffer {d : Decoder} (h : d.Scanned) (chunk : Bytes) :
    (d.feed chunk).decoder.buffer = (parse (d.buffer ++ chunk)).left := by
  obtain ⟨k, hk, _⟩ := h.feed chunk
  rw [hk]

theorem Scanned.feed_scanned {d : Decoder} (h : d.Scanned) (chunk : Bytes) :
    (d.feed chunk).decoder.Scanned := by
  obtain ⟨k, hk, hscanned⟩ := h.feed chunk
  rwa [hk]

/-! ### What a feed finds at the front -/

theorem Scanned.feed_unfinished {d : Decoder} (h : d.Scanned) {chunk : Bytes}
    (hf : front (d.buffer ++ chunk) = .unfinished) :
    (d.feed chunk).bodies = .ok [] ∧ (d.feed chunk).decoder.buffer = d.buffer ++ chunk := by
  have hparse := parse_unfinished hf
  refine ⟨?_, by rw [h.feed_buffer, hparse]⟩
  rw [h.feed_bodies (by rw [hparse]), hparse, List.map_nil]

theorem Scanned.feed_refused {d : Decoder} (h : d.Scanned) {chunk : Bytes} {fault : Fault}
    (hf : front (d.buffer ++ chunk) = .refused fault) :
    (d.feed chunk).bodies = .error fault ∧
      (d.feed chunk).decoder.buffer = d.buffer ++ chunk := by
  have hparse := parse_refused hf
  exact ⟨h.feed_fault (by rw [hparse]), by rw [h.feed_buffer, hparse]⟩

/-- A decoder takes a frame off the front and starts afresh behind it. -/
theorem Scanned.feed_whole {d : Decoder} (h : d.Scanned) {chunk rest : Bytes} {f : Frame}
    (hf : front (d.buffer ++ chunk) = .whole f rest) :
    d.feed chunk =
      ⟨f :: (empty.feed rest).frames, (empty.feed rest).fault, (empty.feed rest).decoder⟩ := by
  have hnext := (h.append chunk).next
  rw [hf] at hnext
  exact drain_take hnext

/-- Between two chunks a decoder has nothing to do. -/
structure Idle (d : Decoder) : Prop extends Scanned d where
  waiting : front d.buffer = .unfinished

theorem Idle.empty : empty.Idle where
  toScanned := .fresh []
  waiting := rfl

@[simp] theorem empty_append (s : Bytes) : empty.buffer ++ s = s := rfl

theorem Idle.parse_buffer {d : Decoder} (h : d.Idle) : parse d.buffer = ⟨[], none, d.buffer⟩ :=
  parse_unfinished h.waiting

theorem Idle.feed_idle {d : Decoder} (h : d.Idle) {chunk : Bytes}
    (hf : (parse (d.buffer ++ chunk)).fault = none) : (d.feed chunk).decoder.Idle := by
  have hleft := front_left (d.buffer ++ chunk)
  rw [hf, ← h.feed_buffer chunk] at hleft
  exact { h.feed_scanned chunk with waiting := hleft }

/-- What a decoder hands on when it is fed chunk by chunk. -/
def feeds (d : Decoder) : List Bytes → List (Except Fault (List String))
  | [] => []
  | chunk :: r => (d.feed chunk).bodies :: (d.feed chunk).decoder.feeds r

/-- The decoder after some chunks. -/
def fed (d : Decoder) : List Bytes → Decoder
  | [] => d
  | chunk :: r => (d.feed chunk).decoder.fed r

theorem Scanned.fed {d : Decoder} (h : d.Scanned) (chunks : List Bytes) :
    (d.fed chunks).Scanned := by
  induction chunks generalizing d with
  | nil => exact h
  | cons chunk r ih => exact ih (h.feed_scanned chunk)

@[simp] theorem feeds_length (d : Decoder) (chunks : List Bytes) :
    (d.feeds chunks).length = chunks.length := by
  induction chunks generalizing d with
  | nil => rfl
  | cons chunk r ih => simp [feeds, ih]

theorem fed_append (d : Decoder) (u v : List Bytes) : d.fed (u ++ v) = (d.fed u).fed v := by
  induction u generalizing d with
  | nil => rfl
  | cons chunk u ih => exact ih (d.feed chunk).decoder

theorem feeds_append (d : Decoder) (u v : List Bytes) :
    d.feeds (u ++ v) = d.feeds u ++ (d.fed u).feeds v := by
  induction u generalizing d with
  | nil => rfl
  | cons chunk u ih => simp [feeds, fed, ih]

/-- As long as no header block is refused, every chunk is taken. -/
theorem Idle.feeds_ok {d : Decoder} (h : d.Idle) {chunks : List Bytes}
    (hf : (parse (d.buffer ++ chunks.flatten)).fault = none) :
    ∃ bodies : List (List String), d.feeds chunks = bodies.map .ok ∧
      bodies.flatten = (parse (d.buffer ++ chunks.flatten)).frames.map text ∧
      (d.fed chunks).buffer = (parse (d.buffer ++ chunks.flatten)).left ∧
      (d.fed chunks).Idle := by
  induction chunks generalizing d with
  | nil =>
    refine ⟨[], rfl, ?_, ?_, h⟩ <;> simp [h.parse_buffer, fed]
  | cons chunk r ih =>
    rw [List.flatten_cons, ← List.append_assoc] at hf ⊢
    have hchunk := fault_of_append hf
    rw [parse_append hchunk] at hf ⊢
    rw [← h.feed_buffer chunk] at hf ⊢
    obtain ⟨bodies, hb, htexts, hbuffer, hidle⟩ := ih (h.feed_idle hchunk) hf
    refine ⟨(parse (d.buffer ++ chunk)).frames.map text :: bodies, ?_, ?_, hbuffer, hidle⟩
    · rw [feeds, h.feed_bodies hchunk, hb]
      rfl
    · rw [List.flatten_cons, htexts, List.map_append]

/-! ### After a refusal -/

/-- A decoder with a refused header block at the front. It never gets past it. -/
structure Refusing (d : Decoder) (fault : Fault) : Prop extends Scanned d where
  block : front d.buffer = .refused fault

theorem Scanned.refusing {d : Decoder} (h : d.Scanned) {chunk : Bytes} {fault : Fault}
    (hf : (d.feed chunk).bodies = .error fault) : (d.feed chunk).decoder.Refusing fault := by
  have hleft := front_left (d.buffer ++ chunk)
  cases hp : (parse (d.buffer ++ chunk)).fault with
  | none =>
    rw [h.feed_bodies hp] at hf
    cases hf
  | some fault' =>
    rw [h.feed_fault hp] at hf
    cases hf
    rw [hp, ← h.feed_buffer chunk] at hleft
    exact { h.feed_scanned chunk with block := hleft }

/-- A chunk that comes too late is held back, and nothing else happens to it. -/
theorem Refusing.feed {d : Decoder} {fault : Fault} (h : d.Refusing fault) (chunk : Bytes) :
    (d.feed chunk).frames = [] ∧ (d.feed chunk).bodies = .error fault ∧
      (d.feed chunk).decoder.buffer = d.buffer ++ chunk ∧
      (d.feed chunk).decoder.Refusing fault := by
  have hblock := front_append_refused h.block chunk
  obtain ⟨hbodies, hbuffer⟩ := h.feed_refused hblock
  obtain ⟨k, hk, _⟩ := h.toScanned.feed chunk
  refine ⟨?_, hbodies, hbuffer, h.refusing hbodies⟩
  rw [hk, parse_refused hblock]

theorem Refusing.fed {d : Decoder} {fault : Fault} (h : d.Refusing fault) (chunks : List Bytes) :
    (d.fed chunks).Refusing fault := by
  induction chunks generalizing d with
  | nil => exact h
  | cons chunk r ih => exact ih (h.feed chunk).2.2.2

theorem Refusing.feeds {d : Decoder} {fault : Fault} (h : d.Refusing fault) (chunks : List Bytes) :
    d.feeds chunks = List.replicate chunks.length (.error fault) := by
  induction chunks generalizing d with
  | nil => rfl
  | cons chunk r ih =>
    obtain ⟨_, hbodies, _, hstill⟩ := h.feed chunk
    rw [Decoder.feeds, hbodies, ih hstill]
    rfl

/-- A refused header block fails the first chunk by which it is complete, and all later ones. -/
theorem Idle.feeds_fault {d : Decoder} (h : d.Idle) {chunks : List Bytes} {fault : Fault}
    (hf : (parse (d.buffer ++ chunks.flatten)).fault = some fault) :
    ∃ before chunk later, chunks = before ++ chunk :: later ∧
      (parse (d.buffer ++ before.flatten)).fault = none ∧
      (parse (d.buffer ++ (before.flatten ++ chunk))).fault = some fault ∧
      (d.fed before).feeds (chunk :: later) =
        List.replicate (later.length + 1) (.error fault) := by
  induction chunks generalizing d with
  | nil => simp [h.parse_buffer] at hf
  | cons chunk r ih =>
    rw [List.flatten_cons, ← List.append_assoc] at hf
    cases hchunk : (parse (d.buffer ++ chunk)).fault with
    | some fault' =>
      rw [parse_append_refused hchunk] at hf
      cases hf
      refine ⟨[], chunk, r, rfl, by simp [h.parse_buffer], by simpa using hchunk, ?_⟩
      rw [fed, feeds, (h.refusing (h.feed_fault hchunk)).feeds, h.feed_fault hchunk,
        List.replicate_succ]
    | none =>
      have happend (t : Bytes) := parse_append hchunk t
      rw [← h.feed_buffer chunk] at happend
      rw [happend] at hf
      obtain ⟨before, last, later, rfl, hbefore, hlast, hfails⟩ := ih (h.feed_idle hchunk) hf
      refine ⟨chunk :: before, last, later, rfl, ?_, ?_, hfails⟩
      · rw [List.flatten_cons, ← List.append_assoc, happend]
        exact hbefore
      · rw [List.flatten_cons, List.append_assoc, ← List.append_assoc, happend]
        exact hlast

/-- The chunk with the last byte of a refused header block is the first to fail. The chunks before
it hand on the frames that are complete by then. -/
theorem feeds_of_fault {chunks : List Bytes} {fault : Fault} {header after : Bytes}
    (hf : (parse chunks.flatten).fault = some fault)
    (hc : cut (parse chunks.flatten).left = some (header, after)) :
    ∃ before chunk later, ∃ bodies : List (List String),
      chunks = before ++ chunk :: later ∧
      before.flatten.length <
        ((parse chunks.flatten).frames.flatMap bytes).length + (header ++ terminator).length ∧
      ((parse chunks.flatten).frames.flatMap bytes).length + (header ++ terminator).length ≤
        (before.flatten ++ chunk).length ∧
      empty.feeds chunks =
        bodies.map .ok ++ List.replicate (later.length + 1) (.error fault) ∧
      bodies.length = before.length ∧
      bodies.flatten =
        (within before.flatten.length (parse chunks.flatten).frames).map text := by
  obtain ⟨before, chunk, later, rfl, hbefore, hchunk, hfails⟩ := Idle.empty.feeds_fault hf
  obtain ⟨bodies, hb, htexts, _, _⟩ := Idle.empty.feeds_ok hbefore
  rw [empty_append] at hbefore hchunk htexts
  have hsplit : (before ++ chunk :: later).flatten =
      before.flatten ++ (chunk ++ later.flatten) := by simp
  have hsplit' : (before ++ chunk :: later).flatten =
      (before.flatten ++ chunk) ++ later.flatten := by simp
  refine ⟨before, chunk, later, bodies, rfl, ?_, ?_, ?_, ?_, ?_⟩
  · rw [hsplit] at hf hc ⊢
    simpa using (fault_eq_none_iff hf hc).1 hbefore
  · rw [hsplit'] at hf hc ⊢
    have hge := mt (fault_eq_none_iff hf hc).2 (by simp [hchunk])
    simpa using hge
  · rw [feeds_append, hb, hfails]
  · simpa using (congrArg List.length hb).symm
  · rw [htexts, hsplit, within_parse hbefore]

/-- However a stream is cut into chunks, the decoder hands on the frames of the stream. If the
stream ends in a header block that is refused, the chunk with the last byte of this block is the
first to fail, and what has been handed on before are the frames that were complete by then. -/
theorem feeds_eq_parse (chunks : List Bytes) :
    match (parse chunks.flatten).fault with
    | none =>
      ∃ bodies : List (List String), empty.feeds chunks = bodies.map .ok ∧
        bodies.flatten = (parse chunks.flatten).frames.map text ∧
        (empty.fed chunks).buffer.length = (parse chunks.flatten).left.length
    | some fault =>
      ∃ before chunk later header after, ∃ bodies : List (List String),
        chunks = before ++ chunk :: later ∧
        cut (parse chunks.flatten).left = some (header, after) ∧
        before.flatten.length <
          ((parse chunks.flatten).frames.flatMap bytes).length + (header ++ terminator).length ∧
        ((parse chunks.flatten).frames.flatMap bytes).length + (header ++ terminator).length ≤
          (before.flatten ++ chunk).length ∧
        empty.feeds chunks =
          bodies.map .ok ++ List.replicate (later.length + 1) (.error fault) ∧
        bodies.length = before.length ∧
        bodies.flatten =
          (within before.flatten.length (parse chunks.flatten).frames).map text := by
  cases hf : (parse chunks.flatten).fault with
  | none =>
    obtain ⟨bodies, hb, htexts, hbuffer, _⟩ := Idle.empty.feeds_ok hf
    exact ⟨bodies, hb, htexts, by rw [hbuffer, empty_append]⟩
  | some fault =>
    have hrefused : front (parse chunks.flatten).left = .refused fault := by rw [front_left, hf]
    obtain ⟨header, after, hc, _⟩ := cut_of_refused hrefused
    obtain ⟨before, chunk, later, bodies, hsplit, hbefore, hchunk, hfeeds⟩ := feeds_of_fault hf hc
    exact ⟨before, chunk, later, header, after, bodies, hsplit, hc, hbefore, hchunk, hfeeds⟩

end Decoder
end HoverServer.Frame
