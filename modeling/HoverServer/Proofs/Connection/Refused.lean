import HoverServer.Proofs.Connection.Serve

/-! A stream of frames with a refused header block behind them. A decoder that fails hands on
nothing, so the bodies that only the failing chunk completes are lost, and with them their
responses. Which bodies these are depends on how the stream is cut into reads. -/
namespace HoverServer
open HoverServer.Frame (Decoder)

namespace Bytes

/-- The number of bytes in front of the chunk that brings the byte of number `n`. -/
def lead (n : Nat) : List Bytes → Nat
  | [] => 0
  | chunk :: r => if chunk.length < n then chunk.length + lead (n - chunk.length) r else 0

theorem lead_append {n : Nat} {before : List Bytes} {chunk : Bytes}
    (hbefore : before.flatten.length < n) (hchunk : n ≤ (before.flatten ++ chunk).length)
    (later : List Bytes) : lead n (before ++ chunk :: later) = before.flatten.length := by
  induction before generalizing n with
  | nil =>
    have hn : ¬ chunk.length < n := Nat.not_lt.2 (by simpa using hchunk)
    rw [List.nil_append, lead, if_neg hn]
    rfl
  | cons first before ih =>
    simp only [List.flatten_cons, List.length_append] at hbefore hchunk ⊢
    rw [List.cons_append, lead, if_pos (by omega),
      ih (by omega) (by rw [List.length_append]; omega)]

end Bytes

namespace Dialogue

theorem bytes_eq_nil_iff (d : Dialogue) : d.bytes = [] ↔ d.responses = [] := by
  rw [bytes, List.flatMap_eq_nil_iff, List.eq_nil_iff_forall_not_mem]
  exact forall₂_congr fun r _ => iff_false_intro (Frame.encode_ne_nil _)

/-- No turn has anything to do with frames. -/
theorem turn_ne_framing (p : Policies) (s : Session) (text : String) (fault : Frame.Fault) :
    (turn p s text).ending ≠ some (.error (.framing fault)) := by
  have hturn := turn_cases p s text
  generalize turn p s text = d at hturn ⊢
  cases hturn <;> simp

theorem ofTexts_ne_framing (p : Policies) (s : Session) (texts : List String)
    (fault : Frame.Fault) : (ofTexts p s texts).ending ≠ some (.error (.framing fault)) := by
  induction texts generalizing s with
  | nil => simp [ofTexts]
  | cons text more ih =>
    rw [ofTexts]
    cases h : (turn p s text).ending with
    | some e =>
      rw [andThen_of_some h]
      exact turn_ne_framing p s text fault
    | none =>
      rw [andThen_of_none h]
      exact ih _

end Dialogue

/-- Whatever cuts a dialogue off could be its last turn as well. -/
theorem Served.Had.of_ending {served : Served} {sink : Sink} {d : Dialogue}
    {e cutOff : Except ServeError Termination}
    (h : served.Had sink (d.andThen fun s => ⟨s, [], some e⟩) cutOff) : served.Had sink d e := by
  cases hd : d.ending with
  | some e' =>
    rw [Dialogue.andThen_of_some hd] at h
    refine ⟨?_, h.sink⟩
    rw [h.outcome, hd]
    rfl
  | none =>
    have hout := h.outcome
    have hsink := h.sink
    rw [Dialogue.andThen_of_none hd] at hout
    rw [Dialogue.bytes_andThen hd] at hsink
    refine ⟨?_, ?_⟩
    · rw [hout, hd]
      rfl
    · rw [hsink]
      exact congrArg sink.took (List.append_nil _)

/-- Of a dialogue that is cut off somewhere, the rest is missed unless there is nothing in it. -/
theorem Served.Had.andThen_iff {served : Served} {sink : Sink} {d : Dialogue}
    {more : Session → Dialogue} {cutOff : Except ServeError Termination}
    (h : served.Had sink d cutOff) (hmore : (more d.session).ending ≠ some cutOff) :
    served.Had sink (d.andThen more) cutOff ↔
      d.ending ≠ none ∨
        (more d.session).responses = [] ∧ (more d.session).ending = none := by
  cases hd : d.ending with
  | some e =>
    rw [Dialogue.andThen_of_some hd]
    simp [h]
  | none =>
    have hout := h.outcome
    rw [hd, Option.getD_none] at hout
    have hbytes := Dialogue.bytes_andThen hd more
    have hending : (d.andThen more).ending = (more d.session).ending := by
      rw [Dialogue.andThen_of_none hd]
    simp only [ne_eq, not_true_eq_false, false_or]
    constructor
    · intro hw
      have hsame := hw.sink.symm.trans h.sink
      rw [Sink.took_inj, hbytes, List.append_right_eq_self, Dialogue.bytes_eq_nil_iff] at hsame
      have hcut := hw.outcome
      rw [hout, hending] at hcut
      cases he : (more d.session).ending with
      | none => exact ⟨hsame, rfl⟩
      | some e =>
        rw [he] at hcut hmore
        exact absurd (congrArg some hcut.symm) hmore
    · rintro ⟨hr, he⟩
      refine ⟨?_, ?_⟩
      · rw [hout, hending, he, Option.getD_none]
      · rw [h.sink, hbytes, (Dialogue.bytes_eq_nil_iff _).2 hr, List.append_nil]

/-- What comes out of a stream of frames with a refused header block behind them: the bodies that
arrived whole before the chunk with the end of this block are handled, and no others. -/
theorem serve_before_fault (p : Policies) {bodies : List Bytes} {tail header after : Bytes}
    {fault : Frame.Fault} (hbodies : ∀ b ∈ bodies, b.length < Bytes.limit)
    (hheader : Frame.cut tail = some (header, after))
    (hfault : Frame.payloadLength header = .error fault) {reads : List Read}
    (hreads : Read.Delivers reads (bodies.flatMap Frame.encode ++ tail)) {sink : Sink}
    (hsink : sink.Tireless) :
    let lead := Bytes.lead ((bodies.flatMap Frame.encode).length +
      (header ++ Frame.terminator).length) (Read.arrivals reads)
    let whole := (Frame.within lead (bodies.map Frame.ofPayload)).length
    (serve p reads sink).Had sink
      (Dialogue.ofTexts p .fresh ((bodies.map Text.Lossy.decode).take whole))
      (.error (.framing fault)) := by
  intro lead whole
  have hparse := Frame.parse_encode hbodies tail
  rw [Frame.parse_refused (Frame.front_of_error hheader hfault), List.append_nil,
    ← hreads.chunks.2] at hparse
  have hbytes : (bodies.map Frame.ofPayload).flatMap Frame.bytes = bodies.flatMap Frame.encode :=
    List.flatMap_map ..
  obtain ⟨before, chunk, later, texts, hsplit, hbefore, hchunk, hfeeds, _, hflat⟩ :=
    Decoder.feeds_of_fault (congrArg Frame.Parse.fault hparse)
      (by rw [hparse]; exact hheader)
  rw [hparse, hbytes] at hbefore hchunk
  have hlead : lead = before.flatten.length := by
    simp only [lead]
    rw [hsplit]
    exact Bytes.lead_append hbefore hchunk later
  have hserved := serve_ofFeeds hsink p hreads
  rw [hfeeds, Dialogue.ofFeeds_ok, hflat, hparse, ← hlead, Frame.within_eq_take, List.map_take,
    List.map_map, List.replicate_succ] at hserved
  exact hserved.of_ending

/-- If everything comes in one read, no body is handled at all. -/
theorem serve_fault_at_once (p : Policies) {bodies : List Bytes} {tail header after : Bytes}
    {fault : Frame.Fault} (hbodies : ∀ b ∈ bodies, b.length < Bytes.limit)
    (hheader : Frame.cut tail = some (header, after))
    (hfault : Frame.payloadLength header = .error fault)
    (hshort : (bodies.flatMap Frame.encode ++ tail).length ≤ Read.chunkSize) {sink : Sink}
    (hsink : sink.Tireless) :
    (serve p [.bytes (bodies.flatMap Frame.encode ++ tail)] sink).Had sink ⟨.fresh, [], none⟩
      (.error (.framing fault)) := by
  have htail := Frame.length_of_cut hheader
  have hne : bodies.flatMap Frame.encode ++ tail ≠ [] := by
    apply List.ne_nil_of_length_pos
    rw [List.length_append]
    omega
  have h := serve_before_fault p hbodies hheader hfault (Read.delivers_single hne) hsink
  dsimp only at h
  have hlead : ¬ (bodies.flatMap Frame.encode ++ tail).length <
      (bodies.flatMap Frame.encode).length + (header ++ Frame.terminator).length := by
    simp only [List.length_append, Frame.terminator_length]
    omega
  rw [Read.arrivals_bytes hne hshort, Bytes.lead, if_neg hlead, Frame.within_zero] at h
  exact h

/-- So it is not true that the bodies in front of a refused header block are always handled. A
call to shut down that shares a read with such a block is left without an answer. -/
theorem not_forall_serve_refused :
    ¬ ∀ (p : Policies) (bodies : List Bytes) (tail header after : Bytes) (fault : Frame.Fault)
      (reads : List Read) (sink : Sink), (∀ b ∈ bodies, b.length < Bytes.limit) →
      Frame.cut tail = some (header, after) → Frame.payloadLength header = .error fault →
      Read.Delivers reads (bodies.flatMap Frame.encode ++ tail) → sink.Tireless →
      (serve p reads sink).Had sink
        (Dialogue.ofTexts p .fresh (bodies.map Text.Lossy.decode)) (.error (.framing fault)) := by
  intro h
  have hbodies : ∀ b ∈ [Bytes.ofString Request.farewell.encode], b.length < Bytes.limit := by decide
  have hheader : Frame.cut Frame.terminator = some ([], []) := by decide
  have hclaim := h .standard _ _ _ _ .missingLength _ .perfect hbodies hheader rfl
    (Read.delivers_single (by decide)) Sink.tireless_perfect
  have htrue := serve_fault_at_once .standard hbodies hheader rfl (by decide) Sink.tireless_perfect
  have hout := hclaim.outcome.symm.trans htrue.outcome
  rw [List.map_singleton, Text.Lossy.decode_ofString, Dialogue.ofTexts_farewell] at hout
  cases hout

/-- The bodies in front of a refused header block are handled as they should be just if those that
were whole before its last chunk end the connection, or the others call for nothing. -/
theorem serve_refused_iff (p : Policies) {bodies : List Bytes} {tail header after : Bytes}
    {fault : Frame.Fault} (hbodies : ∀ b ∈ bodies, b.length < Bytes.limit)
    (hheader : Frame.cut tail = some (header, after))
    (hfault : Frame.payloadLength header = .error fault) {reads : List Read}
    (hreads : Read.Delivers reads (bodies.flatMap Frame.encode ++ tail)) {sink : Sink}
    (hsink : sink.Tireless) :
    let lead := Bytes.lead ((bodies.flatMap Frame.encode).length +
      (header ++ Frame.terminator).length) (Read.arrivals reads)
    let whole := (Frame.within lead (bodies.map Frame.ofPayload)).length
    let texts := bodies.map Text.Lossy.decode
    let early := Dialogue.ofTexts p .fresh (texts.take whole)
    let late := Dialogue.ofTexts p early.session (texts.drop whole)
    (serve p reads sink).Had sink early (.error (.framing fault)) ∧
      ((serve p reads sink).Had sink (Dialogue.ofTexts p .fresh texts) (.error (.framing fault)) ↔
        early.ending ≠ none ∨ late.responses = [] ∧ late.ending = none) := by
  intro lead whole texts early late
  have hhad : (serve p reads sink).Had sink early (.error (.framing fault)) :=
    serve_before_fault p hbodies hheader hfault hreads hsink
  refine ⟨hhad, ?_⟩
  have hall : Dialogue.ofTexts p .fresh texts =
      early.andThen fun s => Dialogue.ofTexts p s (texts.drop whole) := by
    rw [← Dialogue.ofTexts_append, List.take_append_drop]
  rw [hall]
  exact hhad.andThen_iff (Dialogue.ofTexts_ne_framing p early.session _ fault)

/-- A call to shut down that has a read to itself is answered. -/
theorem serve_farewell_before_fault :
    let stream := [Bytes.ofString Request.farewell.encode].flatMap Frame.encode
    (serve .standard [.bytes stream, .bytes Frame.terminator] .perfect).Had .perfect
      ⟨⟨.shuttingDown, none⟩, [⟨Request.farewell.id, .result .null⟩], some (.ok .shutdown)⟩
      (.error (.framing .missingLength)) := by
  intro stream
  have hbodies : ∀ b ∈ [Bytes.ofString Request.farewell.encode], b.length < Bytes.limit := by decide
  have hheader : Frame.cut Frame.terminator = some ([], []) := by decide
  have hreads : Read.Delivers [.bytes stream, .bytes Frame.terminator]
      (stream ++ Frame.terminator) := by decide
  obtain ⟨h, _⟩ := serve_refused_iff .standard hbodies hheader rfl hreads Sink.tireless_perfect
  have harrivals : Read.arrivals [.bytes stream, .bytes Frame.terminator] =
      [stream, Frame.terminator] := by
    rw [Read.arrivals_bytes (by decide) (by decide), Read.arrivals_bytes (by decide) (by decide)]
    rfl
  have hlead : Bytes.lead (stream.length + (([] : Bytes) ++ Frame.terminator).length)
      [stream, Frame.terminator] = stream.length := by decide
  have hwhole : Frame.within stream.length
      ([Bytes.ofString Request.farewell.encode].map Frame.ofPayload) =
      [Frame.ofPayload (Bytes.ofString Request.farewell.encode)] := by decide
  rw [harrivals, hlead, hwhole, List.map_singleton, Text.Lossy.decode_ofString] at h
  rw [← Dialogue.ofTexts_farewell .standard]
  exact h

end HoverServer
