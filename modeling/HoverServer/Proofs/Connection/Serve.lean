import HoverServer.Proofs.Connection.Relay
import HoverServer.Proofs.Frame.Encode
import HoverServer.Proofs.Text.Lossy

/-! A served connection against the dialogue its client means to have. However the frames are cut
into reads, and however often a read is interrupted, the responses and the outcome are those of
the dialogue; a last frame that never becomes complete makes no difference. -/
namespace HoverServer
open HoverServer.Frame (Decoder)

namespace Connection

/-- A connection that is driven by its reads has the dialogue that its decoder feeds. -/
theorem run_ofFeeds {c : Connection} (h : c.sink.Tireless) (hs : c.session.phase ≠ .exited)
    {reads : List Read} (hr : ∀ r ∈ reads, r.Steady) :
    (c.run reads).outcome =
        (Dialogue.ofFeeds c.policies c.session
          (c.decoder.feeds (reads.filterMap Read.bytes?))).ending.getD (.ok .endOfInput) ∧
      (c.run reads).connection.sink =
        c.sink.took (Dialogue.ofFeeds c.policies c.session
          (c.decoder.feeds (reads.filterMap Read.bytes?))).bytes := by
  obtain ⟨harriving, hstop⟩ := Read.arriving_steady hr
  obtain ⟨hsink, hwhole, _⟩ := run_relays hs reads
  rw [harriving, h.sendAll, Dialogue.flatten_messages] at hsink
  rw [harriving, hstop, h.sendAll] at hwhole
  exact ⟨hwhole rfl, hsink⟩

/-- A frame that comes at once is a turn of the dialogue, and nothing of it is held back. -/
theorem receive_encode {c : Connection} (h : c.decoder.Scanned) (hbuffer : c.decoder.buffer = [])
    (hs : c.session.phase ≠ .exited) (text : String)
    (htext : (Bytes.ofString text).length < Bytes.limit) :
    let got := c.receive (Frame.encode (Bytes.ofString text))
    Relays c got (Dialogue.turn c.policies c.session text) ∧
      got.connection.decoder.buffer = [] := by
  intro got
  have hparse : Frame.parse (c.decoder.buffer ++ Frame.encode (Bytes.ofString text)) =
      ⟨[Frame.ofPayload (Bytes.ofString text)], none, []⟩ := by
    rw [hbuffer, List.nil_append, ← List.flatMap_singleton Frame.encode,
      Frame.parse_bodies (List.forall_mem_singleton.2 htext), List.map_singleton]
  have hbodies := h.feed_bodies (congrArg Frame.Parse.fault hparse)
  rw [hparse, List.map_singleton, Frame.text, Frame.ofPayload, Text.Lossy.decode_ofString]
    at hbodies
  have hrelays := receive_relays_ok hs hbodies
  rw [Dialogue.ofTexts_singleton] at hrelays
  refine ⟨hrelays, ?_⟩
  rw [(receive_frame hs _).2, h.feed_buffer, hparse]

end Connection

/-- A connection was served a dialogue. Where the dialogue does not end by itself, it was cut off
like this. -/
structure Served.Had (served : Served) (sink : Sink) (d : Dialogue)
    (cutOff : Except ServeError Termination) : Prop where
  outcome : served.outcome = d.ending.getD cutOff
  sink : served.connection.sink = sink.took d.bytes

theorem serve_ofFeeds {sink : Sink} (h : sink.Tireless) (p : Policies) {reads : List Read}
    {s : Bytes} (hd : Read.Delivers reads s) :
    (serve p reads sink).Had sink
      (Dialogue.ofFeeds p .fresh (Decoder.empty.feeds (Read.arrivals reads))) (.ok .endOfInput) :=
  have hrun := Connection.run_ofFeeds (c := .start p sink) h Session.fresh_isOpen.ne_exited hd.chunks.1
  ⟨hrun.1, hrun.2⟩

/-- As long as no header block is refused, the cuts between the chunks do not show. -/
theorem Frame.Decoder.Idle.ofFeeds_eq {d : Decoder} (h : d.Idle) {chunks : List Bytes}
    (hopen : (Frame.parse (d.buffer ++ chunks.flatten)).fault = none) (p : Policies)
    (s : Session) :
    Dialogue.ofFeeds p s (d.feeds chunks) =
      Dialogue.ofTexts p s ((Frame.parse (d.buffer ++ chunks.flatten)).frames.map Frame.text) := by
  obtain ⟨texts, htexts, hflat, _, _⟩ := h.feeds_ok hopen
  have hdialogue := Dialogue.ofFeeds_ok p s texts []
  rw [List.append_nil, ← htexts, hflat] at hdialogue
  exact hdialogue.trans (Dialogue.andThen_silent _)

/-- As long as no header block is refused, the cuts between the reads do not show. -/
theorem serve_of_parse {sink : Sink} (h : sink.Tireless) (p : Policies) {reads : List Read}
    {s : Bytes} (hd : Read.Delivers reads s) (hopen : (Frame.parse s).fault = none) :
    (serve p reads sink).Had sink
      (Dialogue.ofTexts p .fresh ((Frame.parse s).frames.map Frame.text)) (.ok .endOfInput) := by
  rw [← hd.chunks.2, ← Decoder.empty_append (Read.arrivals reads).flatten] at hopen ⊢
  rw [← Decoder.Idle.empty.ofFeeds_eq hopen]
  exact serve_ofFeeds h p hd

/-- A client that only asks to shut down is answered, and that is all. -/
theorem serve_farewell {sink : Sink} (h : sink.Tireless) (p : Policies) {reads : List Read}
    (hd : Read.Delivers reads ([Bytes.ofString Request.farewell.encode].flatMap Frame.encode)) :
    (serve p reads sink).Had sink
      ⟨⟨.shuttingDown, none⟩, [⟨Request.farewell.id, .result .null⟩], some (.ok .shutdown)⟩
      (.ok .endOfInput) := by
  have hbodies : ∀ b ∈ [Bytes.ofString Request.farewell.encode], b.length < Bytes.limit := by decide
  have hparse := Frame.parse_bodies hbodies
  have hhad := serve_of_parse h p hd (by rw [hparse])
  rw [hparse, List.map_map, List.map_singleton, Function.comp_apply, Frame.text, Frame.ofPayload,
    Text.Lossy.decode_ofString, Dialogue.ofTexts_farewell] at hhad
  exact hhad

/-- Frames that come in whole are a dialogue over the texts of their payloads, in order, and the
outcome is that of the first turn that ends it, or the end of the input. -/
theorem serve_eq_dialogue (p : Policies) {bodies : List Bytes} {last part : Bytes}
    (hbodies : ∀ b ∈ bodies, b.length < Bytes.limit) (hlast : last.length < Bytes.limit)
    (hpart : part <+: Frame.encode last) (hproper : part ≠ Frame.encode last)
    {reads : List Read} (hreads : Read.Delivers reads (bodies.flatMap Frame.encode ++ part))
    {sink : Sink} (hsink : sink.Tireless) :
    (serve p reads sink).Had sink
      (Dialogue.ofTexts p .fresh (bodies.map Text.Lossy.decode)) (.ok .endOfInput) := by
  have hparse := Frame.parse_encode hbodies part
  rw [Frame.parse_unfinished (Frame.front_of_prefix_encode hlast hpart hproper),
    List.append_nil] at hparse
  have h := serve_of_parse hsink p hreads (by rw [hparse])
  rw [hparse, List.map_map] at h
  exact h

/-- A call to shut down in two parts, with an interruption between them and the beginning of
another frame behind. -/
theorem serve_farewell_in_parts :
    let body := Bytes.ofString Request.farewell.encode
    let reads : List Read :=
      [.bytes ((Frame.encode body).take 30), .failure ⟨.interrupted, "interrupted"⟩,
        .bytes ((Frame.encode body).drop 30 ++ Frame.lengthName)]
    (serve .standard reads .perfect).outcome = .ok .shutdown ∧
      (serve .standard reads .perfect).connection.sink.accepted =
        Frame.encode (Bytes.ofString (Response.encode ⟨Request.farewell.id, .result .null⟩)) := by
  intro body reads
  have hbodies : ∀ b ∈ [body], b.length < Bytes.limit := by decide
  have hlast : ([] : Bytes).length < Bytes.limit := by decide
  have hreads : Read.Delivers reads ([body].flatMap Frame.encode ++ Frame.lengthName) := by decide
  have h := serve_eq_dialogue .standard hbodies hlast (by decide) (by decide) hreads
    Sink.tireless_perfect
  rw [List.map_singleton, Text.Lossy.decode_ofString, Dialogue.ofTexts_farewell] at h
  exact ⟨h.outcome, by rw [h.sink]; rfl⟩

end HoverServer
