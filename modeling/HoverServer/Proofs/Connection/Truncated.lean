import HoverServer.Proofs.Connection.Serve

/-! One input and two sinks to answer it on: one that never fails, and one that may. A sink that
fails only truncates the output. It gets the same messages in the same order, and its failure is
the last thing that happens to it. -/
namespace HoverServer
open HoverServer.Frame (Decoder)

/-- A served connection has sent the messages of its dialogue as far as its sink let it. -/
theorem serve_relays (p : Policies) (reads : List Read) (sink : Sink) :
    let chunks := reads.flatMap Read.chunks
    let d := Dialogue.ofFeeds p .fresh (Decoder.empty.feeds (Read.arriving chunks))
    (serve p reads sink).connection.sink = (sink.sendAll d.messages).2 ∧
      ((sink.sendAll d.messages).1 = none →
        (serve p reads sink).outcome = d.ending.getD (Read.stop chunks)) ∧
      ∀ e, (sink.sendAll d.messages).1 = some e → (serve p reads sink).outcome = .error (.io e) :=
  Connection.run_relays (c := .start p sink) Session.fresh_isOpen.ne_exited _

/-- A served connection does not put more into its sink than there is room for. -/
theorem serve_within {sink : Sink} {n : Nat} (h : sink.Within n) (p : Policies)
    (reads : List Read) : (serve p reads sink).connection.sink.Within n := by
  obtain ⟨hsink, _⟩ := serve_relays p reads sink
  rw [hsink]
  exact h.sendAll _

/-- Either a sink makes no difference to the result and gets the whole output, or its failure is
the result and the output broke off with it: within a message if it was a write that failed, and
at the end of one if it was a flush. -/
theorem serve_truncated (p : Policies) (reads : List Read) {ideal : Sink} (h : ideal.Tireless)
    (sink : Sink) :
    let whole := serve p reads ideal
    let got := serve p reads sink
    ∃ responses : List Response,
      let messages := responses.map fun r => Frame.encode (Bytes.ofString r.encode)
      whole.connection.sink = ideal.took messages.flatten ∧
        (got.outcome = whole.outcome ∧
            got.connection.sink.accepted = sink.accepted ++ messages.flatten ∨
          ∃ e, got.outcome = .error (.io e) ∧ sink.BrokeOff messages e got.connection.sink ∧
            ∃ out, got.connection.sink.accepted = sink.accepted ++ out ∧
              out <+: messages.flatten) := by
  intro whole got
  obtain ⟨hwhole, hresult, _⟩ := serve_relays p reads ideal
  obtain ⟨hgot, hsame, hfailed⟩ := serve_relays p reads sink
  rw [h.sendAll] at hwhole hresult
  refine ⟨_, hwhole, ?_⟩
  obtain ⟨hnone, haccepted⟩ | ⟨e, hsome, hbroke⟩ := sink.sendAll_cases (Dialogue.messages _)
  · left
    refine ⟨(hsame hnone).trans (hresult rfl).symm, ?_⟩
    rw [hgot]
    exact haccepted
  · right
    rw [← hgot] at hbroke
    exact ⟨e, hfailed e hsome, hbroke, hbroke.accepted_prefix⟩

/-- The answer to a call to shut down, on a sink that is full after ten bytes. -/
theorem serve_truncated_farewell :
    let reads : List Read := [.bytes (Frame.encode (Bytes.ofString Request.farewell.encode))]
    let answer :=
      Frame.encode (Bytes.ofString (Response.encode ⟨Request.farewell.id, .result .null⟩))
    let got := serve .standard reads
      ⟨[], fun n => n, some 10, none, none, ⟨.brokenPipe, "broken pipe"⟩⟩
    (serve .standard reads .perfect).connection.sink.accepted = answer ∧
      got.outcome = .error (.io .writeZero) ∧
      got.connection.sink.accepted = answer.take 10 := by
  intro reads answer got
  have hreads : Read.Delivers reads
      ([Bytes.ofString Request.farewell.encode].flatMap Frame.encode) := by decide
  have hideal : (serve .standard reads .perfect).connection.sink = Sink.perfect.took answer := by
    rw [(serve_farewell Sink.tireless_perfect .standard hreads).sink, Dialogue.bytes,
      List.flatMap_singleton]
  refine ⟨by rw [hideal, Sink.perfect_took], ?_⟩
  have hlong : 10 < answer.length := by decide
  have hwithin : got.connection.sink.Within 10 := serve_within ⟨rfl, Nat.zero_le 10⟩ .standard reads
  obtain ⟨responses, hwhole, hgot⟩ := serve_truncated .standard reads Sink.tireless_perfect
    ⟨[], fun n => n, some 10, none, none, ⟨.brokenPipe, "broken pipe"⟩⟩
  rw [hideal, Sink.took_inj] at hwhole
  rw [← hwhole] at hgot
  obtain ⟨_, haccepted⟩ | ⟨e, hout, hbroke, out, haccepted, hbegins⟩ := hgot
  · have hle := hwithin.accepted
    rw [haccepted, List.nil_append] at hle
    exact absurd hle (Nat.not_le.2 hlong)
  · rw [List.nil_append] at haccepted
    cases hbroke with
    | writing _ _ _ full _ _ _ =>
      obtain ⟨n, hroom, hfull⟩ := full
      cases hwithin.room.symm.trans hroom
      -- it is full, but has no more than there is room for
      have hten : out.length = 10 := haccepted ▸ Nat.le_antisymm hwithin.accepted hfull
      exact ⟨hout, by rw [haccepted, List.prefix_iff_eq_take.1 hbegins, hten]⟩
    | flushing _ _ _ flushes _ _ => cases flushes

end HoverServer
