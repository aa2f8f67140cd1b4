import HoverServer.Proofs.Connection.Calls
import HoverServer.Proofs.Connection.Refused

/-! A connection after a call that failed. It keeps no record of the failure: the next call takes
up what the decoder holds back and goes on from there. So only a header block that is refused
stops a connection for good. After any other failure it handles the next frame that becomes
complete, if one can. -/
namespace HoverServer
open HoverServer.Frame (Decoder)

/-- The message to leave at once. -/
def Request.leave : Request := ⟨none, "exit", none⟩

theorem Request.decode_leave : decode leave.encode = .ok leave :=
  Canonical.decode_encode ⟨fun _ h => (nomatch h), fun _ h => nomatch h⟩ (by decide)

/-- It is heard in every phase, and not answered. -/
theorem Dialogue.turn_leave (p : Policies) (s : Session) :
    turn p s Request.leave.encode =
      ⟨⟨.exited, s.client⟩, [], some (.ok (.exit (s.phase == .shuttingDown)))⟩ := by
  have hverdict : s.verdict Request.leave = .leave := by
    rw [Session.verdict]
    cases s.phase <;> rfl
  rw [turn, Request.decode_leave]
  simp only [Session.handle, hverdict]
  rfl

namespace Connection

/-- The connection after some calls, whatever they came to. -/
def after (c : Connection) : List Bytes → Connection
  | [] => c
  | chunk :: more => (c.receive chunk).connection.after more

variable {c : Connection} {chunk : Bytes}

theorem receive_scanned (h : c.decoder.Scanned) (chunk : Bytes) :
    (c.receive chunk).connection.decoder.Scanned := by
  by_cases hs : c.session.phase = .exited
  · rw [(receive_exited hs chunk).1]
    exact h
  · rw [(receive_frame hs chunk).2]
    exact h.feed_scanned chunk

theorem after_scanned (h : c.decoder.Scanned) (chunks : List Bytes) :
    (c.after chunks).decoder.Scanned := by
  induction chunks generalizing c with
  | nil => exact h
  | cons chunk more ih => exact ih (receive_scanned h chunk)

/-- Each call is made on the connection that the calls before it have left. -/
theorem mem_calls {chunks : List Bytes} {x : Received} (hx : x ∈ c.calls chunks) :
    ∃ before next after, chunks = before ++ next :: after ∧ x = (c.after before).receive next := by
  induction chunks generalizing c with
  | nil => exact absurd hx List.not_mem_nil
  | cons chunk more ih =>
    cases hx with
    | head => exact ⟨[], chunk, more, rfl, rfl⟩
    | tail _ hx =>
      obtain ⟨before, next, after, hmore, hreceive⟩ := ih hx
      exact ⟨chunk :: before, next, after, congrArg (chunk :: ·) hmore, hreceive⟩

/-! ### Where no frame can be completed -/

/-- A call that completes no frame does nothing but hold back its bytes. -/
theorem receive_stuck (h : c.decoder.Scanned) (hstuck : Frame.Stuck c.decoder.buffer)
    (chunk : Bytes) :
    (c.receive chunk).connection.sink = c.sink ∧
      (c.receive chunk).connection.session = c.session ∧
      Frame.Stuck (c.receive chunk).connection.decoder.buffer := by
  by_cases hs : c.session.phase = .exited
  · rw [(receive_exited hs chunk).1]
    exact ⟨rfl, rfl, hstuck⟩
  · have hbuffer : (c.receive chunk).connection.decoder.buffer = c.decoder.buffer ++ chunk := by
      rw [(receive_frame hs chunk).2, h.feed_buffer, hstuck.left]
    rw [hbuffer]
    cases hf : (Frame.parse (c.decoder.buffer ++ chunk)).fault with
    | none =>
      have hbodies : (c.decoder.feed chunk).bodies = .ok [] := by
        rw [h.feed_bodies hf, hstuck chunk, List.map_nil]
      rw [(receive_ok hs hbodies).1]
      exact ⟨rfl, rfl, hstuck.append chunk⟩
    | some fault =>
      rw [(receive_error hs (h.feed_fault hf)).1]
      exact ⟨rfl, rfl, hstuck.append chunk⟩

theorem calls_stuck (h : c.decoder.Scanned) (hstuck : Frame.Stuck c.decoder.buffer)
    (later : List Bytes) :
    ∀ x ∈ c.calls later, x.connection.sink = c.sink ∧ x.connection.session = c.session := by
  induction later generalizing c with
  | nil => exact fun x hx => absurd hx List.not_mem_nil
  | cons chunk more ih =>
    obtain ⟨hsink, hsession, hstill⟩ := receive_stuck h hstuck chunk
    intro x hx
    cases hx with
    | head => exact ⟨hsink, hsession⟩
    | tail _ hx =>
      have hmore := ih (receive_scanned h chunk) hstill x hx
      rwa [hsink, hsession] at hmore

/-- Where a header block has been refused, a call does nothing but hold back its bytes. -/
theorem receive_refusing (hs : c.session.phase ≠ .exited) {fault : Frame.Fault}
    (h : c.decoder.Refusing fault) (chunk : Bytes) :
    (c.receive chunk).connection = { c with decoder := (c.decoder.feed chunk).decoder } ∧
      (c.receive chunk).outcome = .error (.framing fault) :=
  receive_error hs (h.feed chunk).2.1

theorem after_refusing (hs : c.session.phase ≠ .exited) {fault : Frame.Fault}
    (h : c.decoder.Refusing fault) (later : List Bytes) :
    (c.after later).decoder.Refusing fault ∧ (c.after later).session = c.session ∧
      (c.after later).sink = c.sink := by
  induction later generalizing c with
  | nil => exact ⟨h, rfl, rfl⟩
  | cons chunk more ih =>
    rw [after, (receive_refusing hs h chunk).1]
    exact ih hs (h.feed chunk).2.2.2

/-- So every later call fails as the first one did. -/
theorem receive_after_refusing (hs : c.session.phase ≠ .exited) {fault : Frame.Fault}
    (h : c.decoder.Refusing fault) (later : List Bytes) (next : Bytes) :
    ((c.after later).receive next).outcome = .error (.framing fault) ∧
      ((c.after later).receive next).connection.sink = c.sink ∧
      ((c.after later).receive next).connection.session = c.session := by
  obtain ⟨hstill, hsession, hsink⟩ := after_refusing hs h later
  obtain ⟨hconnection, hout⟩ := receive_refusing (by rwa [hsession]) hstill next
  rw [hconnection]
  exact ⟨hout, hsink, hsession⟩

/-! ### Where a frame can be completed -/

/-- A message to leave is heard as soon as nothing is held back before it. -/
theorem receive_leave (h : c.decoder.Scanned) (hs : c.session.phase ≠ .exited)
    (hbuffer : c.decoder.buffer = []) :
    (c.receive (Frame.encode (Bytes.ofString Request.leave.encode))).connection.session =
      ⟨.exited, c.session.client⟩ := by
  obtain ⟨hrelays, _⟩ := receive_encode h hbuffer hs Request.leave.encode (by decide)
  rw [Dialogue.turn_leave] at hrelays
  exact (hrelays.whole rfl).1

/-- A connection that has nothing more to say has no frame to wait for. -/
theorem stuck_of_calls (h : c.decoder.Scanned) (hs : c.session.phase ≠ .exited)
    (hfront : ∀ f rest, Frame.front c.decoder.buffer ≠ .whole f rest)
    (hquiet : ∀ later, ∀ x ∈ c.calls later, x.connection.session = c.session) :
    Frame.Stuck c.decoder.buffer := by
  cases hf : Frame.front c.decoder.buffer with
  | whole f rest => exact absurd hf (hfront f rest)
  | refused fault => exact Frame.stuck_of_refused hf
  | unfinished =>
    apply Classical.byContradiction
    intro hstuck
    -- The frame that is completed may hold anything, and fail again. It leaves nothing behind,
    -- so the message to leave that comes after it is heard.
    obtain ⟨t, f, hparse⟩ := Frame.exists_completion hf hstuck
    let leave := Frame.encode (Bytes.ofString Request.leave.encode)
    have hfirst := hquiet [t, leave] (c.receive t) (List.mem_cons_self ..)
    have hsecond := hquiet [t, leave] ((c.receive t).connection.receive leave)
      (List.mem_cons_of_mem _ (List.mem_singleton.2 rfl))
    have hbuffer : (c.receive t).connection.decoder.buffer = [] := by
      rw [(receive_frame hs t).2, h.feed_buffer, hparse]
    have hleft := receive_leave (receive_scanned h t) (by rw [hfirst]; exact hs) hbuffer
    rw [hsecond, hfirst] at hleft
    exact hs (congrArg Session.phase hleft)

/-! ### After a failure -/

theorem handleAll_ne_framing (c : Connection) (texts : List String) (fault : Frame.Fault) :
    (c.handleAll texts).outcome ≠ .error (.framing fault) := by
  intro h
  have hrelays := handleAll_relays c texts
  have hdialogue := Dialogue.ofTexts_ne_framing c.policies c.session texts fault
  cases hsend : (c.sink.sendAll (Dialogue.ofTexts c.policies c.session texts).messages).1 with
  | some e =>
    rw [hrelays.broken e hsend] at h
    cases h
  | none => exact hdialogue (Dialogue.outcome_error_iff.1 ((hrelays.whole hsend).2.symm.trans h))

/-- A call that fails has not left the session. What its decoder holds back is not a frame, and a
refused header block if that is what the failure is about. -/
theorem receive_failed (h : c.decoder.Scanned) {e : ServeError}
    (hout : (c.receive chunk).outcome = .error e) :
    (c.receive chunk).connection.session.phase ≠ .exited ∧
      (∀ f rest, Frame.front (c.receive chunk).connection.decoder.buffer ≠ .whole f rest) ∧
      ∀ fault, e = .framing fault → (c.receive chunk).connection.decoder.Refusing fault := by
  have hs : c.session.phase ≠ .exited := by
    intro hs
    rw [(receive_exited hs chunk).2] at hout
    cases hout
  have hfront := Frame.front_left (c.decoder.buffer ++ chunk)
  rw [← h.feed_buffer, ← (receive_frame hs chunk).2] at hfront
  refine ⟨by simp [receive_exited_iff hs, Received.ends, hout], ?_, ?_⟩
  · intro f rest
    rw [hfront]
    split <;> simp
  · rintro fault rfl
    cases hb : (c.decoder.feed chunk).bodies with
    | ok texts =>
      rw [(receive_ok hs hb).2] at hout
      exact absurd hout (handleAll_ne_framing _ _ fault)
    | error fault' =>
      rw [(receive_error hs hb).2] at hout
      cases hout
      rw [(receive_frame hs chunk).2]
      exact h.refusing hb

end Connection

/-- So it is not true that a connection that has failed handles no further message. A call to shut
down that follows on a body that is no message is answered. -/
theorem not_forall_error_final :
    ¬ ∀ (p : Policies) (sink : Sink) (past : List Bytes) (chunk : Bytes) (e : ServeError),
      (((Connection.start p sink).after past).receive chunk).outcome = .error e →
      let failed := (((Connection.start p sink).after past).receive chunk).connection
      ∀ later, ∀ x ∈ failed.calls later, x.connection.sink.accepted = failed.sink.accepted ∧
        x.connection.session = failed.session := by
  intro h
  let bad := Frame.encode (Bytes.ofString "\x7bnot json")
  let farewell := Frame.encode (Bytes.ofString Request.farewell.encode)
  let failed := ((Connection.start .standard .perfect).receive bad).connection
  have hstart : (Connection.start .standard .perfect).session.phase ≠ .exited :=
    Session.fresh_isOpen.ne_exited
  obtain ⟨m, hm⟩ : ∃ m, Dialogue.turn .standard .fresh "\x7bnot json" =
      ⟨.fresh, [], some (.error (.envelope m))⟩ := ⟨_, rfl⟩
  obtain ⟨hfirst, hbuffer⟩ :=
    Connection.receive_encode (.fresh []) rfl hstart "\x7bnot json" (by decide)
  obtain ⟨hsink, hsession, hout⟩ := hfirst.of_tireless Sink.tireless_perfect
  have hpolicies : failed.policies = .standard := (Connection.receive_frame hstart bad).1
  have hfresh : failed.session = .fresh := hsession.trans (congrArg Dialogue.settled hm)
  obtain ⟨hsecond, _⟩ := Connection.receive_encode (Connection.receive_scanned (.fresh []) bad)
    hbuffer (by rw [hfresh]; exact hstart) Request.farewell.encode (by decide)
  obtain ⟨_, hclosed, _⟩ :=
    hsecond.of_tireless (by rw [hsink]; exact Sink.tireless_perfect.took _)
  have hquiet : (failed.receive farewell).connection.session = failed.session :=
    (h .standard .perfect [] bad _ (hout.trans (congrArg Dialogue.outcome hm)) [farewell] _
      (List.mem_singleton.2 rfl)).2
  rw [hclosed, hpolicies, hfresh, ← Dialogue.ofTexts_singleton, Dialogue.ofTexts_farewell] at hquiet
  cases hquiet

/-- A connection that has failed is quiet from then on just if no frame can be completed from what
its decoder holds back, as is the case if a header block was refused. -/
theorem receive_error_final_iff (p : Policies) (sink : Sink) (past : List Bytes) (chunk : Bytes)
    {e : ServeError}
    (h : (((Connection.start p sink).after past).receive chunk).outcome = .error e) :
    let failed := (((Connection.start p sink).after past).receive chunk).connection
    ((∀ later, ∀ x ∈ failed.calls later, x.connection.sink.accepted = failed.sink.accepted ∧
        x.connection.session = failed.session) ↔
      Frame.Stuck failed.decoder.buffer) ∧
    ∀ fault, e = .framing fault → ∀ later, ∀ x ∈ failed.calls later,
      x.outcome = .error e ∧ x.connection.sink = failed.sink ∧
        x.connection.session = failed.session := by
  intro failed
  have hpast : ((Connection.start p sink).after past).decoder.Scanned :=
    Connection.after_scanned (.fresh []) past
  have hscanned : failed.decoder.Scanned := Connection.receive_scanned hpast chunk
  obtain ⟨hphase, hfront, hrefused⟩ := Connection.receive_failed hpast h
  refine ⟨⟨fun hquiet => ?_, fun hstuck later x hx => ?_⟩, ?_⟩
  · exact Connection.stuck_of_calls hscanned hphase hfront fun later x hx => (hquiet later x hx).2
  · obtain ⟨hsink, hsession⟩ := Connection.calls_stuck hscanned hstuck later x hx
    exact ⟨by rw [hsink], hsession⟩
  · rintro fault rfl later x hx
    obtain ⟨before, next, _, _, rfl⟩ := Connection.mem_calls hx
    exact Connection.receive_after_refusing hphase (hrefused fault rfl) before next

/-- A header block without a length, and a call to shut down that comes too late. -/
theorem receive_error_final_iff_headless :
    let failed := ((Connection.start .standard .perfect).receive Frame.terminator).connection
    let farewell := Frame.encode (Bytes.ofString Request.farewell.encode)
    (failed.receive farewell).outcome = .error (.framing .missingLength) ∧
      (failed.receive farewell).connection.sink = failed.sink ∧
      (failed.receive farewell).connection.session = failed.session := by
  intro failed farewell
  have hheader : Frame.cut Frame.terminator = some ([], []) := by decide
  have hfault : (Frame.parse (Decoder.empty.buffer ++ Frame.terminator)).fault =
      some .missingLength := by
    rw [Decoder.empty_append, Frame.parse_refused (Frame.front_of_error hheader rfl)]
  obtain ⟨_, hout⟩ := Connection.receive_error (c := .start .standard .perfect)
    Session.fresh_isOpen.ne_exited (Decoder.Idle.empty.feed_fault hfault)
  obtain ⟨_, hfinal⟩ := receive_error_final_iff .standard .perfect [] Frame.terminator hout
  exact hfinal _ rfl [farewell] (failed.receive farewell) (List.mem_singleton.2 rfl)

/-- A header block that was refused is refused for ever. A decoder that has failed fails in the same
way from then on, and does nothing with its bytes but hold them back. So a connection that has
failed by it does the same, writes nothing and leaves its session as it is. -/
theorem refusal_permanent :
    (∀ (past : List Bytes) (chunk : Bytes) (fault : Frame.Fault),
      ((Decoder.empty.fed past).feed chunk).bodies = .error fault →
      ∀ (later : List Bytes) (next : Bytes),
        let failed := Decoder.empty.fed (past ++ chunk :: later)
        (failed.feed next).bodies = .error fault ∧ (failed.feed next).frames = [] ∧
          (failed.feed next).decoder.buffer = failed.buffer ++ next) ∧
    ∀ (p : Policies) (sink : Sink) (past : List Bytes) (chunk : Bytes) (fault : Frame.Fault),
      (((Connection.start p sink).after past).receive chunk).outcome = .error (.framing fault) →
      ∀ (later : List Bytes) (next : Bytes),
        let failed := (((Connection.start p sink).after past).receive chunk).connection
        let got := (failed.after later).receive next
        got.outcome = .error (.framing fault) ∧ got.connection.sink = failed.sink ∧
          got.connection.session = failed.session := by
  constructor
  · intro past chunk fault hfault later next failed
    have hscanned : (Decoder.empty.fed past).Scanned := Decoder.Scanned.fed (.fresh []) past
    have hrefusing : failed.Refusing fault := by
      simp only [failed, Decoder.fed_append, Decoder.fed]
      exact (hscanned.refusing hfault).fed later
    obtain ⟨hframes, hbodies, hbuffer, _⟩ := hrefusing.feed next
    exact ⟨hbodies, hframes, hbuffer⟩
  · intro p sink past chunk fault hfault later next failed
    have hscanned : ((Connection.start p sink).after past).decoder.Scanned :=
      Connection.after_scanned (.fresh []) past
    obtain ⟨hphase, _, hrefusing⟩ := Connection.receive_failed hscanned hfault
    exact Connection.receive_after_refusing hphase (hrefusing fault rfl) later next

/-- A frame that comes to nothing, because the block that is refused came with it, and the same
frame once more. -/
theorem refusal_permanent_late :
    let frame := Frame.encode (Bytes.ofString "x")
    let chunk := frame ++ Frame.terminator
    let decoder := Decoder.empty.fed [chunk, [13]]
    let failed := ((Connection.start .standard .perfect).receive chunk).connection
    (decoder.feed frame).bodies = .error .missingLength ∧
      (decoder.feed frame).decoder.buffer = decoder.buffer ++ frame ∧
      ((failed.after [[13]]).receive frame).outcome = .error (.framing .missingLength) := by
  intro frame chunk decoder failed
  have hheader : Frame.cut Frame.terminator = some ([], []) := by decide
  have hlength : ∀ b ∈ [Bytes.ofString "x"], b.length < Bytes.limit := by decide
  have hparse := Frame.parse_encode hlength Frame.terminator
  rw [Frame.parse_refused (Frame.front_of_error hheader rfl), List.flatMap_singleton] at hparse
  have hbodies : (Decoder.empty.feed chunk).bodies = .error .missingLength :=
    Decoder.Idle.empty.feed_fault (congrArg Frame.Parse.fault hparse)
  have hout := (Connection.receive_error (c := .start .standard .perfect)
    Session.fresh_isOpen.ne_exited hbodies).2
  obtain ⟨hdecoder, hconnection⟩ := refusal_permanent
  obtain ⟨hagain, _, hbuffer⟩ := hdecoder [] chunk _ hbodies [[13]] frame
  exact ⟨hagain, hbuffer, (hconnection .standard .perfect [] chunk _ hout [[13]] frame).1⟩

end HoverServer
