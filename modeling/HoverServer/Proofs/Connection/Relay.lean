import HoverServer.Proofs.Connection.Dialogue
import HoverServer.Proofs.Frame.Feeds
import HoverServer.Proofs.Stream.Failing

/-! A connection on any sink, whether it fails or not. It passes on the responses of the dialogue
with its client, one after the other, and either all of them go through and it does what the
dialogue says, or one does not and the connection ends with the failure of the sink. -/
namespace HoverServer
open HoverServer.Frame (Decoder)

namespace Read

/-- The chunks that come before the input ends or fails for good. -/
def arriving : List Read → List Bytes
  | [] => []
  | .bytes [] :: _ => []
  | .bytes (b :: bs) :: r => (b :: bs) :: arriving r
  | .failure e :: r => if e.kind = .interrupted then arriving r else []

/-- How the input ends. -/
def stop : List Read → Except ServeError Termination
  | [] => .ok .endOfInput
  | .bytes [] :: _ => .ok .endOfInput
  | .bytes (_ :: _) :: r => stop r
  | .failure e :: r => if e.kind = .interrupted then stop r else .error (.io e)

/-- An input that ends well is at its end. -/
theorem stop_ok {reads : List Read} {t : Termination} (h : stop reads = .ok t) :
    t = .endOfInput := by
  induction reads with
  | nil => exact (Except.ok.inj h).symm
  | cons r more ih =>
    cases r with
    | bytes chunk =>
      cases chunk with
      | nil => exact (Except.ok.inj h).symm
      | cons b bs => exact ih h
    | failure e =>
      rw [stop] at h
      split at h
      · exact ih h
      · cases h

theorem arriving_steady {reads : List Read} (h : ∀ r ∈ reads, r.Steady) :
    arriving reads = reads.filterMap bytes? ∧ stop reads = .ok .endOfInput := by
  induction reads with
  | nil => exact ⟨rfl, rfl⟩
  | cons r more ih =>
    have hmore := ih fun x hx => h x (List.mem_cons_of_mem r hx)
    cases r with
    | failure e =>
      have he : e.kind = .interrupted := h (.failure e) (by simp)
      simp only [arriving, stop, if_pos he]
      exact hmore
    | bytes chunk =>
      have hne : chunk ≠ [] := h (.bytes chunk) (by simp)
      obtain ⟨b, bs, rfl⟩ := List.exists_cons_of_ne_nil hne
      simp only [arriving, stop, List.filterMap_cons, bytes?, hmore, and_self]

end Read

namespace Connection

/-- What follows on a first part that leaves the connection open. -/
def Received.andThen (first rest : Received) : Received :=
  match first.outcome with
  | .ok none => ⟨rest.connection, first.events ++ rest.events, rest.outcome⟩
  | _ => first

/-- The connection has come to its end, and not by a failure. -/
def Received.ends (got : Received) : Bool :=
  match got.outcome with
  | .ok (some _) => true
  | _ => false

/-- Chunks are received in order, up to the first that ends the connection or fails it. -/
def receiveAll (c : Connection) : List Bytes → Received
  | [] => ⟨c, [], .ok none⟩
  | chunk :: more => (c.receive chunk).andThen ((c.receive chunk).connection.receiveAll more)

theorem Received.andThen_open {first : Received} (h : first.outcome = .ok none) (rest : Received) :
    (first.andThen rest).connection = rest.connection ∧
      (first.andThen rest).outcome = rest.outcome := by
  simp only [andThen, h, and_self]

theorem Received.andThen_closed {first : Received} (h : first.outcome ≠ .ok none)
    (rest : Received) : first.andThen rest = first := by
  rw [andThen]
  split
  · contradiction
  · rfl

theorem handleAll_cons (c : Connection) (text : String) (more : List String) :
    c.handleAll (text :: more) =
      (c.handle text).andThen ((c.handle text).connection.handleAll more) := by
  exact rfl

/-! ### What never changes -/

theorem handle_frame (c : Connection) (text : String) :
    (c.handle text).connection.policies = c.policies ∧
      (c.handle text).connection.decoder = c.decoder := by
  rw [handle]
  split <;> exact ⟨rfl, rfl⟩

theorem handleAll_frame (c : Connection) (texts : List String) :
    (c.handleAll texts).connection.policies = c.policies ∧
      (c.handleAll texts).connection.decoder = c.decoder := by
  induction texts generalizing c with
  | nil => exact ⟨rfl, rfl⟩
  | cons text more ih =>
    obtain ⟨hp, hd⟩ := c.handle_frame text
    obtain ⟨hp', hd'⟩ := ih (c.handle text).connection
    rw [handleAll_cons]
    by_cases hout : (c.handle text).outcome = .ok none
    · rw [(Received.andThen_open hout _).1]
      exact ⟨hp'.trans hp, hd'.trans hd⟩
    · rw [Received.andThen_closed hout]
      exact ⟨hp, hd⟩

/-- A call feeds its chunk to the decoder and handles the bodies that come out of it. -/
theorem receive_ok {c : Connection} (hs : c.session.phase ≠ .exited) {chunk : Bytes}
    {texts : List String} (hb : (c.decoder.feed chunk).bodies = .ok texts) :
    (c.receive chunk).connection =
        ({ c with decoder := (c.decoder.feed chunk).decoder }.handleAll texts).connection ∧
      (c.receive chunk).outcome =
        ({ c with decoder := (c.decoder.feed chunk).decoder }.handleAll texts).outcome := by
  rw [receive, if_neg hs]
  simp only [hb, and_self]

theorem receive_error {c : Connection} (hs : c.session.phase ≠ .exited) {chunk : Bytes}
    {fault : Frame.Fault} (hb : (c.decoder.feed chunk).bodies = .error fault) :
    (c.receive chunk).connection = { c with decoder := (c.decoder.feed chunk).decoder } ∧
      (c.receive chunk).outcome = .error (.framing fault) := by
  rw [receive, if_neg hs]
  simp only [hb, and_self]

/-- Nothing is taken from a connection that is over. -/
theorem receive_exited {c : Connection} (hs : c.session.phase = .exited) (chunk : Bytes) :
    (c.receive chunk).connection = c ∧ (c.receive chunk).outcome = .ok none := by
  rw [receive, if_pos hs]
  exact ⟨rfl, rfl⟩

theorem receive_frame {c : Connection} (hs : c.session.phase ≠ .exited) (chunk : Bytes) :
    (c.receive chunk).connection.policies = c.policies ∧
      (c.receive chunk).connection.decoder = (c.decoder.feed chunk).decoder := by
  cases hb : (c.decoder.feed chunk).bodies with
  | error fault =>
    rw [(receive_error hs hb).1]
    exact ⟨rfl, rfl⟩
  | ok texts =>
    rw [(receive_ok hs hb).1]
    exact handleAll_frame _ texts

/-! ### Passing on a dialogue -/

/-- The exchange over one body is a turn of the dialogue. -/
theorem ofBody_turn (p : Policies) (s : Session) (text : String) :
    (Exchange.ofBody p s text).response.toList = (Dialogue.turn p s text).responses ∧
      (Exchange.ofBody p s text).ending.outcome = (Dialogue.turn p s text).outcome ∧
      (Exchange.ofBody p s text).session = (Dialogue.turn p s text).session ∧
      (Exchange.ofBody p s text).ending.close (Exchange.ofBody p s text).session =
        (Dialogue.turn p s text).settled := by
  rw [Exchange.ofBody, Dialogue.turn]
  cases Request.decode text with
  | error m =>
    simp only [Exchange.after, Exchange.ofMalformed]
    cases p.malformed with
    | terminate => exact ⟨rfl, rfl, rfl, rfl⟩
    | reject => cases m.id <;> exact ⟨rfl, rfl, rfl, rfl⟩
  | ok r =>
    simp only [Exchange.after]
    cases (s.handle p.unknown r).reaction <;> exact ⟨rfl, rfl, rfl, rfl⟩

/-- There is at most one message to send about a body. -/
theorem deliver_eq (sink : Sink) (r : Option Response) :
    deliver sink r =
      sink.sendAll (r.toList.map fun r => Frame.encode (Bytes.ofString r.encode)) := by
  cases r with
  | none => rfl
  | some r => exact (sink.sendAll_singleton (Frame.encode (Bytes.ofString r.encode))).symm

theorem handle_whole {c : Connection} {text : String}
    (h : (c.sink.sendAll (Dialogue.turn c.policies c.session text).messages).1 = none) :
    (c.handle text).connection.session = (Dialogue.turn c.policies c.session text).settled ∧
      (c.handle text).connection.sink =
        (c.sink.sendAll (Dialogue.turn c.policies c.session text).messages).2 ∧
      (c.handle text).outcome = (Dialogue.turn c.policies c.session text).outcome := by
  obtain ⟨hr, ho, _, hs⟩ := ofBody_turn c.policies c.session text
  rw [Dialogue.messages, ← hr, ← deliver_eq] at h ⊢
  rw [handle]
  generalize deliver c.sink (Exchange.ofBody c.policies c.session text).response = sent at h ⊢
  obtain ⟨failure, sink⟩ := sent
  cases h
  exact ⟨hs, rfl, ho⟩

theorem handle_broken {c : Connection} {text : String} {e : IoError}
    (h : (c.sink.sendAll (Dialogue.turn c.policies c.session text).messages).1 = some e) :
    (c.handle text).connection.session = (Dialogue.turn c.policies c.session text).session ∧
      (c.handle text).connection.sink =
        (c.sink.sendAll (Dialogue.turn c.policies c.session text).messages).2 ∧
      (c.handle text).outcome = .error (.io e) := by
  obtain ⟨hr, _, hs, _⟩ := ofBody_turn c.policies c.session text
  rw [Dialogue.messages, ← hr, ← deliver_eq] at h ⊢
  rw [handle]
  generalize deliver c.sink (Exchange.ofBody c.policies c.session text).response = sent at h ⊢
  obtain ⟨failure, sink⟩ := sent
  cases h
  exact ⟨hs, rfl, rfl⟩

/-! ### The end of a session -/

/-- A session is left just when the connection ends, and a failure to send is no end. -/
theorem handle_exited_iff {c : Connection} (hs : c.session.phase ≠ .exited) (text : String) :
    (c.handle text).connection.session.phase = .exited ↔ (c.handle text).ends := by
  have hturn := Dialogue.turn_cases c.policies c.session text
  rw [Received.ends]
  cases hsend : (c.sink.sendAll (Dialogue.turn c.policies c.session text).messages).1 with
  | none =>
    obtain ⟨hsession, _, hout⟩ := handle_whole hsend
    rw [hsession, hout]
    generalize Dialogue.turn c.policies c.session text = d at hturn ⊢
    cases hturn with
    | stay _ => simp [Dialogue.settled, Dialogue.outcome, hs]
    | greet _ _ _ => simp [Dialogue.settled, Dialogue.outcome]
    | shutDown _ _ => simp [Dialogue.settled, Dialogue.outcome]
    | leave => simp [Dialogue.settled, Dialogue.outcome]
    | fail _ => simp [Dialogue.settled, Dialogue.outcome, hs]
  | some e =>
    obtain ⟨hsession, _, hout⟩ := handle_broken hsend
    rw [hsession, hout]
    generalize Dialogue.turn c.policies c.session text = d at hturn hsend ⊢
    cases hturn with
    | stay _ => simp [hs]
    | greet _ _ _ => simp
    | shutDown _ _ => simp
    | leave => cases hsend
    | fail _ => simp [hs]

theorem handleAll_exited_iff {c : Connection} (hs : c.session.phase ≠ .exited)
    (texts : List String) :
    (c.handleAll texts).connection.session.phase = .exited ↔ (c.handleAll texts).ends := by
  induction texts generalizing c with
  | nil => exact iff_of_false hs Bool.false_ne_true
  | cons text more ih =>
    have hfirst := handle_exited_iff hs text
    rw [handleAll_cons]
    by_cases hout : (c.handle text).outcome = .ok none
    · have hopen : (c.handle text).connection.session.phase ≠ .exited := by
        simp [hfirst, Received.ends, hout]
      have hmore := ih hopen
      obtain ⟨hconnection, houtcome⟩ :=
        Received.andThen_open hout ((c.handle text).connection.handleAll more)
      rw [Received.ends, hconnection, houtcome]
      exact hmore
    · rw [Received.andThen_closed hout]
      exact hfirst

theorem receive_exited_iff {c : Connection} (hs : c.session.phase ≠ .exited) (chunk : Bytes) :
    (c.receive chunk).connection.session.phase = .exited ↔ (c.receive chunk).ends := by
  rw [Received.ends]
  cases hb : (c.decoder.feed chunk).bodies with
  | error fault =>
    obtain ⟨hconnection, hout⟩ := receive_error hs hb
    simp [hconnection, hout, hs]
  | ok texts =>
    obtain ⟨hconnection, hout⟩ := receive_ok hs hb
    rw [hconnection, hout]
    exact handleAll_exited_iff (c := { c with decoder := (c.decoder.feed chunk).decoder }) hs texts

/-- A call that leaves the connection open does not leave the session. -/
theorem receive_phase {c : Connection} (hs : c.session.phase ≠ .exited) {chunk : Bytes}
    (hout : (c.receive chunk).outcome = .ok none) :
    (c.receive chunk).connection.session.phase ≠ .exited := by
  simp [receive_exited_iff hs, Received.ends, hout]

/-! ### A whole dialogue -/

/-- A connection has sent the messages of a dialogue as far as its sink let it. -/
structure Relays (c : Connection) (got : Received) (d : Dialogue) : Prop where
  sink : got.connection.sink = (c.sink.sendAll d.messages).2
  whole : (c.sink.sendAll d.messages).1 = none →
    got.connection.session = d.settled ∧ got.outcome = d.outcome
  broken : ∀ e, (c.sink.sendAll d.messages).1 = some e → got.outcome = .error (.io e)

variable {c : Connection} {got rest : Received} {d : Dialogue}

/-- A call that brings no failure of the sink has sent all there was to send. -/
theorem Relays.whole_of_ok (h : Relays c got d) {t : Option Termination}
    (hout : got.outcome = .ok t) : (c.sink.sendAll d.messages).1 = none := by
  cases hs : (c.sink.sendAll d.messages).1 with
  | none => rfl
  | some e =>
    rw [h.broken e hs] at hout
    cases hout

theorem Relays.of_open (h : Relays c got d) (hout : got.outcome = .ok none) :
    d.ending = none ∧ got.connection.session = d.session := by
  obtain ⟨hsession, houtcome⟩ := h.whole (h.whole_of_ok hout)
  have hending := Dialogue.outcome_ok_none_iff.1 (houtcome.symm.trans hout)
  rw [Dialogue.settled, hending] at hsession
  exact ⟨hending, hsession⟩

/-- Everything goes through on a sink that never fails. -/
theorem Relays.of_tireless (h : Relays c got d) (hsink : c.sink.Tireless) :
    got.connection.sink = c.sink.took d.bytes ∧ got.connection.session = d.settled ∧
      got.outcome = d.outcome := by
  obtain ⟨hgot, hwhole, _⟩ := h
  rw [hsink.sendAll, Dialogue.flatten_messages] at hgot
  rw [hsink.sendAll] at hwhole
  exact ⟨hgot, hwhole rfl⟩

theorem handle_relays (c : Connection) (text : String) :
    Relays c (c.handle text) (Dialogue.turn c.policies c.session text) := by
  cases hs : (c.sink.sendAll (Dialogue.turn c.policies c.session text).messages).1 with
  | none =>
    obtain ⟨hsession, hsink, hout⟩ := handle_whole hs
    exact ⟨hsink, fun _ => ⟨hsession, hout⟩, fun e he => nomatch hs.symm.trans he⟩
  | some e =>
    obtain ⟨_, hsink, hout⟩ := handle_broken hs
    refine ⟨hsink, fun hn => (nomatch hs.symm.trans hn), fun e' he => ?_⟩
    rw [hout, Option.some.inj (hs.symm.trans he)]

/-- Two parts of a dialogue, one after the other. The second one counts only if the first has left
the connection open. -/
theorem Relays.andThen (h : Relays c got d) {more : Session → Dialogue}
    (hrest : got.outcome = .ok none → got.connection.session = d.session →
      Relays got.connection rest (more d.session)) :
    Relays c (got.andThen rest) (d.andThen more) := by
  by_cases hout : got.outcome = .ok none
  · obtain ⟨hending, hsession⟩ := h.of_open hout
    have hr := hrest hout hsession
    have hwhole := h.whole_of_ok hout
    obtain ⟨hconnection, houtcome⟩ := Received.andThen_open hout rest
    have hmessages : (d.andThen more).messages = d.messages ++ (more d.session).messages := by
      rw [Dialogue.andThen_of_none hending, Dialogue.messages, List.map_append]
      rfl
    have hsend : c.sink.sendAll (d.andThen more).messages =
        got.connection.sink.sendAll (more d.session).messages := by
      rw [hmessages, Sink.sendAll_append_none hwhole, h.sink]
    have hends : (d.andThen more).settled = (more d.session).settled ∧
        (d.andThen more).outcome = (more d.session).outcome := by
      rw [Dialogue.andThen_of_none hending]
      exact ⟨rfl, rfl⟩
    constructor
    · rw [hconnection, hsend, hr.sink]
    · rw [hconnection, houtcome, hsend, hends.1, hends.2]
      exact hr.whole
    · rw [houtcome, hsend]
      exact hr.broken
  · rw [Received.andThen_closed hout]
    cases hs : (c.sink.sendAll d.messages).1 with
    | none =>
      have houtcome := (h.whole hs).2
      have hending : d.ending ≠ none := fun hnone =>
        hout (houtcome.trans (Dialogue.outcome_ok_none_iff.2 hnone))
      obtain ⟨e, he⟩ := Option.ne_none_iff_exists'.1 hending
      rw [Dialogue.andThen_of_some he]
      exact h
    | some e =>
      have hsend : c.sink.sendAll (d.andThen more).messages = c.sink.sendAll d.messages := by
        cases hending : d.ending with
        | some e' => rw [Dialogue.andThen_of_some hending]
        | none =>
          rw [Dialogue.andThen_of_none hending, Dialogue.messages, List.map_append]
          exact Sink.sendAll_append_some hs _
      constructor
      · rw [hsend, h.sink]
      · rw [hsend, hs]
        exact fun hn => nomatch hn
      · rw [hsend]
        exact h.broken

theorem handleAll_relays (c : Connection) (texts : List String) :
    Relays c (c.handleAll texts) (Dialogue.ofTexts c.policies c.session texts) := by
  induction texts generalizing c with
  | nil => exact ⟨rfl, fun _ => ⟨rfl, rfl⟩, fun _ he => nomatch he⟩
  | cons text more ih =>
    rw [handleAll_cons, Dialogue.ofTexts]
    refine (handle_relays c text).andThen fun _ hsession => ?_
    rw [← hsession, ← (c.handle_frame text).1]
    exact ih (c.handle text).connection

theorem receive_relays_ok {c : Connection} (hs : c.session.phase ≠ .exited) {chunk : Bytes}
    {texts : List String} (hb : (c.decoder.feed chunk).bodies = .ok texts) :
    Relays c (c.receive chunk) (Dialogue.ofTexts c.policies c.session texts) := by
  obtain ⟨hconnection, hout⟩ := receive_ok hs hb
  have hall := handleAll_relays { c with decoder := (c.decoder.feed chunk).decoder } texts
  constructor
  · rw [hconnection]
    exact hall.sink
  · rw [hconnection, hout]
    exact hall.whole
  · rw [hout]
    exact hall.broken

theorem receive_relays {c : Connection} (hs : c.session.phase ≠ .exited) (chunk : Bytes) :
    Relays c (c.receive chunk)
      (Dialogue.ofFeeds c.policies c.session [(c.decoder.feed chunk).bodies]) := by
  cases hb : (c.decoder.feed chunk).bodies with
  | error fault =>
    obtain ⟨hconnection, hout⟩ := receive_error hs hb
    rw [Dialogue.ofFeeds]
    constructor
    · rw [hconnection]
      rfl
    · intro _
      rw [hconnection]
      exact ⟨rfl, hout⟩
    · intro e he
      cases he
  | ok texts =>
    simp only [Dialogue.ofFeeds, Dialogue.andThen_silent]
    exact receive_relays_ok hs hb

theorem receiveAll_relays {c : Connection} (hs : c.session.phase ≠ .exited)
    (chunks : List Bytes) :
    Relays c (c.receiveAll chunks)
      (Dialogue.ofFeeds c.policies c.session (c.decoder.feeds chunks)) := by
  induction chunks generalizing c with
  | nil => exact ⟨rfl, fun _ => ⟨rfl, rfl⟩, fun _ he => nomatch he⟩
  | cons chunk more ih =>
    have hfirst := receive_relays hs chunk
    have hsplit : Dialogue.ofFeeds c.policies c.session (c.decoder.feeds (chunk :: more)) =
        (Dialogue.ofFeeds c.policies c.session [(c.decoder.feed chunk).bodies]).andThen fun s =>
          Dialogue.ofFeeds c.policies s ((c.decoder.feed chunk).decoder.feeds more) := by
      rw [Decoder.feeds]
      cases (c.decoder.feed chunk).bodies with
      | error fault => rfl
      | ok texts => simp only [Dialogue.ofFeeds, Dialogue.andThen_silent]
    rw [receiveAll, hsplit]
    refine hfirst.andThen fun hout hsession => ?_
    obtain ⟨hpolicies, hdecoder⟩ := receive_frame hs chunk
    rw [← hsession, ← hpolicies, ← hdecoder]
    exact ih (receive_phase hs hout)

/-! ### Driven by reads -/

/-- A connection that is driven by its reads receives what arrives, until it is over or the input
is. -/
theorem run_receiveAll (c : Connection) (reads : List Read) :
    (c.run reads).connection = (c.receiveAll (Read.arriving reads)).connection ∧
      (c.run reads).outcome = match (c.receiveAll (Read.arriving reads)).outcome with
        | .ok none => Read.stop reads
        | .ok (some t) => .ok t
        | .error e => .error e := by
  induction reads generalizing c with
  | nil => exact ⟨rfl, rfl⟩
  | cons r more ih =>
    cases r with
    | failure e =>
      rw [run, Read.arriving, Read.stop]
      split
      · exact ih c
      · exact ⟨rfl, rfl⟩
    | bytes chunk =>
      cases chunk with
      | nil => exact ⟨rfl, rfl⟩
      | cons b bs =>
        obtain ⟨hconnection, hout⟩ := ih (c.receive (b :: bs)).connection
        rw [run, Read.arriving, Read.stop, receiveAll]
        cases hfirst : (c.receive (b :: bs)).outcome with
        | error e =>
          rw [Received.andThen_closed (by rw [hfirst]; exact fun h => nomatch h), hfirst]
          exact ⟨rfl, rfl⟩
        | ok t =>
          cases t with
          | some t =>
            rw [Received.andThen_closed (by rw [hfirst]; exact fun h => nomatch h), hfirst]
            exact ⟨rfl, rfl⟩
          | none =>
            obtain ⟨hc, ho⟩ := Received.andThen_open hfirst
              ((c.receive (b :: bs)).connection.receiveAll (Read.arriving more))
            rw [hc, ho]
            exact ⟨hconnection, hout⟩

theorem run_relays {c : Connection} (hs : c.session.phase ≠ .exited) (reads : List Read) :
    let d := Dialogue.ofFeeds c.policies c.session (c.decoder.feeds (Read.arriving reads))
    (c.run reads).connection.sink = (c.sink.sendAll d.messages).2 ∧
      ((c.sink.sendAll d.messages).1 = none →
        (c.run reads).outcome = d.ending.getD (Read.stop reads)) ∧
      ∀ e, (c.sink.sendAll d.messages).1 = some e → (c.run reads).outcome = .error (.io e) := by
  intro d
  have h : Relays c _ d := receiveAll_relays hs (Read.arriving reads)
  obtain ⟨hconnection, hout⟩ := c.run_receiveAll reads
  rw [hconnection, hout]
  refine ⟨h.sink, fun hwhole => ?_, fun e he => ?_⟩
  · rw [(h.whole hwhole).2, Dialogue.outcome]
    cases d.ending with
    | none => rfl
    | some e => cases e <;> rfl
  · rw [h.broken e he]

end Connection
end HoverServer
