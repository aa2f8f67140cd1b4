import HoverServer.Proofs.Connection.Answers

/-! The bodies that a connection handles, read off its log. Every one of them is logged as it comes
in, and no other event looks like that. On a sink that never fails these are the bodies up to the
one that ends the dialogue, and a body behind it leaves no trace at all. -/
namespace HoverServer
open HoverServer.Frame (Decoder)

/-- The body that an event says has come in. -/
def Log.Event.body? (e : Event) : Option String :=
  match e.fields with
  | [("body", .text body)] => if e = Exchange.inbound body then some body else none
  | _ => none

namespace Log

def bodies (events : List Event) : List String := events.filterMap Event.body?

/-- Events that are about something else than a body coming in. -/
def Quiet (events : List Event) : Prop := ∀ e ∈ events, e.body? = none

theorem body?_inbound (text : String) : (Exchange.inbound text).body? = some text := by
  simp [Event.body?, Exchange.inbound]

theorem body?_eq_none {e : Event} (h : ∀ body, e ≠ Exchange.inbound body) : e.body? = none := by
  rw [Event.body?]
  split
  · rename_i body _
    rw [if_neg (h body)]
  · rfl

theorem Quiet.bodies_eq {events : List Event} (h : Quiet events) : bodies events = [] :=
  List.filterMap_eq_nil_iff.2 h

theorem Quiet.of_level {events : List Event} (h : ∀ e ∈ events, e.level ≠ .debug) :
    Quiet events :=
  fun e he => body?_eq_none fun _ heq => h e he (congrArg Event.level heq)

theorem Quiet.of_target {events : List Event} (h : ∀ e ∈ events, e.target ≠ .connection) :
    Quiet events :=
  fun e he => body?_eq_none fun _ heq => h e he (congrArg Event.target heq)

theorem bodies_append (u v : List Event) : bodies (u ++ v) = bodies u ++ bodies v :=
  List.filterMap_append

theorem bodies_inbound (text : String) {events : List Event} (h : Quiet events) :
    bodies (Exchange.inbound text :: events) = [text] := by
  rw [bodies, List.filterMap_cons_some (body?_inbound text)]
  exact congrArg (text :: ·) h.bodies_eq

end Log

/-! ### One body -/

theorem Verdict.target_events (v : Verdict) (s : Session) (r : Request) :
    ∀ e ∈ v.events s r, e.target = .session := by
  cases v with
  | leave =>
    rw [events]
    split <;> simp
  | _ => simp [events]

theorem Session.target_events (policy : UnknownMethodPolicy) (s : Session) (r : Request) :
    ∀ e ∈ (s.handle policy r).events, e.target = .session :=
  List.forall_mem_cons.2 ⟨rfl, (s.verdict r).target_events s r⟩

namespace Exchange

theorem malformedEvents_quiet (m : Malformed) : Log.Quiet (malformedEvents m) :=
  .of_level (by simp [malformedEvents])

theorem events_ofMalformed (policy : MalformedPolicy) (s : Session) (m : Malformed) :
    (ofMalformed policy s m).events = malformedEvents m := by
  cases policy with
  | terminate => rfl
  | reject =>
    rw [ofMalformed.eq_def]
    cases m.id <;> rfl

theorem events_ofReaction (s : Session) (events : List Log.Event) (r : Reaction) :
    (ofReaction s events r).events = events := by
  cases r <;> rfl

theorem bodies_ofBody (p : Policies) (s : Session) (text : String) :
    Log.bodies (ofBody p s text).events = [text] := by
  rw [ofBody]
  apply Log.bodies_inbound
  cases Request.decode text with
  | error m =>
    dsimp only
    rw [events_ofMalformed]
    exact malformedEvents_quiet m
  | ok r =>
    dsimp only
    rw [events_ofReaction]
    apply Log.Quiet.of_target
    intro e he
    rw [s.target_events p.unknown r e he]
    decide

end Exchange

theorem Ending.events_quiet (ending : Ending) : Log.Quiet ending.events := by
  apply Log.Quiet.of_level
  cases ending with
  | done t => cases t <;> simp [events]
  | _ => simp [events]

namespace Connection

theorem bodies_handle (c : Connection) (text : String) :
    Log.bodies (c.handle text).events = [text] := by
  rw [handle]
  split
  · exact Exchange.bodies_ofBody _ _ _
  · rw [Log.bodies_append, Exchange.bodies_ofBody, (Ending.events_quiet _).bodies_eq]
    rfl

end Connection

/-! ### All that is heard -/

namespace Dialogue

variable {p : Policies} {s : Session} {u : List String}

theorem heard_of_none (h : (ofTexts p s u).ending = none) : heard p s u = u := by
  induction u generalizing s with
  | nil => rfl
  | cons text u ih =>
    have hturn := ending_of_andThen h
    rw [ofTexts, andThen_of_none hturn] at h
    simp only [heard, hturn, ih h]

/-- A text is heard if the dialogue has not ended before it. -/
theorem heard_append_of_none (h : (ofTexts p s u).ending = none) (v : List String) :
    heard p s (u ++ v) = heard p s u ++ heard p (ofTexts p s u).session v := by
  induction u generalizing s with
  | nil => rfl
  | cons text u ih =>
    have hturn := ending_of_andThen h
    rw [ofTexts, andThen_of_none hturn] at h ⊢
    simp only [List.cons_append, heard, hturn, ih h]

theorem heard_append_of_some {e : Except ServeError Termination}
    (h : (ofTexts p s u).ending = some e) (v : List String) :
    heard p s (u ++ v) = heard p s u := by
  induction u generalizing s with
  | nil => cases h
  | cons text u ih =>
    rw [ofTexts] at h
    cases hturn : (turn p s text).ending with
    | some e' => simp only [List.cons_append, heard, hturn]
    | none =>
      rw [andThen_of_none hturn] at h
      simp only [List.cons_append, heard, hturn, ih h]

/-- The texts that are heard from a decoder, up to the one that ends the dialogue or to a fault. -/
def heardFeeds (p : Policies) (s : Session) : List (Except Frame.Fault (List String)) → List String
  | [] => []
  | .error _ :: _ => []
  | .ok texts :: more =>
    match (ofTexts p s texts).ending with
    | some _ => heard p s texts
    | none => heard p s texts ++ heardFeeds p (ofTexts p s texts).session more

/-- Without a fault it does not matter how the texts come in. -/
theorem heardFeeds_ok (p : Policies) (s : Session) (texts : List (List String)) :
    heardFeeds p s (texts.map .ok) = heard p s texts.flatten := by
  induction texts generalizing s with
  | nil => rfl
  | cons first rest ih =>
    rw [List.map_cons, heardFeeds, List.flatten_cons]
    cases hending : (ofTexts p s first).ending with
    | some e => rw [heard_append_of_some hending]
    | none => rw [heard_append_of_none hending, ih]

end Dialogue

namespace Connection

variable {c : Connection}

theorem bodies_handleAll (hsink : c.sink.Tireless) (texts : List String) :
    Log.bodies (c.handleAll texts).events = Dialogue.heard c.policies c.session texts := by
  induction texts generalizing c with
  | nil => rfl
  | cons text more ih =>
    obtain ⟨hsent, _, hout⟩ := (handle_relays c text).of_tireless hsink
    rw [handleAll_cons, Dialogue.heard]
    cases hturn : (Dialogue.turn c.policies c.session text).ending with
    | some e =>
      have hclosed : (c.handle text).outcome ≠ .ok none := by
        rw [hout, Ne, Dialogue.outcome_ok_none_iff, hturn]
        simp
      rw [Received.andThen_closed hclosed]
      exact c.bodies_handle text
    | none =>
      have hopen : (c.handle text).outcome = .ok none := by
        rw [hout, Dialogue.outcome_ok_none_iff, hturn]
      have hsession := ((handle_relays c text).of_open hopen).2
      have hmore := ih (c := (c.handle text).connection) (by rw [hsent]; exact hsink.took _)
      rw [(c.handle_frame text).1, hsession] at hmore
      simp only [Received.andThen, hopen]
      rw [Log.bodies_append, bodies_handle, hmore]
      rfl

theorem frameEvents_quiet (left : Nat) (frames : List Frame) :
    Log.Quiet (frameEvents left frames) := by
  apply Log.Quiet.of_target
  induction frames with
  | nil => exact List.forall_mem_nil _
  | cons f r ih => exact List.forall_mem_cons.2 ⟨by simp, ih⟩

theorem endEvents_quiet (c : Connection) : Log.Quiet c.endEvents := by
  apply Log.Quiet.of_level
  rw [endEvents]
  split <;> simp

theorem bodies_receive (hsink : c.sink.Tireless) (hs : c.session.phase ≠ .exited) {chunk : Bytes}
    {texts : List String} (hb : (c.decoder.feed chunk).bodies = .ok texts) :
    Log.bodies (c.receive chunk).events = Dialogue.heard c.policies c.session texts := by
  rw [receive, if_neg hs]
  simp only [hb]
  rw [Log.bodies_append, (frameEvents_quiet _ _).bodies_eq, List.nil_append]
  exact bodies_handleAll (c := { c with decoder := (c.decoder.feed chunk).decoder }) hsink texts

theorem bodies_receive_error (hs : c.session.phase ≠ .exited) {chunk : Bytes} {fault : Frame.Fault}
    (hb : (c.decoder.feed chunk).bodies = .error fault) :
    Log.bodies (c.receive chunk).events = [] := by
  have hquiet : Log.Quiet [framingEvent fault] := .of_level (by simp [framingEvent])
  rw [receive, if_neg hs]
  simp only [hb]
  rw [Log.bodies_append, (frameEvents_quiet _ _).bodies_eq, hquiet.bodies_eq]
  rfl

/-- A connection that is driven by its reads hears what its decoder hands on, up to the end of the
dialogue. -/
theorem bodies_run (hsink : c.sink.Tireless) (hs : c.session.phase ≠ .exited) (reads : List Read) :
    Log.bodies (c.run reads).events =
      Dialogue.heardFeeds c.policies c.session (c.decoder.feeds (Read.arriving reads)) := by
  induction reads generalizing c with
  | nil => exact c.endEvents_quiet.bodies_eq
  | cons r more ih =>
    cases r with
    | failure e =>
      rw [run, Read.arriving]
      split
      · exact ih hsink hs
      · rfl
    | bytes chunk =>
      cases chunk with
      | nil => exact c.endEvents_quiet.bodies_eq
      | cons b bs =>
        rw [run, Read.arriving, Decoder.feeds]
        cases hb : (c.decoder.feed (b :: bs)).bodies with
        | error fault =>
          simp only [(receive_error hs hb).2]
          exact bodies_receive_error hs hb
        | ok first =>
          have hgot := bodies_receive hsink hs hb
          have hrelays := receive_relays_ok hs hb
          obtain ⟨hsent, _, hout⟩ := hrelays.of_tireless hsink
          rw [Dialogue.heardFeeds, ← hgot]
          cases hending : (Dialogue.ofTexts c.policies c.session first).ending with
          | some e =>
            rw [Dialogue.outcome, hending] at hout
            cases e <;> simp only [hout]
          | none =>
            have hopen : (c.receive (b :: bs)).outcome = .ok none := by
              rw [hout, Dialogue.outcome_ok_none_iff, hending]
            obtain ⟨hpolicies, hdecoder⟩ := receive_frame hs (b :: bs)
            have hlater := ih (by rw [hsent]; exact hsink.took _) (receive_phase hs hopen)
            rw [hpolicies, hdecoder, (hrelays.of_open hopen).2] at hlater
            simp only [hopen]
            rw [Log.bodies_append, hlater]

end Connection

/-- The texts that are heard from a client behind some input. -/
def Dialogue.heardInput (p : Policies) (input : List Read) : List String :=
  heardFeeds p .fresh (Decoder.empty.feeds (Read.arriving (input.flatMap Read.chunks)))

theorem bodies_serve {sink : Sink} (h : sink.Tireless) (p : Policies) (input : List Read) :
    Log.bodies (serve p input sink).events = Dialogue.heardInput p input := by
  have hserving : Log.Quiet [servingEvent p] := .of_level (by simp [servingEvent])
  have hserve := Log.bodies_append [servingEvent p]
    ((Connection.start p sink).run (input.flatMap Read.chunks)).events
  rw [hserving.bodies_eq, List.nil_append] at hserve
  exact hserve.trans (Connection.bodies_run (c := .start p sink) h Session.fresh_isOpen.ne_exited _)

/-- Where no header block is refused, a served connection hears the bodies of its stream, and its
session is the one that the dialogue comes to. -/
theorem serve_heard {sink : Sink} (h : sink.Tireless) (p : Policies) {reads : List Read}
    {s : Bytes} (hd : Read.Delivers reads s) (hopen : (Frame.parse s).fault = none) :
    let texts := (Frame.parse s).frames.map Frame.text
    Log.bodies (serve p reads sink).events = Dialogue.heard p .fresh texts ∧
      (serve p reads sink).connection.session = (Dialogue.ofTexts p .fresh texts).settled := by
  intro texts
  have hstart : (Connection.start p sink).session.phase ≠ .exited := Session.fresh_isOpen.ne_exited
  obtain ⟨hsteady, hcontent⟩ := hd.chunks
  have hparse : Frame.parse (Decoder.empty.buffer ++ (Read.arrivals reads).flatten) =
      Frame.parse s := by rw [Decoder.empty_append, hcontent]
  constructor
  · obtain ⟨bodies, hfeeds, hflat, _⟩ := Decoder.Idle.empty.feeds_ok (by rw [hparse]; exact hopen)
    rw [hparse] at hflat
    rw [bodies_serve h, Dialogue.heardInput, (Read.arriving_steady hsteady).1]
    exact (congrArg (Dialogue.heardFeeds p .fresh) hfeeds).trans
      ((Dialogue.heardFeeds_ok p .fresh bodies).trans (congrArg _ hflat))
  · obtain ⟨hconnection, _⟩ := (Connection.start p sink).run_receiveAll (reads.flatMap Read.chunks)
    rw [(Read.arriving_steady hsteady).1] at hconnection
    have hrelays := Connection.receiveAll_relays hstart (Read.arrivals reads)
    have hdialogue := Decoder.Idle.empty.ofFeeds_eq (by rw [hparse]; exact hopen) p .fresh
    rw [hparse] at hdialogue
    have hsettled := (hrelays.of_tireless h).2.1
    simp only [Connection.start] at hsettled
    rw [hdialogue] at hsettled
    rw [← hsettled]
    exact congrArg Connection.session hconnection

end HoverServer
