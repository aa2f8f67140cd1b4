import HoverServer.Proofs.Connection.Calls
import HoverServer.Proofs.Connection.Heard
import HoverServer.Proofs.Message.RequestRules

/-! Bodies that are no messages, in a stream of others. A connection fails by the first of them that
it has no answer to, unless it is closed before that; all the others are answered, each in its
place, and change nothing. -/
namespace HoverServer

/-- A text that closes a dialogue: a call to shut down, or to exit. -/
def Dialogue.Closes (text : String) : Prop :=
  ∃ r, Request.decode text = .ok r ∧ (r.method = "shutdown" ∨ r.method = "exit")

namespace MalformedPolicy

/-- A text that is no request, and is not to be answered or cannot be. -/
structure Fails (policy : MalformedPolicy) (text : String) (m : Malformed) : Prop where
  malformed : Request.decode text = .error m
  unanswered : policy = .reject → m.id = none

/-- A text that is no request, but is answered by the id that it still has. -/
structure Rejects (policy : MalformedPolicy) (text : String) (m : Malformed) (id : Id) : Prop where
  malformed : Request.decode text = .error m
  reject : policy = .reject
  usable : m.id = some id

/-- A text after which a dialogue goes on. -/
structure Passes (policy : MalformedPolicy) (text : String) : Prop where
  unclosed : ¬ Dialogue.Closes text
  unfailed : ∀ m, ¬ policy.Fails text m

end MalformedPolicy

/-- What is answered to a body that is no request. -/
def Malformed.answer (m : Malformed) (id : Id) : Response :=
  ⟨some id, .error ⟨-32600, m.fault.message, none⟩⟩

namespace Dialogue

variable {p : Policies} {s : Session} {text : String} {m : Malformed} {id : Id}

/-! ### One text -/

theorem turn_of_fails (h : p.malformed.Fails text m) (s : Session) :
    turn p s text = ⟨s, [], some (.error (.envelope m))⟩ := by
  obtain ⟨hdecode, hanswer⟩ := h
  rw [turn, hdecode]
  dsimp only
  cases hp : p.malformed with
  | terminate => rfl
  | reject => rw [hanswer hp]

theorem turn_of_rejects (h : p.malformed.Rejects text m id) (s : Session) :
    turn p s text = ⟨s, [m.answer id], none⟩ := by
  rw [turn, h.malformed]
  simp only [h.reject, h.usable]
  rfl

theorem fails_or_rejects (h : Request.decode text = .error m) :
    p.malformed.Fails text m ∨ ∃ id, p.malformed.Rejects text m id := by
  cases hid : m.id with
  | none => exact Or.inl ⟨h, fun _ => hid⟩
  | some id =>
    cases hp : p.malformed with
    | terminate => exact Or.inl ⟨h, by simp⟩
    | reject => exact Or.inr ⟨id, h, rfl, hid⟩

/-- A request closes an open session just if it calls to shut down or to exit. -/
theorem turn_of_request (hs : s.IsOpen) {r : Request} (h : Request.decode text = .ok r) :
    (∃ t, (turn p s text).ending = some (.ok t)) ∧ (r.method = "shutdown" ∨ r.method = "exit") ∨
      (turn p s text).ending = none ∧ ¬ (r.method = "shutdown" ∨ r.method = "exit") := by
  have hrule := s.handle_rule p.unknown r
  rw [turn, h]
  dsimp only
  generalize (s.handle p.unknown r).reaction = said,
    (s.handle p.unknown r).session = next at hrule ⊢
  cases hrule with
  | exit method => simp [method]
  | refuse _ closing _ => exact absurd hs closing.not_isOpen
  | ignore _ closing _ => exact absurd hs closing.not_isOpen
  | shutDown method _ => simp [method]
  | note exit shutDown _ _ => simp [exit, shutDown]
  | answer _ _ answer => simp [answer.ne_closing]
  | pass _ _ method _ => simp [method.ne_closing]

theorem turn_of_closes (hs : s.IsOpen) (h : Closes text) :
    ∃ t, (turn p s text).ending = some (.ok t) := by
  obtain ⟨r, hdecode, hmethod⟩ := h
  rcases turn_of_request hs hdecode with ⟨hending, _⟩ | ⟨_, hother⟩
  · exact hending
  · contradiction

theorem turn_fails_iff (hs : s.IsOpen) :
    (turn p s text).ending = some (.error (.envelope m)) ↔ p.malformed.Fails text m := by
  constructor
  · intro h
    cases hdecode : Request.decode text with
    | error m' =>
      rcases fails_or_rejects hdecode with hfails | ⟨id, hrejects⟩
      · rw [turn_of_fails hfails] at h
        cases h
        exact hfails
      · rw [turn_of_rejects hrejects] at h
        cases h
    | ok r =>
      rcases turn_of_request hs hdecode with ⟨⟨t, hending⟩, _⟩ | ⟨hending, _⟩
      · cases hending.symm.trans h
      · cases hending.symm.trans h
  · intro h
    rw [turn_of_fails h]

theorem turn_passes_iff (hs : s.IsOpen) :
    (turn p s text).ending = none ↔ p.malformed.Passes text := by
  constructor
  · intro h
    constructor
    · intro hcloses
      obtain ⟨t, hending⟩ := turn_of_closes (p := p) hs hcloses
      cases hending.symm.trans h
    · intro m hfails
      cases ((turn_fails_iff hs).2 hfails).symm.trans h
  · intro h
    cases hdecode : Request.decode text with
    | error m =>
      rcases fails_or_rejects hdecode with hfails | ⟨id, hrejects⟩
      · exact absurd hfails (h.unfailed m)
      · rw [turn_of_rejects hrejects]
    | ok r =>
      rcases turn_of_request hs hdecode with ⟨_, hcloses⟩ | ⟨hending, _⟩
      · exact absurd ⟨r, hdecode, hcloses⟩ h.unclosed
      · exact hending

/-! ### Many texts -/

variable {before : List String}

theorem ofTexts_passes_iff (hs : s.IsOpen) {texts : List String} :
    (ofTexts p s texts).ending = none ↔ ∀ text ∈ texts, p.malformed.Passes text := by
  induction texts generalizing s with
  | nil => exact iff_of_true rfl (List.forall_mem_nil _)
  | cons text more ih =>
    rw [List.forall_mem_cons, ← turn_passes_iff hs, ofTexts]
    constructor
    · intro h
      have hturn := ending_of_andThen h
      rw [andThen_of_none hturn] at h
      exact ⟨hturn, (ih (turn_isOpen hs hturn)).1 h⟩
    · rintro ⟨hturn, hmore⟩
      rw [andThen_of_none hturn]
      exact (ih (turn_isOpen hs hturn)).2 hmore

theorem ofTexts_of_fails (hs : s.IsOpen) (hbefore : ∀ t ∈ before, p.malformed.Passes t)
    (h : p.malformed.Fails text m) (after : List String) :
    ofTexts p s (before ++ text :: after) =
        ⟨(ofTexts p s before).session, (ofTexts p s before).responses,
          some (.error (.envelope m))⟩ ∧
      heard p s (before ++ text :: after) = before ++ [text] := by
  have hnone := (ofTexts_passes_iff hs).2 hbefore
  have hturn := turn_of_fails h (ofTexts p s before).session
  constructor
  · rw [ofTexts_append, andThen_of_none hnone, ofTexts, andThen_of_some (by rw [hturn]), hturn,
      List.append_nil]
  · rw [heard_append_of_none hnone, heard_of_none hnone, heard, hturn]

theorem ofTexts_of_rejects (hs : s.IsOpen) (hbefore : ∀ t ∈ before, p.malformed.Passes t)
    (h : p.malformed.Rejects text m id) (after : List String) :
    ofTexts p s (before ++ text :: after) =
      let rest := ofTexts p (ofTexts p s before).session after
      ⟨rest.session, (ofTexts p s before).responses ++ m.answer id :: rest.responses,
        rest.ending⟩ := by
  have hnone := (ofTexts_passes_iff hs).2 hbefore
  have hturn := turn_of_rejects h (ofTexts p s before).session
  rw [ofTexts_append, andThen_of_none hnone, ofTexts, andThen_of_none (by rw [hturn]), hturn]
  rfl

/-- A dialogue that fails does so by a text that nothing closes it before. -/
theorem exists_fails_of_ending (hs : s.IsOpen) {texts : List String}
    (h : (ofTexts p s texts).ending = some (.error (.envelope m))) :
    ∃ before text after, texts = before ++ text :: after ∧ (∀ t ∈ before, ¬ Closes t) ∧
      ∃ m, p.malformed.Fails text m := by
  obtain ⟨before, text, after, rfl, hbefore, hturn⟩ := ofTexts_ended h
  have hopen : (ofTexts p s before).session.IsOpen := by
    have hproper := ofTexts_proper hs p before
    rwa [Proper, hbefore] at hproper
  have hpasses := (ofTexts_passes_iff hs).1 hbefore
  exact ⟨before, text, after, rfl, fun t ht => (hpasses t ht).unclosed, m,
    (turn_fails_iff hopen).1 hturn⟩

/-- It fails by this text, or by one in front of it. -/
theorem ending_of_fails (hs : s.IsOpen) (hbefore : ∀ t ∈ before, ¬ Closes t)
    (h : p.malformed.Fails text m) (after : List String) :
    ∃ m, (ofTexts p s (before ++ text :: after)).ending = some (.error (.envelope m)) := by
  induction before generalizing s with
  | nil =>
    obtain ⟨hfailed, _⟩ := ofTexts_of_fails hs (List.forall_mem_nil _) h after
    exact ⟨m, congrArg ending hfailed⟩
  | cons first before ih =>
    obtain ⟨hcloses, hmore⟩ := List.forall_mem_cons.1 hbefore
    by_cases hfails : ∃ m, p.malformed.Fails first m
    · obtain ⟨m', hfails⟩ := hfails
      obtain ⟨hfailed, _⟩ :=
        ofTexts_of_fails hs (List.forall_mem_nil _) hfails (before ++ text :: after)
      exact ⟨m', congrArg ending hfailed⟩
    · have hturn := (turn_passes_iff hs).2 ⟨hcloses, not_exists.1 hfails⟩
      rw [List.cons_append, ofTexts, andThen_of_none hturn]
      exact ih (turn_isOpen hs hturn) hmore

end Dialogue

/-- A text with an id, but without a method. -/
def Message.methodless : String := "\x7b\"jsonrpc\":\"2.0\",\"id\":\"a\"\x7d"

theorem Message.decode_methodless :
    Request.decode methodless = .error ⟨methodless, .missingMethod, some (.string "a")⟩ := by
  have hparse : Json.parse methodless =
      .ok (.object [("id", .string "a"), ("jsonrpc", .string "2.0")]) :=
    Json.ok_of_toOption (by decide +kernel)
  rw [Request.decode, Message.open?, hparse]
  rfl

/-- A stream fails by a body that is no request just if there is one that cannot be answered, or is
not to be, before the first that closes the session. Then the first of these is reported, what was
said to the bodies before it has been written, and no body behind it is heard. Any other body that
is no request is answered in its place, whatever the session is like, which stays as it is. -/
theorem serve_malformed (p : Policies) {bodies : List Bytes}
    (hbodies : ∀ b ∈ bodies, b.length < Bytes.limit) {reads : List Read}
    (hreads : Read.Delivers reads (bodies.flatMap Frame.encode)) {sink : Sink}
    (hsink : sink.Tireless) :
    let texts := bodies.map Text.Lossy.decode
    let served := serve p reads sink
    ((∃ m, served.outcome = .error (.envelope m)) ↔
      ∃ before text after, texts = before ++ text :: after ∧
        (∀ t ∈ before, ¬ Dialogue.Closes t) ∧ ∃ m, p.malformed.Fails text m) ∧
    (∀ before text after, texts = before ++ text :: after →
      (∀ t ∈ before, p.malformed.Passes t) →
      let said := Dialogue.ofTexts p .fresh before
      let rest := Dialogue.ofTexts p said.session after
      (∀ m, p.malformed.Fails text m →
        served.outcome = .error (.envelope m) ∧ m.Reports text (Request.Broken text) ∧
          served.connection.sink = sink.took said.bytes ∧
          served.connection.session = said.session ∧
          Log.bodies served.events = before ++ [text]) ∧
      ∀ m id, p.malformed.Rejects text m id →
        m.Reports text (Request.Broken text) ∧
          served.Had sink
            ⟨rest.session, said.responses ++ m.answer id :: rest.responses, rest.ending⟩
            (.ok .endOfInput)) ∧
    ∀ (c : Connection) (text : String) (m : Malformed) (id : Id), c.sink.Tireless →
      c.policies.malformed.Rejects text m id →
      (c.handle text).outcome = .ok none ∧ (c.handle text).connection.session = c.session ∧
        (c.handle text).connection.sink =
          c.sink.took (Frame.encode (Bytes.ofString (m.answer id).encode)) := by
  intro texts served
  have hopen := Session.fresh_isOpen
  have hparse := Frame.parse_bodies hbodies
  have htexts : (Frame.parse (bodies.flatMap Frame.encode)).frames.map Frame.text = texts := by
    rw [hparse, List.map_map]
    rfl
  have hhad := serve_of_parse hsink p hreads (by rw [hparse])
  obtain ⟨hheard, hsession⟩ := serve_heard hsink p hreads (by rw [hparse])
  rw [htexts] at hhad hheard hsession
  refine ⟨?_, fun before text after hsplit hbefore => ⟨fun m hfails => ?_, fun m id hrejects => ?_⟩,
    fun c text m id hc hrejects => ?_⟩
  · have hends (m : Malformed) : served.outcome = .error (.envelope m) ↔
        (Dialogue.ofTexts p .fresh texts).ending = some (.error (.envelope m)) := by
      rw [hhad.outcome]
      cases (Dialogue.ofTexts p .fresh texts).ending <;> simp
    simp only [hends]
    constructor
    · rintro ⟨m, hm⟩
      exact Dialogue.exists_fails_of_ending hopen hm
    · rintro ⟨before, text, after, hsplit, hbefore, m, hfails⟩
      rw [hsplit]
      exact Dialogue.ending_of_fails hopen hbefore hfails after
  · obtain ⟨hfailed, hlast⟩ := Dialogue.ofTexts_of_fails hopen hbefore hfails after
    rw [← hsplit] at hfailed hlast
    rw [hfailed] at hhad hsession
    exact ⟨hhad.outcome, Request.decode_error hfails.malformed, hhad.sink, hsession,
      hheard.trans hlast⟩
  · rw [hsplit, Dialogue.ofTexts_of_rejects hopen hbefore hrejects after] at hhad
    exact ⟨Request.decode_error hrejects.malformed, hhad⟩
  · obtain ⟨hsent, hkept, hout⟩ := (Connection.handle_relays c text).of_tireless hc
    rw [Dialogue.turn_of_rejects hrejects] at hsent hkept hout
    refine ⟨hout, hkept, ?_⟩
    rw [hsent, Dialogue.bytes, List.flatMap_singleton]

/-- A body that is answered, one that is not, and a call to shut down that comes too late. -/
theorem serve_malformed_mixed :
    let texts := [Message.methodless, "\x7bnot json", Request.farewell.encode]
    let stream := (texts.map Bytes.ofString).flatMap Frame.encode
    let served := serve ⟨.reject, .ignore⟩ [.bytes stream] .perfect
    (∃ m, served.outcome = .error (.envelope m) ∧ m.text = "\x7bnot json") ∧
      served.connection.sink.accepted = Frame.encode (Bytes.ofString (Response.encode
        ⟨some (.string "a"), .error ⟨-32600, "`method` must be a string", none⟩⟩)) ∧
      Log.bodies served.events = [Message.methodless, "\x7bnot json"] := by
  intro texts stream served
  have hbodies : ∀ b ∈ texts.map Bytes.ofString, b.length < Bytes.limit := by decide
  have hreads : Read.Delivers [.bytes stream] stream := Read.delivers_single (by decide)
  have htexts : (texts.map Bytes.ofString).map Text.Lossy.decode = texts := by
    simp [Function.comp_def, Text.Lossy.decode_ofString]
  have hrejects : MalformedPolicy.reject.Rejects Message.methodless _ (.string "a") :=
    ⟨Message.decode_methodless, rfl, rfl⟩
  have hpasses : ∀ t ∈ [Message.methodless], MalformedPolicy.reject.Passes t := by
    intro t ht
    rw [List.mem_singleton.1 ht]
    constructor
    · rintro ⟨r, hr, _⟩
      cases hr.symm.trans Message.decode_methodless
    · rintro m ⟨hm, hunanswered⟩
      cases hm.symm.trans Message.decode_methodless
      cases hunanswered rfl
  obtain ⟨m, hm⟩ : ∃ m, MalformedPolicy.reject.Fails "\x7bnot json" m := ⟨_, rfl, fun _ => rfl⟩
  obtain ⟨_, hfirst, _⟩ := serve_malformed ⟨.reject, .ignore⟩ hbodies hreads Sink.tireless_perfect
  rw [htexts] at hfirst
  obtain ⟨hout, hreports, hsink, _, hheard⟩ := (hfirst _ _ _ rfl hpasses).1 m hm
  refine ⟨⟨m, hout, hreports.same⟩, ?_, hheard⟩
  rw [hsink, Sink.perfect_took, Dialogue.ofTexts_singleton, Dialogue.turn_of_rejects hrejects]
  exact List.append_nil _

end HoverServer
