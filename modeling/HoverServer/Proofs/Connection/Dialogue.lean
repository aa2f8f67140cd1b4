import HoverServer.Connection.Serve
import HoverServer.Proofs.Message.RoundTrip
import HoverServer.Proofs.Session.Move

/-! What a client hears when it says one text after the other, told without bytes: a session, the
responses in order, and how it ends. A connection on a sink that never fails does just that with
the bodies that its decoder hands on. -/
namespace HoverServer

structure Dialogue where
  session : Session
  responses : List Response
  ending : Option (Except ServeError Termination)

namespace Dialogue

/-- One text and what comes of it. -/
def turn (p : Policies) (s : Session) (text : String) : Dialogue :=
  match Request.decode text with
  | .error m =>
    match p.malformed, m.id with
    | .reject, some id => ⟨s, [⟨some id, .error ⟨-32600, m.fault.message, none⟩⟩], none⟩
    | _, _ => ⟨s, [], some (.error (.envelope m))⟩
  | .ok r =>
    let handled := s.handle p.unknown r
    match handled.reaction with
    | .respond answer => ⟨handled.session, [answer], none⟩
    | .silent => ⟨handled.session, [], none⟩
    | .shutdown answer => ⟨handled.session, answer.toList, some (.ok .shutdown)⟩
    | .exit graceful => ⟨handled.session, [], some (.ok (.exit graceful))⟩

/-- Goes on from where a dialogue has come to, unless it has ended. -/
def andThen (d : Dialogue) (more : Session → Dialogue) : Dialogue :=
  match d.ending with
  | some _ => d
  | none =>
    ⟨(more d.session).session, d.responses ++ (more d.session).responses, (more d.session).ending⟩

/-- Texts are taken in order, up to the first that ends the dialogue. -/
def ofTexts (p : Policies) (s : Session) : List String → Dialogue
  | [] => ⟨s, [], none⟩
  | text :: more => (turn p s text).andThen fun s => ofTexts p s more

/-- The dialogue with a client whose bodies come out of a decoder. A fault ends it. -/
def ofFeeds (p : Policies) (s : Session) : List (Except Frame.Fault (List String)) → Dialogue
  | [] => ⟨s, [], none⟩
  | .error fault :: _ => ⟨s, [], some (.error (.framing fault))⟩
  | .ok texts :: more => (ofTexts p s texts).andThen fun s => ofFeeds p s more

/-- What is written, message by message. -/
def messages (d : Dialogue) : List Bytes :=
  d.responses.map fun r => Frame.encode (Bytes.ofString r.encode)

/-- What is written. -/
def bytes (d : Dialogue) : Bytes :=
  d.responses.flatMap fun r => Frame.encode (Bytes.ofString r.encode)

/-- What becomes of a connection by a dialogue. -/
def outcome (d : Dialogue) : Except ServeError (Option Termination) :=
  match d.ending with
  | none => .ok none
  | some (.ok t) => .ok (some t)
  | some (.error e) => .error e

/-- The session once everything has been said. A shutdown that was answered is over. -/
def settled (d : Dialogue) : Session :=
  match d.ending with
  | some (.ok .shutdown) => ⟨.exited, d.session.client⟩
  | _ => d.session

theorem flatten_messages (d : Dialogue) : d.messages.flatten = d.bytes :=
  List.flatMap_def.symm

theorem outcome_ok_none_iff {d : Dialogue} : d.outcome = .ok none ↔ d.ending = none := by
  rw [outcome]
  generalize d.ending = ending
  cases ending with
  | none => simp
  | some e => cases e <;> simp

theorem outcome_ok_some_iff {d : Dialogue} {t : Termination} :
    d.outcome = .ok (some t) ↔ d.ending = some (.ok t) := by
  rw [outcome]
  generalize d.ending = ending
  cases ending with
  | none => simp
  | some e => cases e <;> simp

theorem outcome_error_iff {d : Dialogue} {e : ServeError} :
    d.outcome = .error e ↔ d.ending = some (.error e) := by
  rw [outcome]
  generalize d.ending = ending
  cases ending with
  | none => simp
  | some e => cases e <;> simp

theorem andThen_of_some {d : Dialogue} {e : Except ServeError Termination}
    (h : d.ending = some e) (more : Session → Dialogue) : d.andThen more = d := by
  simp only [andThen, h]

theorem andThen_of_none {d : Dialogue} (h : d.ending = none) (more : Session → Dialogue) :
    d.andThen more = ⟨(more d.session).session, d.responses ++ (more d.session).responses,
      (more d.session).ending⟩ := by
  simp only [andThen, h]

theorem ending_of_andThen {d : Dialogue} {more : Session → Dialogue}
    (h : (d.andThen more).ending = none) : d.ending = none := by
  cases hd : d.ending with
  | none => rfl
  | some e =>
    rw [andThen_of_some hd, hd] at h
    cases h

theorem silent_andThen (s : Session) (more : Session → Dialogue) :
    andThen ⟨s, [], none⟩ more = more s := by
  simp [andThen]

theorem andThen_silent (d : Dialogue) : (d.andThen fun s => ⟨s, [], none⟩) = d := by
  cases h : d.ending with
  | some e => rw [andThen_of_some h]
  | none => simp [andThen_of_none h, ← h]

theorem andThen_assoc (d : Dialogue) (f g : Session → Dialogue) :
    (d.andThen f).andThen g = d.andThen fun s => (f s).andThen g := by
  cases h : d.ending with
  | some e => simp only [andThen_of_some h]
  | none =>
    rw [andThen_of_none h, andThen_of_none h]
    cases hf : (f d.session).ending with
    | some e => simp only [andThen, hf]
    | none => simp only [andThen, hf, List.append_assoc]

theorem ofTexts_append (p : Policies) (s : Session) (u v : List String) :
    ofTexts p s (u ++ v) = (ofTexts p s u).andThen fun s => ofTexts p s v := by
  induction u generalizing s with
  | nil => rw [List.nil_append, ofTexts, silent_andThen]
  | cons text u ih => simp only [List.cons_append, ofTexts, ih, andThen_assoc]

theorem ofTexts_singleton (p : Policies) (s : Session) (text : String) :
    ofTexts p s [text] = turn p s text :=
  andThen_silent _

theorem bytes_andThen {d : Dialogue} (h : d.ending = none) (more : Session → Dialogue) :
    (d.andThen more).bytes = d.bytes ++ (more d.session).bytes := by
  rw [andThen_of_none h, bytes, List.flatMap_append]
  rfl

theorem ofFeeds_ok (p : Policies) (s : Session) (bodies : List (List String))
    (more : List (Except Frame.Fault (List String))) :
    ofFeeds p s (bodies.map .ok ++ more) =
      (ofTexts p s bodies.flatten).andThen fun s => ofFeeds p s more := by
  induction bodies generalizing s with
  | nil => rw [List.map_nil, List.nil_append, List.flatten_nil, ofTexts, silent_andThen]
  | cons texts bodies ih =>
    simp only [List.map_cons, List.cons_append, ofFeeds, ih, List.flatten_cons, ofTexts_append,
      andThen_assoc]

/-- What one turn can be. -/
inductive Turn (s : Session) : Dialogue → Prop where
  | stay (responses : List Response) : Turn s ⟨s, responses, none⟩
  | greet (phase : s.phase = .uninitialized) (id : Id) (client : Option ClientInfo) :
      Turn s ⟨⟨.initialized, client⟩, [⟨some id, .result (greetingResult client)⟩], none⟩
  | shutDown (unclosed : s.IsOpen) (responses : List Response) :
      Turn s ⟨⟨.shuttingDown, s.client⟩, responses, some (.ok .shutdown)⟩
  | leave :
      Turn s ⟨⟨.exited, s.client⟩, [], some (.ok (.exit (s.phase == .shuttingDown)))⟩
  | fail (m : Malformed) : Turn s ⟨s, [], some (.error (.envelope m))⟩

theorem turn_cases (p : Policies) (s : Session) (text : String) : Turn s (turn p s text) := by
  rw [turn]
  cases Request.decode text with
  | error m =>
    simp only
    split
    · exact .stay _
    · exact .fail m
  | ok r =>
    have hmove := s.handle_move p.unknown r
    dsimp only
    generalize (s.handle p.unknown r).reaction = said,
      (s.handle p.unknown r).session = next at hmove ⊢
    cases hmove with
    | leave _ => exact .leave
    | greet _ hphase _ _ => exact .greet hphase _ _
    | hover _ _ _ _ => exact .stay _
    | shutDown _ hopen => exact .shutDown hopen _
    | refuse _ _ => exact .stay _
    | ignore _ => exact .stay []

/-- A dialogue that does not come to its end leaves the session open, and there are two ways for
it to end. -/
def Proper (d : Dialogue) : Prop :=
  match d.ending with
  | some (.ok t) => t = .shutdown ∨ t = .exit false
  | _ => d.session.IsOpen

variable {d : Dialogue} {p : Policies} {s : Session}

theorem turn_proper (hs : s.IsOpen) (p : Policies) (text : String) : (turn p s text).Proper := by
  have hturn := turn_cases p s text
  generalize turn p s text = d at hturn ⊢
  cases hturn with
  | stay _ => exact hs
  | greet _ _ _ => exact Or.inr rfl
  | shutDown _ _ => exact Or.inl rfl
  | leave =>
    have hclosing : (s.phase == .shuttingDown) = false := by
      obtain h | h := hs <;> rw [h] <;> rfl
    rw [hclosing]
    exact Or.inr rfl
  | fail _ => exact hs

theorem Proper.andThen (h : d.Proper) {more : Session → Dialogue}
    (hmore : d.session.IsOpen → (more d.session).Proper) : (d.andThen more).Proper := by
  cases hd : d.ending with
  | some e => rwa [andThen_of_some hd]
  | none =>
    rw [Proper, hd] at h
    rw [andThen_of_none hd]
    exact hmore h

theorem ofTexts_proper (hs : s.IsOpen) (p : Policies) (texts : List String) :
    (ofTexts p s texts).Proper := by
  induction texts generalizing s with
  | nil => exact hs
  | cons text more ih => exact (turn_proper hs p text).andThen fun h => ih h

theorem ofFeeds_proper (hs : s.IsOpen) (p : Policies)
    (feeds : List (Except Frame.Fault (List String))) : (ofFeeds p s feeds).Proper := by
  induction feeds generalizing s with
  | nil => exact hs
  | cons fed more ih =>
    cases fed with
    | error fault => exact hs
    | ok texts => exact (ofTexts_proper hs p texts).andThen fun h => ih h

end Dialogue

theorem Dialogue.ofTexts_farewell (p : Policies) :
    ofTexts p .fresh [Request.farewell.encode] =
      ⟨⟨.shuttingDown, none⟩, [⟨Request.farewell.id, .result .null⟩], some (.ok .shutdown)⟩ := by
  rw [ofTexts_singleton, turn, Request.decode_farewell]
  rfl

end HoverServer
