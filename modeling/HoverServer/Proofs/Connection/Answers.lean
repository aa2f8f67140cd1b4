import HoverServer.Proofs.Connection.Serve
import HoverServer.Proofs.Message.RoundTrip
import HoverServer.Proofs.Session.Reaction

/-! What a client reads back: one response for each message that calls for one, in the order of
the messages and under their ids. -/
namespace HoverServer
open HoverServer.Frame (Decoder)

namespace Dialogue

/-- The id that a text is to be answered by. -/
def addressee (p : Policies) (text : String) : Option Id :=
  match Request.decode text with
  | .ok r => r.addressee p.unknown
  | .error m => if p.malformed = .reject then m.id else none

theorem turn_of_ok {text : String} {r : Request} (h : Request.decode text = .ok r)
    (p : Policies) (s : Session) :
    (turn p s text).responses = (s.handle p.unknown r).reaction.responses := by
  rw [turn, h]
  dsimp only
  cases (s.handle p.unknown r).reaction <;> rfl

theorem turn_of_error {text : String} {m : Malformed} (h : Request.decode text = .error m)
    (p : Policies) (s : Session) :
    (turn p s text).responses = (if p.malformed = .reject then m.id else none).toList.map
      fun id => ⟨some id, .error ⟨-32600, m.fault.message, none⟩⟩ := by
  rw [turn, h]
  dsimp only
  cases p.malformed with
  | terminate => rfl
  | reject => cases m.id <;> rfl

theorem turn_ids {s : Session} (hs : s.IsOpen) (p : Policies) (text : String) :
    (turn p s text).responses.map Response.id = (addressee p text).toList.map some := by
  rw [addressee]
  cases h : Request.decode text with
  | ok r => rw [turn_of_ok h, hs.responses_id]
  | error m =>
    rw [turn_of_error h, List.map_map]
    rfl

theorem turn_exact {text : String} (hid : ∀ id, Message.idOf text = some id → id.Exact)
    (p : Policies) (s : Session) : ∀ x ∈ (turn p s text).responses, x.Exact := by
  cases h : Request.decode text with
  | ok r =>
    have hrequest : ∀ id, r.id = some id → id.Exact := by
      intro id hr
      apply hid id
      apply Request.idOf_of_decode
      rw [h]
      exact hr
    rw [turn_of_ok h]
    exact Verdict.responses_exact hrequest _ _ s
  | error m =>
    rw [turn_of_error h]
    intro x hx
    obtain ⟨id, hm, rfl⟩ := List.mem_map.1 hx
    rw [Option.mem_toList] at hm
    have hm' : m.id = some id := by
      split at hm
      · exact hm
      · cases hm
    have hexact : id.Exact := by
      apply hid id
      apply Request.idOf_of_decode
      rw [h]
      exact hm'
    exact Response.failure_exact hexact .invalidRequest _

theorem turn_isOpen {p : Policies} {s : Session} {text : String} (hs : s.IsOpen)
    (h : (turn p s text).ending = none) : (turn p s text).session.IsOpen := by
  have hproper := turn_proper hs p text
  rwa [Proper, h] at hproper

/-- The texts up to the one that ends the dialogue. -/
def heard (p : Policies) (s : Session) : List String → List String
  | [] => []
  | text :: more =>
    match (turn p s text).ending with
    | some _ => [text]
    | none => text :: heard p (turn p s text).session more

theorem ofTexts_ids {s : Session} (hs : s.IsOpen) (p : Policies) (texts : List String) :
    (ofTexts p s texts).responses.map Response.id =
      ((heard p s texts).filterMap (addressee p)).map some := by
  have hcons (text : String) (more : List String) : (text :: more).filterMap (addressee p) =
      (addressee p text).toList ++ more.filterMap (addressee p) := by
    rw [List.filterMap_cons]
    cases addressee p text <;> rfl
  induction texts generalizing s with
  | nil => rfl
  | cons text more ih =>
    rw [ofTexts, heard]
    cases h : (turn p s text).ending with
    | some e =>
      rw [andThen_of_some h, turn_ids hs, hcons, List.filterMap_nil, List.append_nil]
    | none =>
      rw [andThen_of_none h, List.map_append, turn_ids hs, ih (turn_isOpen hs h), hcons,
        List.map_append]

theorem ofTexts_exact {texts : List String}
    (hids : ∀ text ∈ texts, ∀ id, Message.idOf text = some id → id.Exact) (p : Policies)
    (s : Session) : ∀ x ∈ (ofTexts p s texts).responses, x.Exact := by
  induction texts generalizing s with
  | nil =>
    intro x hx
    cases hx
  | cons text more ih =>
    have hfirst := turn_exact (hids text (by simp)) p s
    rw [ofTexts]
    cases h : (turn p s text).ending with
    | some e =>
      rw [andThen_of_some h]
      exact hfirst
    | none =>
      rw [andThen_of_none h]
      intro x hx
      rcases List.mem_append.1 hx with hx | hx
      · exact hfirst x hx
      · apply ih _ _ x hx
        intro t ht
        exact hids t (List.mem_cons_of_mem text ht)

end Dialogue

theorem Frame.Decoder.feed_encode {bodies : List Bytes} (h : ∀ b ∈ bodies, b.length < Bytes.limit) :
    (empty.feed (bodies.flatMap encode)).bodies = .ok (bodies.map Text.Lossy.decode) ∧
      (empty.feed (bodies.flatMap encode)).decoder.buffer = [] := by
  have hparse := parse_bodies h
  constructor
  · rw [Idle.empty.feed_bodies (by rw [empty_append, hparse]), empty_append, hparse, List.map_map]
    rfl
  · rw [Idle.empty.feed_buffer, empty_append, hparse]

/-- A client reads back the responses of a dialogue, as long as they are not too long for it. -/
theorem Dialogue.read_back {d : Dialogue} (hexact : ∀ r ∈ d.responses, r.Exact)
    (hroom : d.bytes.length < Bytes.limit) :
    (Decoder.empty.feed d.bytes).decoder.buffer = [] ∧
      ∃ texts : List String, (Decoder.empty.feed d.bytes).bodies = .ok texts ∧
        texts.map Response.decode = (d.responses.map Response.plain).map .ok := by
  let bodies := d.responses.map fun r => Bytes.ofString r.encode
  have hbytes : d.bytes = bodies.flatMap Frame.encode := by
    rw [bytes, List.flatMap_map]
  have hlengths : ∀ b ∈ bodies, b.length < Bytes.limit := by
    intro b hb
    have hle : (Frame.encode b).length ≤ (bodies.flatMap Frame.encode).length :=
      (List.sublist_flatten_of_mem (List.mem_map_of_mem hb)).length_le
    rw [Frame.encode_eq, List.length_append, List.length_append, ← hbytes] at hle
    omega
  obtain ⟨htexts, hbuffer⟩ := Decoder.feed_encode hlengths
  rw [hbytes]
  refine ⟨hbuffer, _, htexts, ?_⟩
  simp only [bodies, List.map_map]
  apply List.map_congr_left
  intro r hr
  simp only [Function.comp_apply, Text.Lossy.decode_ofString]
  exact Response.decode_encode (hexact r hr)

/-- A client that reads the output of a connection finds one response for each message that it is
owed one for, up to the message that ended the connection, in order and under the right ids. It
reads the output as a whole, which takes a program that can hold it. -/
theorem serve_answers (p : Policies) {bodies : List Bytes}
    (hbodies : ∀ b ∈ bodies, b.length < Bytes.limit)
    (hids : ∀ b ∈ bodies, ∀ id, Message.idOf (Text.Lossy.decode b) = some id → id.Exact)
    {reads : List Read} (hreads : Read.Delivers reads (bodies.flatMap Frame.encode)) {sink : Sink}
    (hsink : sink.Tireless) (hfresh : sink.accepted = [])
    (hroom : (serve p reads sink).connection.sink.accepted.length < Bytes.limit) :
    let client := Decoder.empty.feed (serve p reads sink).connection.sink.accepted
    let heard := Dialogue.heard p .fresh (bodies.map Text.Lossy.decode)
    client.decoder.buffer = [] ∧
      ∃ (texts : List String) (responses : List Response), client.bodies = .ok texts ∧
        texts.map Response.decode = responses.map .ok ∧
        responses.map Response.id = (heard.filterMap (Dialogue.addressee p)).map some := by
  intro client heard
  have hparse := Frame.parse_bodies hbodies
  have hhad := serve_of_parse hsink p hreads (by rw [hparse])
  rw [hparse, List.map_map] at hhad
  have houtput : (serve p reads sink).connection.sink.accepted =
      (Dialogue.ofTexts p .fresh (bodies.map Text.Lossy.decode)).bytes := by
    rw [hhad.sink, Sink.took, hfresh]
    rfl
  have htextIds : ∀ text ∈ bodies.map Text.Lossy.decode, ∀ id, Message.idOf text = some id →
      id.Exact := by simpa using hids
  have hexact := Dialogue.ofTexts_exact htextIds p .fresh
  rw [houtput] at hroom
  obtain ⟨hbuffer, texts, htexts, hdecode⟩ := Dialogue.read_back hexact hroom
  simp only [client, houtput]
  refine ⟨hbuffer, texts, _, htexts, hdecode, ?_⟩
  rw [List.map_map, ← Dialogue.ofTexts_ids Session.fresh_isOpen]
  exact List.map_congr_left fun r _ => r.plain_id

/-- The one response to a call to shut down. -/
theorem serve_answers_farewell :
    let stream := [Bytes.ofString Request.farewell.encode].flatMap Frame.encode
    let client :=
      Decoder.empty.feed (serve .standard [.bytes stream] .perfect).connection.sink.accepted
    client.decoder.buffer = [] ∧
      ∃ (texts : List String) (responses : List Response), client.bodies = .ok texts ∧
        texts.map Response.decode = responses.map .ok ∧
        responses.map Response.id = [Request.farewell.id] := by
  intro stream client
  have hbodies : ∀ b ∈ [Bytes.ofString Request.farewell.encode], b.length < Bytes.limit := by decide
  have hreads : Read.Delivers [.bytes stream] stream := Read.delivers_single (by decide)
  have hids : ∀ b ∈ [Bytes.ofString Request.farewell.encode], ∀ id,
      Message.idOf (Text.Lossy.decode b) = some id → id.Exact := by
    intro b hb id hid
    rw [List.mem_singleton.1 hb, Text.Lossy.decode_ofString, Request.idOf_farewell] at hid
    cases hid
    trivial
  have hroom : (serve .standard [.bytes stream] .perfect).connection.sink.accepted.length <
      Bytes.limit := by
    rw [(serve_farewell Sink.tireless_perfect .standard hreads).sink]
    decide
  have hheard : Dialogue.heard .standard .fresh [Request.farewell.encode] =
      [Request.farewell.encode] := by
    rw [Dialogue.heard, Dialogue.turn, Request.decode_farewell]
    rfl
  have howed : [Request.farewell.encode].filterMap (Dialogue.addressee .standard) =
      Request.farewell.id.toList := by
    rw [List.filterMap_cons, Dialogue.addressee, Request.decode_farewell]
    rfl
  have h := serve_answers .standard hbodies hids hreads Sink.tireless_perfect rfl hroom
  simp only [List.map_singleton, Text.Lossy.decode_ofString, hheard, howed] at h
  exact h

end HoverServer
