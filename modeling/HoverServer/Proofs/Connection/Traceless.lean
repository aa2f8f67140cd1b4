import HoverServer.Proofs.Connection.Serve

/-! Messages that leave no trace. A message that is refused or met with silence leaves the session
as it was, so the others are answered as if it had never been sent. -/
namespace HoverServer
open HoverServer.Frame (Decoder)

variable {α β : Type}

/-- The items without a mark. -/
def unmarked (items : List (α × Bool)) : List α := (items.filter (!·.2)).map Prod.fst

theorem unmarked_cons (x : α) (mark : Bool) (more : List (α × Bool)) :
    unmarked ((x, mark) :: more) = if mark then unmarked more else x :: unmarked more := by
  cases mark <;> rfl

theorem unmarked_map (f : α → β) (items : List (α × Bool)) :
    unmarked (items.map (Prod.map f id)) = (unmarked items).map f := by
  induction items with
  | nil => rfl
  | cons x more ih =>
    obtain ⟨x, mark⟩ := x
    rw [List.map_cons, Prod.map_apply, unmarked_cons, unmarked_cons, ih]
    cases mark <;> rfl

namespace Dialogue

/-- What every text is met with, up to the one that ends the dialogue. -/
def turns (p : Policies) (s : Session) : List String → List Dialogue
  | [] => []
  | text :: more =>
    match (turn p s text).ending with
    | some _ => [turn p s text]
    | none => turn p s text :: turns p (turn p s text).session more

variable {p : Policies} {s : Session} {text : String}

theorem turns_cons_some {e : Except ServeError Termination} (h : (turn p s text).ending = some e)
    (more : List String) : turns p s (text :: more) = [turn p s text] := by
  simp only [turns, h]

theorem turns_cons_none (h : (turn p s text).ending = none) (more : List String) :
    turns p s (text :: more) = turn p s text :: turns p (turn p s text).session more := by
  simp only [turns, h]

/-- The output of a dialogue is that of its turns. -/
theorem ofTexts_bytes (p : Policies) (s : Session) (texts : List String) :
    (ofTexts p s texts).bytes = (turns p s texts).flatMap bytes := by
  induction texts generalizing s with
  | nil => rfl
  | cons text more ih =>
    rw [ofTexts]
    cases h : (turn p s text).ending with
    | some e => rw [andThen_of_some h, turns_cons_some h, List.flatMap_singleton]
    | none => rw [bytes_andThen h, turns_cons_none h, ih, List.flatMap_cons]

/-- A turn that the dialogue survives and in which nothing is said but errors. -/
structure Traceless (d : Dialogue) : Prop where
  goesOn : d.ending = none
  refuses : ∀ r ∈ d.responses, ∃ e, r.outcome = .error e

/-- There are two ways to go on, and one of them is a success. -/
theorem Traceless.session_eq (h : (turn p s text).Traceless) : (turn p s text).session = s := by
  have hturn := turn_cases p s text
  generalize turn p s text = d at h hturn ⊢
  cases hturn with
  | stay _ => rfl
  | greet _ _ _ =>
    obtain ⟨_, herror⟩ := h.refuses _ (List.mem_singleton.2 rfl)
    cases herror
  | shutDown _ _ => cases h.goesOn
  | leave => cases h.goesOn
  | fail _ => cases h.goesOn

/-- Texts that leave no trace can be left out of a dialogue. -/
theorem turns_unmarked (texts : List (String × Bool))
    (h : ∀ x ∈ (turns p s (texts.map Prod.fst)).zip (texts.map Prod.snd), x.2 = true →
      x.1.Traceless) :
    turns p s (unmarked texts) =
        unmarked ((turns p s (texts.map Prod.fst)).zip (texts.map Prod.snd)) ∧
      (ofTexts p s (unmarked texts)).session = (ofTexts p s (texts.map Prod.fst)).session ∧
      (ofTexts p s (unmarked texts)).ending = (ofTexts p s (texts.map Prod.fst)).ending := by
  induction texts generalizing s with
  | nil => exact ⟨rfl, rfl, rfl⟩
  | cons x more ih =>
    obtain ⟨text, mark⟩ := x
    simp only [List.map_cons] at h ⊢
    cases hend : (turn p s text).ending with
    | some e =>
      -- Nothing behind the last turn is heard, marked or not.
      rw [turns_cons_some hend] at h ⊢
      cases mark with
      | true =>
        have htraceless := h (turn p s text, true) (by simp) rfl
        cases htraceless.goesOn.symm.trans hend
      | false =>
        rw [unmarked_cons, if_neg Bool.false_ne_true, turns_cons_some hend, ofTexts, ofTexts,
          andThen_of_some hend, andThen_of_some hend]
        exact ⟨rfl, rfl, rfl⟩
    | none =>
      rw [turns_cons_none hend] at h ⊢
      have hmore := ih fun x hx => h x (List.mem_cons_of_mem _ hx)
      cases mark with
      | true =>
        have htraceless : (turn p s text).Traceless := h (turn p s text, true) (by simp) rfl
        rw [htraceless.session_eq] at hmore
        simp only [List.zip_cons_cons, unmarked_cons, if_true, ofTexts, andThen_of_none hend,
          htraceless.session_eq]
        exact hmore
      | false =>
        simp only [List.zip_cons_cons, unmarked_cons, Bool.false_eq_true, if_false,
          turns_cons_none hend, ofTexts, andThen_of_none hend]
        exact ⟨by rw [hmore.1], hmore.2⟩

end Dialogue

namespace Connection

/-- Framed bodies that are received in chunks are a dialogue over their texts. -/
theorem receiveAll_encode (p : Policies) {bodies : List Bytes}
    (hbodies : ∀ b ∈ bodies, b.length < Bytes.limit) {chunks : List Bytes}
    (hchunks : chunks.flatten = bodies.flatMap Frame.encode) {sink : Sink}
    (hsink : sink.Tireless) :
    let d := Dialogue.ofTexts p .fresh (bodies.map Text.Lossy.decode)
    let got := (start p sink).receiveAll chunks
    got.connection.sink = sink.took d.bytes ∧ got.connection.session = d.settled ∧
      got.outcome = d.outcome := by
  intro d got
  have hparse := Frame.parse_bodies hbodies
  rw [← hchunks, ← Decoder.empty_append chunks.flatten] at hparse
  have hfeeds := Decoder.Idle.empty.ofFeeds_eq (congrArg Frame.Parse.fault hparse) p .fresh
  rw [hparse, List.map_map] at hfeeds
  have hrelays := receiveAll_relays (c := start p sink) Session.fresh_isOpen.ne_exited chunks
  have hd : Dialogue.ofFeeds p .fresh (Decoder.empty.feeds chunks) = d := hfeeds
  rw [start, hd] at hrelays
  exact hrelays.of_tireless hsink

/-- Any of the messages that were refused or met with silence can be left out, however the frames
are cut into chunks. The others get the same responses, and the connection comes to the same
session and the same end. -/
theorem receiveAll_unmarked (p : Policies) {bodies : List (Bytes × Bool)}
    (hbodies : ∀ b ∈ bodies, b.1.length < Bytes.limit) {chunks fewer : List Bytes}
    (hchunks : chunks.flatten = (bodies.map Prod.fst).flatMap Frame.encode)
    (hfewer : fewer.flatten = (unmarked bodies).flatMap Frame.encode) {sink : Sink}
    (hsink : sink.Tireless) :
    let full := (start p sink).receiveAll chunks
    let less := (start p sink).receiveAll fewer
    let turns := Dialogue.turns p .fresh ((bodies.map Prod.fst).map Text.Lossy.decode)
    let kept := unmarked (turns.zip (bodies.map Prod.snd))
    (∀ x ∈ turns.zip (bodies.map Prod.snd), x.2 = true → x.1.Traceless) →
      full.connection.sink = sink.took (turns.flatMap Dialogue.bytes) ∧
        Dialogue.turns p .fresh ((unmarked bodies).map Text.Lossy.decode) = kept ∧
        less.connection.sink = sink.took (kept.flatMap Dialogue.bytes) ∧
        less.connection.session = full.connection.session ∧ less.outcome = full.outcome := by
  intro full less turns kept hmarks
  have hall : ∀ b ∈ bodies.map Prod.fst, b.length < Bytes.limit := by
    intro b hb
    obtain ⟨x, hx, rfl⟩ := List.mem_map.1 hb
    exact hbodies x hx
  have hsome : ∀ b ∈ unmarked bodies, b.length < Bytes.limit := by
    intro b hb
    obtain ⟨x, hx, rfl⟩ := List.mem_map.1 hb
    exact hbodies x (List.mem_filter.1 hx).1
  obtain ⟨hsinkFull, hsessionFull, houtFull⟩ := receiveAll_encode p hall hchunks hsink
  obtain ⟨hsinkLess, hsessionLess, houtLess⟩ := receiveAll_encode p hsome hfewer hsink
  have htexts : (bodies.map (Prod.map Text.Lossy.decode id)).map Prod.fst =
      (bodies.map Prod.fst).map Text.Lossy.decode := by
    rw [List.map_map, List.map_map]
    rfl
  have hsame : (bodies.map (Prod.map Text.Lossy.decode id)).map Prod.snd =
      bodies.map Prod.snd := by
    rw [List.map_map]
    rfl
  obtain ⟨hturns, hsession, hending⟩ := Dialogue.turns_unmarked (p := p) (s := .fresh)
    (bodies.map (Prod.map Text.Lossy.decode id)) (by rw [htexts, hsame]; exact hmarks)
  rw [htexts, hsame, unmarked_map] at hturns
  rw [htexts, unmarked_map] at hsession hending
  refine ⟨?_, hturns, ?_, ?_, ?_⟩
  · rw [hsinkFull, Dialogue.ofTexts_bytes]
  · rw [hsinkLess, Dialogue.ofTexts_bytes, hturns]
  · rw [hsessionLess, hsessionFull, Dialogue.settled, Dialogue.settled, hsession, hending]
  · rw [houtLess, houtFull, Dialogue.outcome, Dialogue.outcome, hending]

/-- A call for a hover that comes too early is refused, and the call to shut down behind it is
answered with or without it. -/
theorem receiveAll_unmarked_early_hover :
    let hover : Request := ⟨Request.farewell.id, "textDocument/hover", none⟩
    let early := Bytes.ofString hover.encode
    let farewell := Bytes.ofString Request.farewell.encode
    let refusal : Response :=
      ⟨hover.id, .error ⟨-32002, "server has not been initialized", none⟩⟩
    let answer : Response := ⟨Request.farewell.id, .result .null⟩
    let full := (start .standard .perfect).receiveAll [[early, farewell].flatMap Frame.encode]
    let less := (start .standard .perfect).receiveAll [[farewell].flatMap Frame.encode]
    full.connection.sink.accepted = Frame.encode (Bytes.ofString refusal.encode) ++
        Frame.encode (Bytes.ofString answer.encode) ∧
      less.connection.sink.accepted = Frame.encode (Bytes.ofString answer.encode) ∧
      less.connection.session = full.connection.session ∧ less.outcome = full.outcome := by
  intro hover early farewell refusal answer full less
  let refused : Dialogue := ⟨.fresh, [refusal], none⟩
  let closed : Dialogue := ⟨⟨.shuttingDown, none⟩, [answer], some (.ok .shutdown)⟩
  have hcanonical : hover.Canonical :=
    ⟨fun _ h => Option.some.inj h ▸ trivial, fun _ h => nomatch h⟩
  have hrefuse : Dialogue.turn .standard .fresh hover.encode = refused := by
    rw [Dialogue.turn, hcanonical.decode_encode (by decide)]
    rfl
  have hclose : Dialogue.turn .standard .fresh Request.farewell.encode = closed := by
    rw [Dialogue.turn, Request.decode_farewell]
    rfl
  have hturns : Dialogue.turns .standard .fresh ([early, farewell].map Text.Lossy.decode) =
      [refused, closed] := by
    rw [List.map_cons, List.map_singleton, Text.Lossy.decode_ofString, Text.Lossy.decode_ofString,
      Dialogue.turns_cons_none (by rw [hrefuse]), hrefuse,
      Dialogue.turns_cons_some (by rw [hclose]), hclose]
  have htraceless : refused.Traceless := ⟨rfl, fun r hr => List.mem_singleton.1 hr ▸ ⟨_, rfl⟩⟩
  have hrefusal : refused.bytes = Frame.encode (Bytes.ofString refusal.encode) :=
    List.flatMap_singleton ..
  have hanswer : closed.bytes = Frame.encode (Bytes.ofString answer.encode) :=
    List.flatMap_singleton ..
  have hbodies : ∀ b ∈ [(early, true), (farewell, false)], b.1.length < Bytes.limit := by decide
  -- From here on it does not matter what is in the messages.
  clear_value refused closed early farewell refusal answer
  have hall : [[early, farewell].flatMap Frame.encode].flatten =
      ([(early, true), (farewell, false)].map Prod.fst).flatMap Frame.encode :=
    List.flatten_singleton
  have hkept : [[farewell].flatMap Frame.encode].flatten =
      (unmarked [(early, true), (farewell, false)]).flatMap Frame.encode := List.flatten_singleton
  have h := receiveAll_unmarked .standard hbodies hall hkept Sink.tireless_perfect
  rw [List.map_cons, List.map_singleton, hturns] at h
  obtain ⟨hfull, _, hless, hsession, hout⟩ := h (by
    intro x hx hmark
    cases hx with
    | head => exact htraceless
    | tail _ hx =>
      rw [List.mem_singleton.1 hx] at hmark
      cases hmark)
  have hleft : unmarked ([refused, closed].zip ([(early, true), (farewell, false)].map Prod.snd)) =
      [closed] := rfl
  refine ⟨?_, ?_, hsession, hout⟩
  · rw [hfull, Sink.perfect_took, List.flatMap_cons, List.flatMap_singleton, hrefusal, hanswer]
  · rw [hless, Sink.perfect_took, hleft, List.flatMap_singleton, hanswer]

end Connection
end HoverServer
