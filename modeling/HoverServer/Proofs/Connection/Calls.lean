import HoverServer.Proofs.Connection.Serve
import HoverServer.Proofs.Session.Reaction

/-! A connection call by call. The call that ends it is the last one to do anything, and a served
connection reads no further than the message that ended it. -/
namespace HoverServer
open HoverServer.Frame (Decoder)

namespace Dialogue

variable {p : Policies} {s : Session}

/-- A dialogue that ends does so with one of its turns. -/
theorem ofTexts_ended {texts : List String} {e : Except ServeError Termination}
    (h : (ofTexts p s texts).ending = some e) :
    ∃ before text after, texts = before ++ text :: after ∧ (ofTexts p s before).ending = none ∧
      (turn p (ofTexts p s before).session text).ending = some e := by
  induction texts generalizing s with
  | nil => cases h
  | cons text more ih =>
    rw [ofTexts] at h
    cases hd : (turn p s text).ending with
    | some e' =>
      rw [andThen_of_some hd] at h
      exact ⟨[], text, more, rfl, rfl, h⟩
    | none =>
      rw [andThen_of_none hd] at h
      obtain ⟨before, last, after, hmore, hbefore, hlast⟩ := ih h
      refine ⟨text :: before, last, after, by rw [hmore, List.cons_append], ?_, ?_⟩
      · rw [ofTexts, andThen_of_none hd]
        exact hbefore
      · rw [ofTexts, andThen_of_none hd]
        exact hlast

/-- A dialogue that goes on has met no fault. -/
theorem fault_of_ofFeeds {d : Decoder} (hidle : d.Idle) {chunks : List Bytes}
    (h : (ofFeeds p s (d.feeds chunks)).ending = none) :
    (Frame.parse (d.buffer ++ chunks.flatten)).fault = none := by
  cases hf : (Frame.parse (d.buffer ++ chunks.flatten)).fault with
  | none => rfl
  | some fault =>
    obtain ⟨before, chunk, later, rfl, hbefore, _, hfails⟩ := hidle.feeds_fault hf
    obtain ⟨bodies, hbodies, _⟩ := hidle.feeds_ok hbefore
    rw [Decoder.feeds_append, hbodies, hfails, ofFeeds_ok, List.replicate_succ] at h
    cases hd : (ofTexts p s bodies.flatten).ending with
    | some e =>
      rw [andThen_of_some hd, hd] at h
      cases h
    | none =>
      rw [andThen_of_none hd] at h
      cases h

end Dialogue

namespace Connection

/-- What comes of one call after the other, whether the connection is still open or not. -/
def calls (c : Connection) : List Bytes → List Received
  | [] => []
  | chunk :: more => c.receive chunk :: (c.receive chunk).connection.calls more

/-- A connection is seen open or over, and never in between. One call at most ends it, and those
after it change nothing. -/
structure FinishesOnce (calls : List Received) : Prop where
  phases : ∀ x ∈ calls, x.connection.session.phase ≠ .shuttingDown
  exited : ∀ past x more, calls = past ++ x :: more →
    (x.connection.session.phase = .exited ↔ ∃ y ∈ past ++ [x], y.ends)
  once : calls.countP Received.ends ≤ 1
  closed : ∀ past x more, calls = past ++ x :: more → x.ends →
    ∀ y ∈ more, y.outcome = .ok none ∧ y.connection = x.connection

/-- Nothing happens any more once the session has been left. -/
theorem calls_exited {c : Connection} (hs : c.session.phase = .exited) (chunks : List Bytes) :
    ∀ x ∈ c.calls chunks, x.outcome = .ok none ∧ x.connection = c := by
  induction chunks with
  | nil => exact fun x hx => absurd hx List.not_mem_nil
  | cons chunk more ih =>
    obtain ⟨hconnection, hout⟩ := receive_exited hs chunk
    intro x hx
    rw [calls, hconnection] at hx
    cases hx with
    | head => exact ⟨hout, hconnection⟩
    | tail _ hx => exact ih x hx

/-- On a sink that never fails, a call either ends the connection or leaves it open. -/
theorem receive_ends_or_open {c : Connection} (hsink : c.sink.Tireless) (hs : c.session.IsOpen)
    (chunk : Bytes) :
    (c.receive chunk).connection.sink.Tireless ∧
      ((c.receive chunk).ends ∨ (c.receive chunk).connection.session.IsOpen) := by
  obtain ⟨hgot, hsession, hout⟩ := (receive_relays hs.ne_exited chunk).of_tireless hsink
  have hproper := Dialogue.ofFeeds_proper hs c.policies [(c.decoder.feed chunk).bodies]
  refine ⟨by rw [hgot]; exact hsink.took _, ?_⟩
  rw [Received.ends, hsession, hout]
  rw [Dialogue.Proper] at hproper
  rw [Dialogue.settled, Dialogue.outcome]
  cases h : (Dialogue.ofFeeds c.policies c.session [(c.decoder.feed chunk).bodies]).ending with
  | none =>
    rw [h] at hproper
    exact Or.inr hproper
  | some e =>
    rw [h] at hproper
    cases e with
    | error e => exact Or.inr hproper
    | ok t => exact Or.inl rfl

variable {first : Received} {rest : List Received}

theorem FinishesOnce.cons_open (hopen : first.connection.session.IsOpen) (hends : ¬ first.ends)
    (h : FinishesOnce rest) : FinishesOnce (first :: rest) := by
  have hne {phase : Phase} (hp : phase = .shuttingDown ∨ phase = .exited) :
      first.connection.session.phase ≠ phase := by
    obtain hf | hf := hopen <;> obtain rfl | rfl := hp <;> simp [hf]
  constructor
  · intro x hx
    cases hx with
    | head => exact hne (Or.inl rfl)
    | tail _ hx => exact h.phases x hx
  · intro past x more hsplit
    obtain ⟨rfl, hx⟩ | ⟨past, rfl, hrest⟩ := List.cons_eq_append_iff.1 hsplit
    · obtain ⟨rfl, rfl⟩ := List.cons.inj hx
      simp [hends, hne (Or.inr rfl)]
    · rw [h.exited past x more hrest]
      simp [hends]
  · rw [List.countP_cons_of_neg hends]
    exact h.once
  · intro past x more hsplit hx
    obtain ⟨rfl, hfirst⟩ | ⟨past, rfl, hrest⟩ := List.cons_eq_append_iff.1 hsplit
    · exact absurd ((List.cons.inj hfirst).1 ▸ hx) hends
    · exact h.closed past x more hrest hx

theorem FinishesOnce.cons_ends (hexited : first.connection.session.phase = .exited)
    (hends : first.ends)
    (hstays : ∀ y ∈ rest, y.outcome = .ok none ∧ y.connection = first.connection) :
    FinishesOnce (first :: rest) := by
  have hquiet : ∀ y ∈ rest, ¬ y.ends := by
    intro y hy
    simp [Received.ends, (hstays y hy).1]
  constructor
  · intro x hx
    cases hx with
    | head => simp [hexited]
    | tail _ hx => simp [(hstays x hx).2, hexited]
  · intro past x more hsplit
    obtain ⟨rfl, hx⟩ | ⟨past, rfl, hrest⟩ := List.cons_eq_append_iff.1 hsplit
    · obtain ⟨rfl, rfl⟩ := List.cons.inj hx
      simp [hends, hexited]
    · -- Whatever the call itself was, the one that ended the connection is among those before it.
      have hx : x ∈ rest := by simp [hrest]
      simp [(hstays x hx).2, hexited, hends]
  · exact Nat.le_of_eq (by rw [List.countP_cons_of_pos hends, List.countP_eq_zero.2 hquiet])
  · intro past x more hsplit hx
    obtain ⟨rfl, hfirst⟩ | ⟨past, rfl, hrest⟩ := List.cons_eq_append_iff.1 hsplit
    · obtain ⟨rfl, rfl⟩ := List.cons.inj hfirst
      exact hstays
    · have hxrest : x ∈ rest := by simp [hrest]
      exact absurd hx (hquiet x hxrest)

theorem calls_finishesOnce {c : Connection} (hsink : c.sink.Tireless) (hs : c.session.IsOpen)
    (chunks : List Bytes) : FinishesOnce (c.calls chunks) := by
  induction chunks generalizing c with
  | nil =>
    have hnil (past : List Received) (x : Received) (more : List Received) :
        [] ≠ past ++ x :: more := by simp
    exact ⟨fun _ hx => absurd hx List.not_mem_nil, fun past x more h => absurd h (hnil past x more),
      Nat.zero_le 1, fun past x more h => absurd h (hnil past x more)⟩
  | cons chunk more ih =>
    have hiff := receive_exited_iff hs.ne_exited chunk
    obtain ⟨hnext, hends | hopen⟩ := receive_ends_or_open hsink hs chunk
    · exact .cons_ends (hiff.2 hends) hends (calls_exited (hiff.2 hends) more)
    · have hends : ¬ (c.receive chunk).ends := by
        rw [← hiff]
        exact hopen.ne_exited
      exact .cons_open hopen hends (ih hnext hopen)

/-! ### Served -/

/-- Calls that leave the connection open have fed its decoder, one after the other. -/
theorem receiveAll_frame {c : Connection} (hs : c.session.phase ≠ .exited) {chunks : List Bytes}
    (h : (c.receiveAll chunks).outcome = .ok none) :
    (c.receiveAll chunks).connection.policies = c.policies ∧
      (c.receiveAll chunks).connection.decoder = c.decoder.fed chunks ∧
      (c.receiveAll chunks).connection.session.phase ≠ .exited := by
  induction chunks generalizing c with
  | nil => exact ⟨rfl, rfl, hs⟩
  | cons chunk more ih =>
    rw [receiveAll] at h ⊢
    by_cases hout : (c.receive chunk).outcome = .ok none
    · obtain ⟨hpolicies, hdecoder⟩ := receive_frame hs chunk
      obtain ⟨hconnection, houtcome⟩ :=
        Received.andThen_open hout ((c.receive chunk).connection.receiveAll more)
      rw [houtcome] at h
      have hmore := ih (receive_phase hs hout) h
      rw [hpolicies, hdecoder] at hmore
      rw [hconnection]
      exact hmore
    · rw [Received.andThen_closed hout] at h
      exact absurd h hout

/-- A connection that was open ends in one of two ways, unless its input does. -/
theorem run_ok {c : Connection} (hs : c.session.IsOpen) {reads : List Read} {t : Termination}
    (h : (c.run reads).outcome = .ok t) : t = .shutdown ∨ t = .exit false ∨ t = .endOfInput := by
  obtain ⟨_, hwhole, hbroken⟩ := run_relays hs.ne_exited reads
  have hproper :=
    Dialogue.ofFeeds_proper hs c.policies (c.decoder.feeds (Read.arriving reads))
  generalize Dialogue.ofFeeds c.policies c.session (c.decoder.feeds (Read.arriving reads)) = d
    at hwhole hbroken hproper
  cases hsend : (c.sink.sendAll d.messages).1 with
  | some e =>
    rw [hbroken e hsend] at h
    cases h
  | none =>
    rw [hwhole hsend] at h
    rw [Dialogue.Proper] at hproper
    generalize d.ending = ending at h hproper
    cases ending with
    | none => exact Or.inr (Or.inr (Read.stop_ok h))
    | some e =>
      cases h
      obtain h | h := hproper
      · exact Or.inl h
      · exact Or.inr (Or.inl h)

/-- A run that ends before its input does so with one call, and reads no further. -/
theorem run_ended {c : Connection} {reads : List Read} {t : Termination}
    (h : (c.run reads).outcome = .ok t) (ht : t ≠ .endOfInput) :
    ∃ before chunk, reads = before ++ .bytes chunk :: (c.run reads).unread ∧
      (∀ r ∈ before, r.Steady) ∧
      (c.receiveAll (before.filterMap Read.bytes?)).outcome = .ok none ∧
      ((c.receiveAll (before.filterMap Read.bytes?)).connection.receive chunk).outcome =
        .ok (some t) := by
  induction reads generalizing c with
  | nil => exact absurd (Except.ok.inj h).symm ht
  | cons r more ih =>
    cases r with
    | failure e =>
      rw [run] at h ⊢
      by_cases he : e.kind = .interrupted
      · rw [if_pos he] at h ⊢
        obtain ⟨before, chunk, hsplit, hsteady, hopen, hends⟩ := ih h
        refine ⟨.failure e :: before, chunk, congrArg (.failure e :: ·) hsplit, ?_, hopen, hends⟩
        intro r hr
        cases hr with
        | head => exact he
        | tail _ hr => exact hsteady r hr
      · rw [if_neg he] at h
        cases h
    | bytes chunk =>
      cases chunk with
      | nil => exact absurd (Except.ok.inj h).symm ht
      | cons b bs =>
        rw [run] at h ⊢
        cases hout : (c.receive (b :: bs)).outcome with
        | error e =>
          rw [hout] at h
          cases h
        | ok t' =>
          cases t' with
          | some t' =>
            rw [hout] at h
            cases h
            exact ⟨[], b :: bs, rfl, fun _ hr => absurd hr List.not_mem_nil, rfl, hout⟩
          | none =>
            rw [hout] at h
            obtain ⟨before, chunk, hsplit, hsteady, hopen, hends⟩ := ih h
            obtain ⟨hconnection, houtcome⟩ := Received.andThen_open hout
              ((c.receive (b :: bs)).connection.receiveAll (before.filterMap Read.bytes?))
            refine ⟨.bytes (b :: bs) :: before, chunk, congrArg (.bytes (b :: bs) :: ·) hsplit,
              ?_, ?_, ?_⟩
            · intro r hr
              cases hr with
              | head => exact List.cons_ne_nil b bs
              | tail _ hr => exact hsteady r hr
            · exact houtcome.trans hopen
            · rw [List.filterMap_cons, Read.bytes?, receiveAll, hconnection]
              exact hends

/-- A call that ends a connection does so with one of the frames that it completes. -/
theorem receive_ended {c : Connection} (hidle : c.decoder.Idle) (hs : c.session.phase ≠ .exited)
    {chunk : Bytes} {t : Termination} (h : (c.receive chunk).outcome = .ok (some t)) :
    ∃ before text after,
      (Frame.parse (c.decoder.buffer ++ chunk)).frames.map Frame.text = before ++ text :: after ∧
      (Dialogue.ofTexts c.policies c.session before).ending = none ∧
      (Dialogue.turn c.policies (Dialogue.ofTexts c.policies c.session before).session
        text).ending = some (.ok t) := by
  have hrelays := receive_relays hs chunk
  have hending := (hrelays.whole (hrelays.whole_of_ok h)).2
  rw [h] at hending
  have hended := Dialogue.outcome_ok_some_iff.1 hending.symm
  cases hf : (Frame.parse (c.decoder.buffer ++ chunk)).fault with
  | some fault =>
    rw [hidle.feed_fault hf] at hended
    cases hended
  | none =>
    rw [hidle.feed_bodies hf] at hended
    simp only [Dialogue.ofFeeds, Dialogue.andThen_silent] at hended
    exact Dialogue.ofTexts_ended hended

/-- The frames that end a connection are counted from the first call. -/
theorem receiveAll_ended {c : Connection} (hidle : c.decoder.Idle) (hs : c.session.phase ≠ .exited)
    {chunks : List Bytes} {chunk : Bytes} {t : Termination}
    (hopen : (c.receiveAll chunks).outcome = .ok none)
    (hends : ((c.receiveAll chunks).connection.receive chunk).outcome = .ok (some t)) :
    let arrived := c.decoder.buffer ++ chunks.flatten
    ∃ texts text more,
      (Frame.parse (arrived ++ chunk)).frames.map Frame.text = texts ++ text :: more ∧
      (Frame.parse arrived).frames.length ≤ texts.length ∧
      (Dialogue.ofTexts c.policies c.session texts).ending = none ∧
      (Dialogue.turn c.policies (Dialogue.ofTexts c.policies c.session texts).session
        text).ending = some (.ok t) := by
  intro arrived
  obtain ⟨hpolicies, hdecoder, hphase⟩ := receiveAll_frame hs hopen
  obtain ⟨hending, hsession⟩ := (receiveAll_relays hs chunks).of_open hopen
  have hfault : (Frame.parse arrived).fault = none := Dialogue.fault_of_ofFeeds hidle hending
  obtain ⟨_, _, _, hbuffer, hstill⟩ := hidle.feeds_ok hfault
  obtain ⟨texts, text, more, htexts, hunended, hlast⟩ :=
    receive_ended (by rw [hdecoder]; exact hstill) hphase hends
  rw [hdecoder, hbuffer] at htexts
  rw [hpolicies, hsession] at hunended hlast
  rw [hidle.ofFeeds_eq hfault] at hending hunended hlast
  have hjoined := Dialogue.ofTexts_append c.policies c.session
    ((Frame.parse arrived).frames.map Frame.text) texts
  rw [Dialogue.andThen_of_none hending] at hjoined
  refine ⟨(Frame.parse arrived).frames.map Frame.text ++ texts, text, more, ?_, by simp, ?_, ?_⟩
  · rw [Frame.parse_append hfault, List.map_append, htexts, List.append_assoc]
  · rw [hjoined]
    exact hunended
  · rw [hjoined]
    exact hlast

end Connection

/-- A connection was ended by a message. The last read brought the end of this message, and the
messages before it did not end anything. -/
inductive Read.EndedBy (p : Policies) (reads unread : List Read) (t : Termination) : Prop where
  | message {before : List Read} {arrived chunk : Bytes} {texts more : List String} {text : String}
      (split : reads = before ++ .bytes chunk :: unread) (delivered : Read.Delivers before arrived)
      (whole : (Frame.parse (arrived ++ chunk)).frames.map Frame.text = texts ++ text :: more)
      (last : (Frame.parse arrived).frames.length ≤ texts.length)
      (unended : (Dialogue.ofTexts p .fresh texts).ending = none)
      (ending : (Dialogue.turn p (Dialogue.ofTexts p .fresh texts).session text).ending =
        some (.ok t)) : EndedBy p reads unread t

/-- Serving stops with the read that brings the end of the last message to be handled. -/
theorem serve_endedBy {p : Policies} {reads : List Read} {sink : Sink} {t : Termination}
    (h : (serve p reads sink).outcome = .ok t) (ht : t ≠ .endOfInput) :
    Read.EndedBy p (reads.flatMap Read.chunks) (serve p reads sink).unread t := by
  obtain ⟨before, chunk, hsplit, hsteady, hopen, hends⟩ := Connection.run_ended h ht
  obtain ⟨texts, text, more, hwhole, hlast, hunended, hending⟩ :=
    Connection.receiveAll_ended .empty Session.fresh_isOpen.ne_exited hopen hends
  exact .message hsplit ⟨hsteady, rfl⟩ hwhole hlast hunended hending

/-- A connection that has come to its end stays there. It never leaves gracefully, and serving it
takes no more reads than it needs. -/
theorem calls_finish (p : Policies) {sink : Sink} (h : sink.Tireless) (chunks : List Bytes) :
    Connection.FinishesOnce ((Connection.start p sink).calls chunks) ∧
      ∀ (reads : List Read) (out : Sink),
        (serve p reads out).outcome ≠ .ok (.exit true) ∧
          ∀ t, (serve p reads out).outcome = .ok t → t ≠ .endOfInput →
            Read.EndedBy p (reads.flatMap Read.chunks) (serve p reads out).unread t := by
  refine ⟨Connection.calls_finishesOnce h Session.fresh_isOpen chunks, fun reads out => ⟨?_, ?_⟩⟩
  · intro hgraceful
    obtain h | h | h := Connection.run_ok Session.fresh_isOpen hgraceful <;> cases h
  · exact fun t => serve_endedBy

/-- A second call to shut down, after the first one has been answered. -/
theorem calls_finish_farewell :
    let farewell := Frame.encode (Bytes.ofString Request.farewell.encode)
    let first := (Connection.start .standard .perfect).receive farewell
    let second := first.connection.receive farewell
    first.outcome = .ok (some .shutdown) ∧ second.outcome = .ok none ∧
      second.connection = first.connection := by
  intro farewell first second
  obtain ⟨hrelays, _⟩ := Connection.receive_encode (c := .start .standard .perfect) (.fresh []) rfl
    Session.fresh_isOpen.ne_exited Request.farewell.encode (by decide)
  obtain ⟨_, _, hturn⟩ := hrelays.of_tireless Sink.tireless_perfect
  have hout : first.outcome = .ok (some .shutdown) := by
    rw [hturn, ← Dialogue.ofTexts_singleton]
    exact congrArg Dialogue.outcome (Dialogue.ofTexts_farewell .standard)
  have hends : first.ends := by rw [Connection.Received.ends, hout]
  obtain ⟨hfinish, _⟩ := calls_finish .standard Sink.tireless_perfect [farewell, farewell]
  exact ⟨hout, hfinish.closed [] first [second] rfl hends second (List.mem_singleton.2 rfl)⟩

end HoverServer
