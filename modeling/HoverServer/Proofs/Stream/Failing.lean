import HoverServer.Proofs.Stream.Steady

/-! A sink that may fail, and what it has of the messages that are sent to it: the first of them,
and behind these the beginning of one more if a write failed, or all of it if a flush did. It never
has more than there is room for. -/
namespace HoverServer.Sink

/-- What a write fails with. A sink that has nothing to report takes no more bytes. -/
def fault (s : Sink) : IoError := (s.full.map WriteFault.error).getD .writeZero

/-- No byte goes into a sink that is full. -/
def Full (s : Sink) : Prop := ∃ n, s.room = some n ∧ n ≤ s.accepted.length

/-- The sink after one more flush. -/
def flushed (s : Sink) : Sink := { s with flushes := s.flushes.map (· - 1) }

/-- Messages are sent one after the other, up to the first that fails. -/
def sendAll (s : Sink) : List Bytes → Option IoError × Sink
  | [] => (none, s)
  | message :: more =>
    match s.send message with
    | (none, s) => s.sendAll more
    | (some e, s) => (some e, s)

variable {s : Sink} {bs message : Bytes} {messages : List Bytes} {e : IoError}

theorem sendAll_cons_none (h : (s.send message).1 = none) (more : List Bytes) :
    s.sendAll (message :: more) = (s.send message).2.sendAll more := by
  rw [sendAll]
  generalize s.send message = sent at h ⊢
  obtain ⟨failure, t⟩ := sent
  cases h
  rfl

theorem sendAll_cons_some (h : (s.send message).1 = some e) (more : List Bytes) :
    s.sendAll (message :: more) = s.send message := by
  rw [sendAll]
  generalize s.send message = sent at h ⊢
  obtain ⟨failure, t⟩ := sent
  cases h
  rfl

theorem sendAll_singleton (s : Sink) (message : Bytes) : s.sendAll [message] = s.send message := by
  cases h : (s.send message).1 with
  | none => rw [sendAll_cons_none h, sendAll, ← h]
  | some e => exact sendAll_cons_some h []

theorem sendAll_append_none (h : (s.sendAll messages).1 = none) (more : List Bytes) :
    s.sendAll (messages ++ more) = (s.sendAll messages).2.sendAll more := by
  induction messages generalizing s with
  | nil => rfl
  | cons message messages ih =>
    rw [List.cons_append]
    cases hs : (s.send message).1 with
    | none =>
      rw [sendAll_cons_none hs] at h ⊢
      rw [sendAll_cons_none hs, ih h]
    | some e =>
      rw [sendAll_cons_some hs, hs] at h
      cases h

theorem sendAll_append_some (h : (s.sendAll messages).1 = some e) (more : List Bytes) :
    s.sendAll (messages ++ more) = s.sendAll messages := by
  induction messages generalizing s with
  | nil => cases h
  | cons message messages ih =>
    rw [List.cons_append]
    cases hs : (s.send message).1 with
    | none =>
      rw [sendAll_cons_none hs] at h ⊢
      rw [sendAll_cons_none hs, ih h]
    | some e' => rw [sendAll_cons_some hs, sendAll_cons_some hs]

theorem Tireless.sendAll (h : s.Tireless) (messages : List Bytes) :
    s.sendAll messages = (none, s.took messages.flatten) := by
  induction messages generalizing s with
  | nil => rw [List.flatten_nil, took_nil, Sink.sendAll]
  | cons message messages ih =>
    rw [sendAll_cons_none (by rw [h.send]), h.send, ih (h.took message), List.flatten_cons,
      took_append]

/-! ### One write, one flush, one message -/

/-- A call takes something from the front, unless there is no room. -/
theorem write_cases (s : Sink) (hne : bs ≠ []) :
    (∃ n, s.write bs = (.ok (n + 1), s.took (bs.take (n + 1)))) ∨
      s.Full ∧ s.write bs = (match s.full with
        | some fault => .error fault.error
        | none => .ok 0, s) := by
  have hpos : 0 < bs.length := List.length_pos_iff.2 hne
  rw [write]
  by_cases hfree : s.free (min bs.length (s.most s.accepted.length + 1)) = 0
  · right
    constructor
    · simp only [free] at hfree
      cases hroom : s.room with
      | none =>
        simp only [hroom] at hfree
        omega
      | some n =>
        simp only [hroom] at hfree
        exact ⟨n, hroom, by omega⟩
    · simp only [if_pos hfree]
      cases s.full <;> rfl
  · obtain ⟨n, hn⟩ := Nat.exists_eq_succ_of_ne_zero hfree
    left
    refine ⟨n, ?_⟩
    simp only [if_neg hfree]
    rw [hn]
    rfl

/-- Either everything is written, or the sink is full before that. -/
theorem writeAll_cases (s : Sink) (bs : Bytes) :
    s.writeAll bs = (none, s.took bs) ∨
      ∃ part, part <+: bs ∧ part ≠ bs ∧ (s.took part).Full ∧
        s.writeAll bs = (some s.fault, s.took part) := by
  induction hk : bs.length using Nat.strongRecOn generalizing s bs with
  | _ k ih =>
    rw [writeAll]
    by_cases hne : bs = []
    · left
      rw [dif_pos hne, hne, took_nil]
    · rw [dif_neg hne]
      obtain ⟨n, hw⟩ | ⟨hfull, hw⟩ := s.write_cases hne
      · have hpos : 0 < bs.length := List.length_pos_iff.2 hne
        have hshort : (bs.drop (n + 1)).length < k := by
          rw [List.length_drop]
          omega
        rw [hw]
        obtain hrest | ⟨part, hpart, hproper, hfull, hrest⟩ :=
          ih _ hshort (s.took (bs.take (n + 1))) (bs.drop (n + 1)) rfl
        · left
          simp only [hrest]
          rw [← took_append, List.take_append_drop]
        · right
          have hsplit := List.take_append_drop (n + 1) bs
          refine ⟨bs.take (n + 1) ++ part, ?_, ?_, ?_, ?_⟩
          · have hall := (List.prefix_append_right_inj (bs.take (n + 1))).2 hpart
            rwa [hsplit] at hall
          · intro heq
            exact hproper (List.append_cancel_left (heq.trans hsplit.symm))
          · rw [took_append]
            exact hfull
          · simp only [hrest]
            rw [took_append]
            rfl
      · right
        refine ⟨[], List.nil_prefix, Ne.symm hne, by rwa [took_nil], ?_⟩
        rw [hw, took_nil, fault]
        cases s.full <;> rfl

theorem flush_cases (s : Sink) :
    s.flushes ≠ some 0 ∧ s.flush = (none, s.flushed) ∨
      s.flushes = some 0 ∧ s.flush = (some s.unflushed, s) := by
  obtain ⟨accepted, most, room, full, flushes, unflushed⟩ := s
  cases flushes with
  | none => exact Or.inl ⟨by simp, rfl⟩
  | some n =>
    cases n with
    | zero => exact Or.inr ⟨rfl, rfl⟩
    | succ n => exact Or.inl ⟨by simp, rfl⟩

/-- What can become of a message. -/
inductive Sent (s : Sink) (message : Bytes) : Option IoError × Sink → Prop where
  | whole (flushes : s.flushes ≠ some 0) : Sent s message (none, (s.took message).flushed)
  | short {part : Bytes} (begins : part <+: message) (proper : part ≠ message)
      (full : (s.took part).Full)
      (failed : s.writeAll message = (some s.fault, s.took part)) :
      Sent s message (some s.fault, s.took part)
  | unflushed (flushes : s.flushes = some 0)
      (written : s.writeAll message = (none, s.took message))
      (failed : (s.took message).flush = (some s.unflushed, s.took message)) :
      Sent s message (some s.unflushed, s.took message)

theorem send_sent (s : Sink) (message : Bytes) : s.Sent message (s.send message) := by
  rw [send]
  obtain hw | ⟨part, hpart, hproper, hfull, hw⟩ := s.writeAll_cases message
  · rw [hw]
    obtain ⟨hflushes, hf⟩ | ⟨hflushes, hf⟩ := (s.took message).flush_cases
    · simp only [hf]
      exact .whole hflushes
    · simp only [hf]
      exact .unflushed hflushes hw hf
  · rw [hw]
    exact .short hpart hproper hfull hw

/-! ### Messages one after the other -/

/-- Messages that were not all sent, for this reason. Nothing more is done to the sink once a write
or a flush has failed. -/
inductive BrokeOff (s : Sink) (messages : List Bytes) : IoError → Sink → Prop where
  | writing {sent missed : List Bytes} {message part : Bytes} {before last : Sink}
      (split : messages = sent ++ message :: missed) (took : s.sendAll sent = (none, before))
      (failed : before.writeAll message = (some s.fault, last)) (full : last.Full)
      (begins : part <+: message) (proper : part ≠ message)
      (accepted : last.accepted = s.accepted ++ (sent.flatten ++ part)) :
      BrokeOff s messages s.fault last
  | flushing {sent missed : List Bytes} {message : Bytes} {before last : Sink}
      (split : messages = sent ++ message :: missed) (took : s.sendAll sent = (none, before))
      (written : before.writeAll message = (none, last)) (flushes : s.flushes = some sent.length)
      (failed : last.flush = (some s.unflushed, last))
      (accepted : last.accepted = s.accepted ++ (sent ++ [message]).flatten) :
      BrokeOff s messages s.unflushed last

/-- What a sink has accepted is the beginning of the messages. -/
theorem BrokeOff.accepted_prefix {last : Sink} (h : s.BrokeOff messages e last) :
    ∃ out, last.accepted = s.accepted ++ out ∧ out <+: messages.flatten := by
  cases h with
  | writing hmessages _ _ _ hpart _ haccepted =>
    refine ⟨_, haccepted, ?_⟩
    rw [hmessages, List.flatten_append, List.flatten_cons]
    exact (List.prefix_append_right_inj _).2 (hpart.trans (List.prefix_append _ _))
  | flushing hmessages _ _ _ _ haccepted =>
    refine ⟨_, haccepted, ?_⟩
    rw [hmessages, List.flatten_append, List.flatten_append, List.flatten_cons]
    exact (List.prefix_append_right_inj _).2 (by simp)

/-- A message that was sent stands before those that were not. -/
theorem BrokeOff.cons {last : Sink} (hflushes : s.flushes ≠ some 0)
    (hsent : s.send message = (none, (s.took message).flushed))
    (h : (s.took message).flushed.BrokeOff messages e last) :
    s.BrokeOff (message :: messages) e last := by
  have hall (sent : List Bytes) :
      s.sendAll (message :: sent) = (s.took message).flushed.sendAll sent := by
    rw [sendAll_cons_none (by rw [hsent]), hsent]
  cases h with
  | writing hmessages hsent hfailed hfull hpart hproper haccepted =>
    refine .writing (by rw [hmessages, List.cons_append]) ((hall _).trans hsent) hfailed hfull
      hpart hproper ?_
    rw [haccepted, List.flatten_cons]
    simp [flushed, took]
  | @flushing sent _ _ _ _ hmessages hsent hwritten hleft hfailed haccepted =>
    refine .flushing (by rw [hmessages, List.cons_append]) ((hall _).trans hsent) hwritten ?_
      hfailed ?_
    · obtain ⟨n, hn, hlength⟩ := Option.map_eq_some_iff.1 hleft
      have hpos : n ≠ 0 := fun h0 => hflushes (h0 ▸ hn)
      have hn' : s.flushes = some n := hn
      rw [hn', List.length_cons, ← hlength, Nat.sub_add_cancel (Nat.pos_of_ne_zero hpos)]
    · rw [haccepted, List.cons_append, List.flatten_cons]
      simp [flushed, took]

/-- Either all messages are sent, or they broke off with a failure of the sink. -/
theorem sendAll_cases (s : Sink) (messages : List Bytes) :
    (s.sendAll messages).1 = none ∧
        (s.sendAll messages).2.accepted = s.accepted ++ messages.flatten ∨
      ∃ e, (s.sendAll messages).1 = some e ∧ s.BrokeOff messages e (s.sendAll messages).2 := by
  induction messages generalizing s with
  | nil => exact Or.inl ⟨rfl, (List.append_nil _).symm⟩
  | cons message messages ih =>
    have hnone : s.sendAll [] = (none, s) := rfl
    have hsent := s.send_sent message
    generalize hsend : s.send message = sent at hsent
    cases hsent with
    | whole hflushes =>
      rw [sendAll_cons_none (by rw [hsend]), hsend]
      obtain ⟨hwhole, haccepted⟩ | ⟨e, hbroken, hbroke⟩ := ih (s.took message).flushed
      · left
        refine ⟨hwhole, ?_⟩
        rw [haccepted, List.flatten_cons]
        simp [flushed, took]
      · exact Or.inr ⟨e, hbroken, hbroke.cons hflushes hsend⟩
    | short hpart hproper hfull hfailed =>
      right
      rw [sendAll_cons_some (by rw [hsend]), hsend]
      exact ⟨_, rfl, .writing (List.nil_append _).symm hnone hfailed hfull hpart hproper rfl⟩
    | unflushed hflushes hwritten hfailed =>
      right
      rw [sendAll_cons_some (by rw [hsend]), hsend]
      refine ⟨_, rfl, .flushing (List.nil_append _).symm hnone hwritten hflushes hfailed ?_⟩
      rw [List.nil_append, List.flatten_singleton]
      rfl

/-! ### Room -/

/-- A sink with room for so many bytes, some of which it may have accepted. -/
structure Within (s : Sink) (n : Nat) : Prop where
  room : s.room = some n
  accepted : s.accepted.length ≤ n

variable {n : Nat}

theorem Within.write (h : s.Within n) (bs : Bytes) : (s.write bs).2.Within n := by
  have hfree (k : Nat) : s.free k ≤ n - s.accepted.length := by
    rw [free, h.room]
    exact Nat.min_le_right _ _
  rw [Sink.write]
  split
  · cases s.full <;> exact h
  · refine ⟨h.room, ?_⟩
    have htaken := hfree (min bs.length (s.most s.accepted.length + 1))
    have hle := h.accepted
    simp only [List.length_append, List.length_take]
    omega

theorem Within.writeAll (h : s.Within n) (bs : Bytes) : (s.writeAll bs).2.Within n := by
  fun_induction Sink.writeAll s bs with
  | case1 => exact h
  | case2 s bs hne e t hwrite =>
    have ht := h.write bs
    rwa [hwrite] at ht
  | case3 s bs hne t hwrite =>
    have ht := h.write bs
    rwa [hwrite] at ht
  | case4 s bs hne k t hwrite ih =>
    have ht := h.write bs
    rw [hwrite] at ht
    exact ih ht

theorem Within.send (h : s.Within n) (message : Bytes) : (s.send message).2.Within n := by
  have hwritten := h.writeAll message
  rw [Sink.send]
  generalize s.writeAll message = written at hwritten ⊢
  obtain ⟨failure, t⟩ := written
  cases failure with
  | some e => exact hwritten
  | none =>
    obtain ⟨_, hflush⟩ | ⟨_, hflush⟩ := t.flush_cases
    · simp only [hflush]
      exact ⟨hwritten.room, hwritten.accepted⟩
    · simp only [hflush]
      exact hwritten

/-- No more goes into a sink than it has room for. -/
theorem Within.sendAll (h : s.Within n) (messages : List Bytes) :
    (s.sendAll messages).2.Within n := by
  induction messages generalizing s with
  | nil => exact h
  | cons message messages ih =>
    cases hs : (s.send message).1 with
    | none =>
      rw [sendAll_cons_none hs]
      exact ih (h.send message)
    | some e =>
      rw [sendAll_cons_some hs]
      exact h.send message

end HoverServer.Sink
