import HoverServer.Proofs.Session.Reaction

/-! Which rule a message falls under. A call to exit comes first, then the refusal of a session
that is closing, then the silence owed to notifications, and only then the method and the phase.
There is one rule for every message, and the session does what it says. -/
namespace HoverServer

theorem Method.mem_table {name : String} {m : Method} (h : ofName name = m) (hm : m ≠ .other) :
    (name, m) ∈ table := by
  rw [ofName] at h
  cases hl : table.lookup name with
  | none =>
    rw [hl] at h
    exact absurd h.symm hm
  | some m' =>
    rw [hl, Option.getD_some] at h
    obtain ⟨u, v, htable, _⟩ := List.lookup_eq_some_iff.1 hl
    rw [htable, h]
    simp

/-- A method that means something has one name only. -/
theorem Method.name_unique {name other : String} (h : ofName name = ofName other)
    (hm : ofName other ≠ .other) : name = other := by
  have hname := mem_table h hm
  have hother := mem_table rfl hm
  generalize ofName other = m at hname hother
  simp only [table, List.mem_cons, Prod.mk.injEq, List.not_mem_nil, or_false] at hname hother
  cases m <;> simp_all

theorem Method.ofName_eq_exit_iff (name : String) : ofName name = .exit ↔ name = "exit" :=
  ⟨fun h => name_unique h (by decide), fun h => h ▸ rfl⟩

/-- A name that is none of those that mean something. -/
def Method.Unknown (name : String) : Prop :=
  name ∉ ["initialize", "initialized", "textDocument/hover", "textDocument/didSave", "shutdown",
    "exit"]

theorem Method.ofName_eq_other_iff (name : String) : ofName name = .other ↔ Unknown name := by
  constructor
  · intro h hmem
    simp only [List.mem_cons, List.not_mem_nil, or_false] at hmem
    obtain rfl | rfl | rfl | rfl | rfl | rfl := hmem <;> exact absurd h (by decide)
  · intro h
    cases hm : ofName name with
    | other => rfl
    | _ =>
      refine absurd ?_ h
      have hname := mem_table hm (by decide)
      simp only [table, List.mem_cons, Prod.mk.injEq, reduceCtorEq, and_false, and_true, false_or,
        or_false, List.not_mem_nil] at hname
      simp [hname]

theorem Method.Unknown.ne_closing {name : String} (h : Unknown name) :
    name ≠ "shutdown" ∧ name ≠ "exit" := by
  constructor <;> rintro rfl <;> exact h (by decide)

namespace Session

def IsClosing (s : Session) : Prop := s.phase = .shuttingDown ∨ s.phase = .exited

theorem isOpen_or_isClosing (s : Session) : s.IsOpen ∨ s.IsClosing := by
  rw [IsOpen, IsClosing]
  cases s.phase <;> simp

theorem IsClosing.not_isOpen {s : Session} (h : s.IsClosing) : ¬ s.IsOpen := by
  rcases h with h | h <;> simp [IsOpen, h]

/-- What an open session answers to a message with an id, if it answers, and the session after
that. The errors go by their numbers: -32600 for a request that is invalid, -32601 for a method that
is not found, -32602 for params that are invalid and -32002 for a server that has not been
initialized. -/
inductive Answer (policy : UnknownMethodPolicy) (s : Session) (r : Request) :
    Outcome → Session → Prop where
  | notARequest (method : r.method = "initialized" ∨ r.method = "textDocument/didSave") :
      Answer policy s r (.error ⟨-32600, "notification method sent as a request", none⟩) s
  | greetedBefore (method : r.method = "initialize") (phase : s.phase = .initialized) :
      Answer policy s r (.error ⟨-32600, "server is already initialized", none⟩) s
  | badIntroduction {e : ParamsError} (method : r.method = "initialize")
      (phase : s.phase = .uninitialized)
      (params : Params.decode Params.introduction r.method r.params = .error e) :
      Answer policy s r (.error ⟨-32602, e.message, none⟩) s
  | greet {client : Option ClientInfo} (method : r.method = "initialize")
      (phase : s.phase = .uninitialized)
      (params : Params.decode Params.introduction r.method r.params = .ok client) :
      Answer policy s r (.result (greetingResult client)) ⟨.initialized, client⟩
  | tooEarly (method : r.method = "textDocument/hover") (phase : s.phase = .uninitialized) :
      Answer policy s r (.error ⟨-32002, "server has not been initialized", none⟩) s
  | badPosition {e : ParamsError} (method : r.method = "textDocument/hover")
      (phase : s.phase = .initialized)
      (params : Params.decode Params.textPosition r.method r.params = .error e) :
      Answer policy s r (.error ⟨-32602, e.message, none⟩) s
  | hover {p : TextPosition} (method : r.method = "textDocument/hover")
      (phase : s.phase = .initialized)
      (params : Params.decode Params.textPosition r.method r.params = .ok p) :
      Answer policy s r (.result (hoverResult p)) s
  | unknown (method : Method.Unknown r.method) (reject : policy = .reject) :
      Answer policy s r (.error ⟨-32601, "unknown method: " ++ r.method, none⟩) s

/-- What is said to a message, and the session after that. -/
inductive Rule (policy : UnknownMethodPolicy) (s : Session) (r : Request) :
    Reaction → Session → Prop where
  | exit (method : r.method = "exit") :
      Rule policy s r (.exit (s.phase == .shuttingDown)) ⟨.exited, s.client⟩
  | refuse {id : Id} (method : r.method ≠ "exit") (closing : s.IsClosing)
      (asked : r.id = some id) :
      Rule policy s r (.respond ⟨some id, .error ⟨-32600, "server is shutting down", none⟩⟩) s
  | ignore (method : r.method ≠ "exit") (closing : s.IsClosing) (noted : r.id = none) :
      Rule policy s r .silent s
  | shutDown (method : r.method = "shutdown") (unclosed : s.IsOpen) :
      Rule policy s r (.shutdown (r.id.map fun id => ⟨some id, .result .null⟩))
        ⟨.shuttingDown, s.client⟩
  | note (exit : r.method ≠ "exit") (shutDown : r.method ≠ "shutdown") (unclosed : s.IsOpen)
      (noted : r.id = none) : Rule policy s r .silent s
  | answer {id : Id} {outcome : Outcome} {next : Session} (unclosed : s.IsOpen)
      (asked : r.id = some id) (answer : s.Answer policy r outcome next) :
      Rule policy s r (.respond ⟨some id, outcome⟩) next
  | pass {id : Id} (unclosed : s.IsOpen) (asked : r.id = some id)
      (method : Method.Unknown r.method) (tolerate : policy = .ignore) : Rule policy s r .silent s

variable {policy : UnknownMethodPolicy} {s next : Session} {r : Request} {said : Reaction}
  {outcome : Outcome} {id : Id} {v : Verdict}

theorem Answer.ne_closing (h : s.Answer policy r outcome next) :
    r.method ≠ "shutdown" ∧ r.method ≠ "exit" := by
  cases h with
  | notARequest method => rcases method with method | method <;> simp [method]
  | unknown method _ => exact method.ne_closing
  | _ method => simp [method]

/-! ### There is a rule -/

/-- An open session has an answer to every request, unless nobody knows its method. -/
theorem exists_answer (policy : UnknownMethodPolicy) (hs : s.IsOpen) (hexit : r.method ≠ "exit")
    (hshut : r.method ≠ "shutdown") :
    (∃ outcome next, s.Answer policy r outcome next) ∨
      Method.Unknown r.method ∧ policy = .ignore := by
  by_cases hnote : r.method = "initialized" ∨ r.method = "textDocument/didSave"
  · exact Or.inl ⟨_, _, .notARequest hnote⟩
  · by_cases hgreet : r.method = "initialize"
    · rcases hs with hs | hs
      · cases hp : Params.decode Params.introduction r.method r.params with
        | error e => exact Or.inl ⟨_, _, .badIntroduction hgreet hs hp⟩
        | ok client => exact Or.inl ⟨_, _, .greet hgreet hs hp⟩
      · exact Or.inl ⟨_, _, .greetedBefore hgreet hs⟩
    · by_cases hhover : r.method = "textDocument/hover"
      · rcases hs with hs | hs
        · exact Or.inl ⟨_, _, .tooEarly hhover hs⟩
        · cases hp : Params.decode Params.textPosition r.method r.params with
          | error e => exact Or.inl ⟨_, _, .badPosition hhover hs hp⟩
          | ok p => exact Or.inl ⟨_, _, .hover hhover hs hp⟩
      · have hunknown : Method.Unknown r.method := by
          rw [not_or] at hnote
          simp [Method.Unknown, *]
        cases policy with
        | ignore => exact Or.inr ⟨hunknown, rfl⟩
        | reject => exact Or.inl ⟨_, _, .unknown hunknown rfl⟩

theorem exists_rule (policy : UnknownMethodPolicy) (s : Session) (r : Request) :
    ∃ said next, s.Rule policy r said next := by
  by_cases hexit : r.method = "exit"
  · exact ⟨_, _, .exit hexit⟩
  · rcases s.isOpen_or_isClosing with hs | hs
    · by_cases hshut : r.method = "shutdown"
      · exact ⟨_, _, .shutDown hshut hs⟩
      · cases hid : r.id with
        | none => exact ⟨_, _, .note hexit hshut hs hid⟩
        | some id =>
          rcases exists_answer policy hs hexit hshut with ⟨_, _, h⟩ | ⟨hunknown, hpolicy⟩
          · exact ⟨_, _, .answer hs hid h⟩
          · exact ⟨_, _, .pass hs hid hunknown hpolicy⟩
    · cases hid : r.id with
      | none => exact ⟨_, _, .ignore hexit hs hid⟩
      | some id => exact ⟨_, _, .refuse hexit hs hid⟩

/-! ### The rule is kept -/

theorem verdict_of_isClosing (hs : s.IsClosing) : s.verdict r = .ofClosing r := by
  rcases hs with hs | hs <;> rw [verdict, hs]

theorem verdict_of_isOpen (hs : s.IsOpen) :
    s.verdict r = .ofOpen (s.phase = .initialized) r := by
  rcases hs with hs | hs <;> rw [verdict, hs] <;> rfl

theorem handle_of_verdict (hv : s.verdict r = v) (hsaid : v.reaction policy s r = said)
    (hnext : v.session s = next) :
    (s.handle policy r).reaction = said ∧ (s.handle policy r).session = next := by
  rw [← hsaid, ← hnext, ← hv]
  exact ⟨rfl, rfl⟩

theorem verdict_exit (hm : r.method = "exit") (s : Session) : s.verdict r = .leave := by
  have hname := (Method.ofName_eq_exit_iff _).2 hm
  rcases s.isOpen_or_isClosing with hs | hs
  · rw [verdict_of_isOpen hs, Verdict.ofOpen, hname]
  · rw [verdict_of_isClosing hs, Verdict.ofClosing, hname]

theorem verdict_closing (hm : r.method ≠ "exit") (hs : s.IsClosing) :
    s.verdict r = .refuse .shuttingDown := by
  have hname := mt (Method.ofName_eq_exit_iff _).1 hm
  rw [verdict_of_isClosing hs, Verdict.ofClosing]
  split
  · contradiction
  · rfl

theorem verdict_unknown (hm : Method.Unknown r.method) (hs : s.IsOpen) :
    s.verdict r = .unknown := by
  rw [verdict_of_isOpen hs, Verdict.ofOpen, (Method.ofName_eq_other_iff _).2 hm]

/-- A notification that neither shuts the session down nor leaves it comes to nothing, whether
anything is done about it or not. -/
theorem handle_notification (hs : s.IsOpen) (hexit : r.method ≠ "exit")
    (hshut : r.method ≠ "shutdown") (hid : r.id = none) :
    (s.handle policy r).reaction = .silent ∧ (s.handle policy r).session = s := by
  have hnote : r.isNotification = true := by rw [Request.isNotification, hid]; rfl
  have hopen := verdict_of_isOpen (r := r) hs
  rw [Verdict.ofOpen, hnote] at hopen
  cases hm : Method.ofName r.method with
  | exit => exact absurd (Method.name_unique hm (by decide)) hexit
  | shutdown => exact absurd (Method.name_unique hm (by decide)) hshut
  | greeted => exact handle_of_verdict (v := .noted) (by rw [hopen, hm]) rfl rfl
  | greeting => exact handle_of_verdict (v := .unaddressed) (by rw [hopen, hm]) rfl rfl
  | hover => exact handle_of_verdict (v := .unaddressed) (by rw [hopen, hm]) rfl rfl
  | saved =>
    rw [hm] at hopen
    cases hp : Params.decode Params.savedDocument r.method r.params with
    | ok d => exact handle_of_verdict (v := .saved d) (by rw [hopen, hp]; rfl) rfl rfl
    | error e => exact handle_of_verdict (v := .drop e) (by rw [hopen, hp]; rfl) rfl rfl
  | other =>
    refine handle_of_verdict (v := .unknown) (by rw [hopen, hm]) ?_ rfl
    cases policy with
    | ignore => rfl
    | reject => rw [Verdict.reaction, hid]; rfl

theorem Answer.kept (h : s.Answer policy r outcome next) (hs : s.IsOpen) (hid : r.id = some id) :
    (s.handle policy r).reaction = .respond ⟨some id, outcome⟩ ∧
      (s.handle policy r).session = next := by
  have hopen := verdict_of_isOpen (r := r) hs
  have hask : r.isNotification = false := by rw [Request.isNotification, hid]; rfl
  rw [Verdict.ofOpen, hask] at hopen
  cases h with
  | notARequest method =>
    have hv : s.verdict r = .refuse .notARequest := by
      rcases method with method | method <;> rw [hopen, method] <;> rfl
    exact handle_of_verdict hv (by rw [Verdict.reaction, hid]; rfl) rfl
  | greetedBefore method phase =>
    have hv : s.verdict r = .refuse .alreadyGreeted := by
      rw [hopen, method, phase]
      rfl
    exact handle_of_verdict hv (by rw [Verdict.reaction, hid]; rfl) rfl
  | @badIntroduction e method phase params =>
    have hv : s.verdict r = .badParams e := by
      rw [hopen, params, method, phase]
      rfl
    exact handle_of_verdict hv (by rw [Verdict.reaction, hid]; rfl) rfl
  | @greet client method phase params =>
    have hv : s.verdict r = .greet client := by
      rw [hopen, params, method, phase]
      rfl
    exact handle_of_verdict hv (by rw [Verdict.reaction, hid]; rfl) rfl
  | tooEarly method phase =>
    have hv : s.verdict r = .refuse .notGreeted := by
      rw [hopen, method, phase]
      rfl
    exact handle_of_verdict hv (by rw [Verdict.reaction, hid]; rfl) rfl
  | @badPosition e method phase params =>
    have hv : s.verdict r = .badParams e := by
      rw [hopen, params, method, phase]
      rfl
    exact handle_of_verdict hv (by rw [Verdict.reaction, hid]; rfl) rfl
  | @hover p method phase params =>
    have hv : s.verdict r = .hover p := by
      rw [hopen, params, method, phase]
      rfl
    exact handle_of_verdict hv (by rw [Verdict.reaction, hid]; rfl) rfl
  | unknown method reject =>
    exact handle_of_verdict (verdict_unknown method hs)
      (by rw [reject, Verdict.reaction, hid]; rfl) rfl

theorem Rule.kept (h : s.Rule policy r said next) :
    (s.handle policy r).reaction = said ∧ (s.handle policy r).session = next := by
  cases h with
  | exit method => exact handle_of_verdict (verdict_exit method s) rfl rfl
  | refuse method closing asked =>
    exact handle_of_verdict (verdict_closing method closing)
      (by rw [Verdict.reaction, asked]; rfl) rfl
  | ignore method closing noted =>
    exact handle_of_verdict (verdict_closing method closing)
      (by rw [Verdict.reaction, noted]; rfl) rfl
  | shutDown method unclosed =>
    have hv : s.verdict r = .shutDown := by
      rw [verdict_of_isOpen unclosed, Verdict.ofOpen, method]
      rfl
    exact handle_of_verdict hv rfl rfl
  | note exit shutDown unclosed noted => exact handle_notification unclosed exit shutDown noted
  | answer unclosed asked answer => exact answer.kept unclosed asked
  | pass unclosed asked method tolerate =>
    exact handle_of_verdict (verdict_unknown method unclosed)
      (by rw [tolerate, Verdict.reaction]) rfl

theorem handle_rule (policy : UnknownMethodPolicy) (s : Session) (r : Request) :
    s.Rule policy r (s.handle policy r).reaction (s.handle policy r).session := by
  obtain ⟨said, next, h⟩ := exists_rule policy s r
  obtain ⟨hsaid, hnext⟩ := h.kept
  rwa [hsaid, hnext]

/-! ### What changes -/

/-- How a message changes the session: it is left, or shut down, or greeted with a result. -/
inductive Change (s : Session) (r : Request) : Reaction → Session → Prop where
  | exit (graceful : Bool) (method : r.method = "exit") :
      Change s r (.exit graceful) ⟨.exited, s.client⟩
  | shutDown (response : Option Response) (method : r.method = "shutdown") (unclosed : s.IsOpen) :
      Change s r (.shutdown response) ⟨.shuttingDown, s.client⟩
  | greet {id : Id} (v : Json) (client : Option ClientInfo) (method : r.method = "initialize")
      (phase : s.phase = .uninitialized) (asked : r.id = some id) :
      Change s r (.respond ⟨some id, .result v⟩) ⟨.initialized, client⟩

theorem Rule.change (h : s.Rule policy r said next) : next = s ∨ s.Change r said next := by
  cases h with
  | exit method => exact Or.inr (.exit _ method)
  | shutDown method unclosed => exact Or.inr (.shutDown _ method unclosed)
  | answer unclosed asked answer =>
    cases answer with
    | greet method phase params => exact Or.inr (.greet _ _ method phase asked)
    | _ => exact Or.inl rfl
  | _ => exact Or.inl rfl

/-- Every message falls under one rule, which says what the reaction is and what becomes of the
session. Only three things change a session. -/
theorem handle_iff (policy : UnknownMethodPolicy) (s : Session) (r : Request) :
    (∀ said next, ((s.handle policy r).reaction = said ∧ (s.handle policy r).session = next) ↔
        s.Rule policy r said next) ∧
      ((s.handle policy r).session = s ∨
        s.Change r (s.handle policy r).reaction (s.handle policy r).session) := by
  refine ⟨fun said next => ⟨?_, Rule.kept⟩, (handle_rule policy s r).change⟩
  rintro ⟨rfl, rfl⟩
  exact handle_rule policy s r

end Session
end HoverServer
