import HoverServer.Proofs.Message.ParamsRules
import HoverServer.Proofs.Session.History

/-! How a session is opened. A client is greeted by the name that it gave, and the session knows it
by that name from then on; a client that cannot be understood is turned away and may try again. -/
namespace HoverServer

/-- What a client is greeted with: what the server can do, and the client's own name. -/
inductive Params.Greet : Option ClientInfo → Members → Prop where
  | unnamed : Greet none [("capabilities", .object [("hoverProvider", .bool true)])]
  | named (name : String) : Greet (some ⟨name, none⟩)
      [("capabilities", .object [("hoverProvider", .bool true)]),
        ("clientInfo", .object [("name", .string name)])]
  | versioned (name version : String) : Greet (some ⟨name, some version⟩)
      [("capabilities", .object [("hoverProvider", .bool true)]),
        ("clientInfo", .object [("name", .string name), ("version", .string version)])]

namespace Params

variable {client other : Option ClientInfo} {ms : Members}

theorem exists_greet (client : Option ClientInfo) :
    ∃ ms, greetingResult client = .object ms ∧ Greet client ms := by
  match client with
  | none => exact ⟨_, rfl, .unnamed⟩
  | some ⟨name, none⟩ => exact ⟨_, rfl, .named name⟩
  | some ⟨name, some version⟩ => exact ⟨_, rfl, .versioned name version⟩

/-- The name that comes back is read as the one that was given. -/
theorem Greet.echo (h : Greet client ms) :
    (ms.get? "clientInfo").map clientInfo = client.map .ok := by
  cases h <;> rfl

end Params

namespace Session

variable {s : Session} {r : Request} {id : Id} {client : Option ClientInfo}

theorem greeting_served (hs : s.phase = .uninitialized) (policy : UnknownMethodPolicy)
    (hr : r.Asks "initialize" id) (hclient : Params.Introduce r.params client) :
    ∃ ms, Params.Greet client ms ∧
      (s.handle policy r).reaction = .respond (.success (some id) (.object ms)) ∧
      (s.handle policy r).session = ⟨.initialized, client⟩ := by
  obtain ⟨ms, hresult, hgreet⟩ := Params.exists_greet client
  have hread := (Params.decode_introduction_iff hr.params r.method).2 hclient
  have hanswer : s.Answer policy r _ _ := .greet hr.method hs hread
  obtain ⟨hsaid, hnext⟩ := hanswer.kept (Or.inl hs) hr.id
  rw [hresult] at hsaid
  exact ⟨ms, hgreet, hsaid, hnext⟩

theorem greeting_refused (hs : s.phase = .uninitialized) (policy : UnknownMethodPolicy)
    (hr : r.Asks "initialize" id) (hnone : ∀ client, ¬ Params.Introduce r.params client) :
    ∃ why, (s.handle policy r).reaction = .respond (.failure (some id) .invalidParams why) ∧
      (s.handle policy r).session = s := by
  cases hread : Params.decode Params.introduction r.method r.params with
  | ok client =>
    exact absurd ((Params.decode_introduction_iff hr.params r.method).1 hread) (hnone client)
  | error e =>
    exact ⟨e.message, (Answer.badIntroduction hr.method hs hread).kept (Or.inl hs) hr.id⟩

/-- A client whose params introduce it is greeted and known from then on, under the name that it
can read in the greeting. Any other params are invalid and change nothing, so however often a client
has been turned away, its next try is heard like the first. -/
theorem greeting_iff (hs : s.phase = .uninitialized) (policy : UnknownMethodPolicy)
    (hr : r.Asks "initialize" id) :
    (∀ client, Params.Introduce r.params client ↔
        ∃ ms, Params.Greet client ms ∧
          (s.handle policy r).reaction = .respond (.success (some id) (.object ms)) ∧
          (s.handle policy r).session = ⟨.initialized, client⟩ ∧
          (ms.get? "clientInfo").map Params.clientInfo = client.map .ok) ∧
      ((∀ client, ¬ Params.Introduce r.params client) ↔
        ∃ why, (s.handle policy r).reaction = .respond (.failure (some id) .invalidParams why) ∧
          (s.handle policy r).session = s) ∧
      ∀ tries : List Request,
        (∀ q ∈ tries, ∃ id, q.Asks "initialize" id ∧ ∀ client, ¬ Params.Introduce q.params client) →
          s.history policy ((tries ++ [r]).map .message) =
            (tries ++ [r]).map fun q => s.step policy (.message q) := by
  refine ⟨fun client => ⟨fun hclient => ?_, ?_⟩, ⟨greeting_refused hs policy hr, ?_⟩, ?_⟩
  · obtain ⟨ms, hgreet, hsaid, hnext⟩ := greeting_served hs policy hr hclient
    exact ⟨ms, hgreet, hsaid, hnext, hgreet.echo⟩
  · rintro ⟨ms, _, hsaid, hnext, _⟩
    by_cases hgiven : ∃ known, Params.Introduce r.params known
    · obtain ⟨known, hknown⟩ := hgiven
      obtain ⟨_, _, _, hnext'⟩ := greeting_served hs policy hr hknown
      cases hnext.symm.trans hnext'
      exact hknown
    · obtain ⟨why, hsaid', _⟩ := greeting_refused hs policy hr (not_exists.1 hgiven)
      cases hsaid.symm.trans hsaid'
  · rintro ⟨why, hsaid, hsame⟩ client hclient
    obtain ⟨ms, hgreet, hsaid', hnext⟩ := greeting_served hs policy hr hclient
    cases hsaid.symm.trans hsaid'
  · intro tries htries
    rw [List.map_append, history_of_stay]
    · simp [history]
    · simp only [List.mem_map]
      rintro _ ⟨q, hq, rfl⟩
      obtain ⟨id, hasks, hnone⟩ := htries q hq
      obtain ⟨why, _, hsame⟩ := greeting_refused hs policy hasks hnone
      exact hsame

end Session

namespace Request

/-- A client that has a version and no name. -/
def nameless : Request :=
  ⟨some (.string "a"), "initialize",
    some (.object [("clientInfo", .object [("version", .string "1")])])⟩

theorem nameless_asks : nameless.Asks "initialize" (.string "a") where
  method := rfl
  id := rfl
  params v hv := by
    have hexact : Json.Exact 2 (.object [("clientInfo", .object [("version", .string "1")])]) :=
      .one (.one (.string "1"))
    rw [← Option.some.inj hv]
    exact hexact.ordered

theorem not_introduce_nameless (client : Option ClientInfo) :
    ¬ Params.Introduce nameless.params client := by
  intro h
  cases h with
  | named given =>
    have hgiven : Json.Maybe ClientInfo.Shape
      (some (.object [("version", .string "1")])) client := given
    cases hgiven with
    | given shape =>
      cases shape with
      | named name _ => cases name

/-- The same client on its next try, which gives its name in order and no version. -/
def introduced : Request :=
  ⟨some (.string "b"), "initialize", some (.array [.array [.string "ed", .null]])⟩

theorem introduced_asks : introduced.Asks "initialize" (.string "b") where
  method := rfl
  id := rfl
  params v hv := by
    rw [← Option.some.inj hv]
    refine .array (List.forall_mem_singleton.2 (.array ?_))
    exact List.forall_mem_cons.2 ⟨.string "ed", List.forall_mem_singleton.2 .null⟩

end Request

theorem Session.greeting_iff_introduced :
    fresh.history .reject [.message .nameless, .message .introduced] =
        [fresh.step .reject (.message .nameless), fresh.step .reject (.message .introduced)] ∧
      (fresh.handle .reject .introduced).session = ⟨.initialized, some ⟨"ed", none⟩⟩ := by
  have hphase : fresh.phase = .uninitialized := rfl
  have hintroduced : Params.Introduce Request.introduced.params (some ⟨"ed", none⟩) :=
    .listed (.given (.listed .null)) (Nat.le_refl 1)
  obtain ⟨hgreet, _, hagain⟩ := greeting_iff hphase .reject Request.introduced_asks
  obtain ⟨_, _, _, hnext, _⟩ := (hgreet _).1 hintroduced
  refine ⟨hagain [.nameless] ?_, hnext⟩
  exact List.forall_mem_singleton.2 ⟨_, Request.nameless_asks, Request.not_introduce_nameless⟩

end HoverServer
