import HoverServer.Proofs.Session.Precedence

/-! What one message can do to a session. There are six moves, and each of them says what the
message, the session before it and the session after it have to do with each other. -/
namespace HoverServer

/-- What is said to a message, and where the session goes from it. -/
inductive Session.Move (s : Session) (r : Request) : Reaction → Session → Prop where
  | leave (method : r.method = "exit") :
      Move s r (.exit (s.phase == .shuttingDown)) ⟨.exited, s.client⟩
  | greet {id : Id} {client : Option ClientInfo} (method : r.method = "initialize")
      (phase : s.phase = .uninitialized) (asked : r.id = some id)
      (params : Params.decode Params.introduction r.method r.params = .ok client) :
      Move s r (.respond ⟨some id, .result (greetingResult client)⟩) ⟨.initialized, client⟩
  | hover {id : Id} {p : TextPosition} (method : r.method = "textDocument/hover")
      (phase : s.phase = .initialized) (asked : r.id = some id)
      (params : Params.decode Params.textPosition r.method r.params = .ok p) :
      Move s r (.respond ⟨some id, .result (hoverResult p)⟩) s
  | shutDown (method : r.method = "shutdown") (unclosed : s.IsOpen) :
      Move s r (.shutdown (r.id.map fun id => ⟨some id, .result .null⟩))
        ⟨.shuttingDown, s.client⟩
  | refuse {id : Id} {e : ResponseError} (method : r.method ≠ "exit") (asked : r.id = some id) :
      Move s r (.respond ⟨some id, .error e⟩) s
  | ignore (method : r.method ≠ "exit") : Move s r .silent s

namespace Session

variable {policy : UnknownMethodPolicy} {s next : Session} {r : Request} {outcome : Outcome}
  {id : Id}

theorem Answer.move (h : s.Answer policy r outcome next) (hid : r.id = some id) :
    s.Move r (.respond ⟨some id, outcome⟩) next := by
  have hexit := h.ne_closing.2
  cases h with
  | greet method phase params => exact .greet method phase hid params
  | hover method phase params => exact .hover method phase hid params
  | _ => exact .refuse hexit hid

theorem handle_move (policy : UnknownMethodPolicy) (s : Session) (r : Request) :
    s.Move r (s.handle policy r).reaction (s.handle policy r).session := by
  have hrule := s.handle_rule policy r
  generalize (s.handle policy r).reaction = said, (s.handle policy r).session = next at hrule ⊢
  cases hrule with
  | exit method => exact .leave method
  | refuse method closing asked => exact .refuse method asked
  | ignore method closing noted => exact .ignore method
  | shutDown method unclosed => exact .shutDown method unclosed
  | note exit shutDown unclosed noted => exact .ignore exit
  | answer unclosed asked answer => exact answer.move asked
  | pass unclosed asked method tolerate => exact .ignore method.ne_closing.2

end Session
end HoverServer
