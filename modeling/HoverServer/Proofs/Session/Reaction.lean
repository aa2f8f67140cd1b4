import HoverServer.Proofs.Message.RoundTrip
import HoverServer.Session.Reaction

/-! What a session sends. Every response is one that a client can read back, and in a session that
is open each request gets one, unless it calls to exit or nobody knows its method. -/
namespace HoverServer

namespace Response

theorem success_exact {id : Id} (hid : id.Exact) {v : Json} (hv : Json.Exact 126 v) :
    (success (some id) v).Exact where
  id := fun _ h => Option.some.inj h ▸ hid
  outcome := hv

theorem failure_exact {id : Id} (hid : id.Exact) (code : ErrorCode) (message : String) :
    (failure (some id) code message).Exact where
  id := fun _ h => Option.some.inj h ▸ hid
  outcome := .two (by decide) (.whole _) (.string message)

end Response

theorem Params.clientInfoJson_exact (c : ClientInfo) : Json.Exact 125 (clientInfoJson c) := by
  obtain ⟨name, version⟩ := c
  cases version with
  | none => exact .one (.string name)
  | some version => exact .two (by decide) (.string name) (.string version)

theorem greetingResult_exact (client : Option ClientInfo) :
    Json.Exact 126 (greetingResult client) := by
  cases client with
  | none => exact .one (.one (.bool true))
  | some c => exact .two (by decide) (.one (.bool true)) (Params.clientInfoJson_exact c)

theorem hoverResult_exact (p : TextPosition) : Json.Exact 126 (hoverResult p) :=
  .one (.two (by decide) (.string _) (.string _))

namespace Reaction

/-- What is sent. -/
def responses : Reaction → List Response
  | .respond r => [r]
  | .silent => []
  | .shutdown r => r.toList
  | .exit _ => []

theorem responses_answer (id : Option Id) (response : Option Id → Response) :
    (answer id response).responses = (id.map fun id => response (some id)).toList := by
  cases id <;> rfl

end Reaction

namespace Verdict

theorem responses_exact {r : Request} (hid : ∀ id, r.id = some id → id.Exact) (v : Verdict)
    (policy : UnknownMethodPolicy) (s : Session) :
    ∀ x ∈ (v.reaction policy s r).responses, x.Exact := by
  have hanswer (response : Option Id → Response)
      (h : ∀ id : Id, id.Exact → (response (some id)).Exact) :
      ∀ x ∈ (Reaction.answer r.id response).responses, x.Exact := by
    intro x hx
    rw [Reaction.responses_answer] at hx
    obtain ⟨id, hr, rfl⟩ := Option.map_eq_some_iff.1 (Option.mem_toList.1 hx)
    exact h id (hid id hr)
  cases v with
  | refuse why =>
    exact hanswer (.failure · why.code why.reason) fun id h => Response.failure_exact h _ _
  | badParams e =>
    exact hanswer (.failure · .invalidParams e.message) fun id h => Response.failure_exact h _ _
  | greet client =>
    exact hanswer (.success · (greetingResult client)) fun id h =>
      Response.success_exact h (greetingResult_exact client)
  | hover p =>
    exact hanswer (.success · (hoverResult p)) fun id h =>
      Response.success_exact h (hoverResult_exact p)
  | shutDown =>
    intro x hx
    obtain ⟨id, hr, rfl⟩ := Option.map_eq_some_iff.1 (Option.mem_toList.1 hx)
    exact Response.success_exact (hid id hr) .null
  | unknown =>
    cases policy with
    | ignore =>
      intro x hx
      cases hx
    | reject =>
      exact hanswer (.failure · .methodNotFound ("unknown method: " ++ r.method)) fun id h =>
        Response.failure_exact h _ _
  | _ =>
    intro x hx
    cases hx

/-- Verdicts that a message with an id gets a response to. -/
def answers (policy : UnknownMethodPolicy) : Verdict → Bool
  | .refuse _ => true
  | .badParams _ => true
  | .greet _ => true
  | .hover _ => true
  | .shutDown => true
  | .unknown => policy = .reject
  | _ => false

theorem responses_id (v : Verdict) (policy : UnknownMethodPolicy) (s : Session) (r : Request) :
    (v.reaction policy s r).responses.map Response.id =
      (if v.answers policy then r.id else none).toList.map some := by
  have hanswer (response : Option Id → Response) (h : ∀ id, (response id).id = id) :
      (Reaction.answer r.id response).responses.map Response.id = r.id.toList.map some := by
    rw [Reaction.responses_answer]
    cases r.id with
    | none => rfl
    | some id => simp [h]
  cases v with
  | refuse why => exact hanswer (.failure · why.code why.reason) fun _ => rfl
  | badParams e => exact hanswer (.failure · .invalidParams e.message) fun _ => rfl
  | greet client => exact hanswer (.success · (greetingResult client)) fun _ => rfl
  | hover p => exact hanswer (.success · (hoverResult p)) fun _ => rfl
  | shutDown =>
    rw [reaction, Reaction.responses]
    cases r.id <;> rfl
  | unknown =>
    cases policy with
    | ignore => rfl
    | reject =>
      exact hanswer (.failure · .methodNotFound ("unknown method: " ++ r.method)) fun _ => rfl
  | _ => rfl

theorem answers_ofParams {α : Type} (decoded : Except ParamsError α) {good : α → Verdict}
    (hgood : ∀ a policy, (good a).answers policy = true) (policy : UnknownMethodPolicy) :
    (ofParams decoded good .badParams).answers policy = true := by
  cases decoded with
  | ok a => exact hgood a policy
  | error e => rfl

end Verdict

/-- The id that a request is to be answered by, as long as the session is open. -/
def Request.addressee (policy : UnknownMethodPolicy) (r : Request) : Option Id :=
  match Method.ofName r.method with
  | .exit => none
  | .other => if policy = .ignore then none else r.id
  | _ => r.id

theorem Verdict.answers_ofOpen (greeted : Bool) (policy : UnknownMethodPolicy) (r : Request) :
    (if (ofOpen greeted r).answers policy then r.id else none) = r.addressee policy := by
  cases hid : r.id with
  | none =>
    simp only [Request.addressee, hid, ite_self]
    cases Method.ofName r.method <;> rfl
  | some id =>
    have hrequest : r.isNotification = false := by rw [Request.isNotification, hid]; rfl
    rw [Request.addressee, ofOpen, hrequest, hid]
    cases Method.ofName r.method with
    | exit => rfl
    | greeted => rfl
    | saved => rfl
    | shutdown => rfl
    | other => cases policy <;> rfl
    | greeting =>
      cases greeted with
      | true => rfl
      | false => exact if_pos (answers_ofParams _ (fun _ _ => rfl) policy)
    | hover =>
      cases greeted with
      | false => rfl
      | true => exact if_pos (answers_ofParams _ (fun _ _ => rfl) policy)

/-- A session that is neither shutting down nor over. -/
def Session.IsOpen (s : Session) : Prop := s.phase = .uninitialized ∨ s.phase = .initialized

theorem Session.fresh_isOpen : fresh.IsOpen := Or.inl rfl

theorem Session.IsOpen.ne_exited {s : Session} (hs : s.IsOpen) : s.phase ≠ .exited := by
  obtain h | h := hs <;> simp [h]

/-- An open session answers each request by its id, and nothing else. -/
theorem Session.IsOpen.responses_id {s : Session} (hs : s.IsOpen) (policy : UnknownMethodPolicy)
    (r : Request) :
    (s.handle policy r).reaction.responses.map Response.id =
      (r.addressee policy).toList.map some := by
  obtain ⟨greeted, hv⟩ : ∃ greeted, s.verdict r = Verdict.ofOpen greeted r := by
    rcases hs with hs | hs <;> exact ⟨_, by rw [Session.verdict, hs]⟩
  rw [Session.handle, Verdict.responses_id, hv, Verdict.answers_ofOpen]

end HoverServer
