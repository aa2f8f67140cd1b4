import HoverServer.Proofs.Message.RequestRules
import HoverServer.Proofs.Message.ResponseRules
import HoverServer.Proofs.Message.RoundTrip

/-! Requests and responses are told apart by the members of the message itself. What stands inside
params, results and error data counts for nothing there, whatever it is called. -/
namespace HoverServer

namespace Response

/-- A response has no method. -/
theorem Canonical.decode_as_request {r : Response} (h : r.Canonical)
    (hd : (Json.object r.members).nesting ≤ Json.Reader.maxDepth) :
    Request.decode r.encode = .error ⟨r.encode, .missingMethod, r.id⟩ := by
  obtain ⟨ms, hopen, hid, hget⟩ := h.open? hd
  have hmethod : ms.get? "method" = none := by
    rw [hget]
    obtain ⟨id, outcome⟩ := r
    cases outcome <;> rfl
  have husable : Message.usableId ms = r.id := by
    rw [usableId_eq, hid]
    rfl
  rw [Request.decode, hopen]
  simp only [bind, Except.bind, hmethod, husable]

theorem Canonical.decode_as_request_of_deep {r : Response} (h : r.Canonical)
    (hd : Json.Reader.maxDepth < (Json.object r.members).nesting) :
    ∃ e, Request.decode r.encode = .error ⟨r.encode, .json e, none⟩ := by
  obtain ⟨e, hopen⟩ := Message.open?_objectText_of_deep (fun _ hm => h.member_integral hm) hd
  exact ⟨e, by rw [Request.decode, encode, hopen]; rfl⟩

end Response

namespace Request

theorem get?_outcome (r : Request) :
    r.members.get? "result" = none ∧ r.members.get? "error" = none := by
  obtain ⟨id, method, params⟩ := r
  cases id <;> cases params <;> exact ⟨rfl, rfl⟩

theorem get?_id (r : Request) : r.members.get? "id" = r.id.map Id.toJson := by
  obtain ⟨id, method, params⟩ := r
  cases id <;> cases params <;> rfl

/-- A request has no outcome, and a notification has not even an id. -/
theorem Canonical.decode_as_response {r : Request} (h : r.Canonical)
    (hd : (Json.object r.members).nesting ≤ Json.Reader.maxDepth) :
    Response.decode r.encode =
      .error ⟨r.encode, if r.id.isSome then .missingOutcome else .invalidId, r.id⟩ := by
  obtain ⟨ms, hopen, hget⟩ := h.open? hd
  have hresult := (hget "result").trans r.get?_outcome.1
  have herror := (hget "error").trans r.get?_outcome.2
  have hid := (hget "id").trans r.get?_id
  rw [Response.decode, hopen]
  simp only [bind, Except.bind]
  cases hr : r.id with
  | none =>
    rw [hr] at hid
    have hread : Response.decodeId ms = none := by
      rw [Response.decodeId, hid]
      rfl
    simp only [hread]
    rfl
  | some id =>
    rw [hr] at hid
    have hread : Response.decodeId ms = some (some id) := Response.decodeId_of_get? hid
    simp only [hread, hresult, herror]
    rfl

theorem Canonical.decode_as_response_of_deep {r : Request} (h : r.Canonical)
    (hd : Json.Reader.maxDepth < (Json.object r.members).nesting) :
    ∃ e, Response.decode r.encode = .error ⟨r.encode, .json e, none⟩ := by
  obtain ⟨e, hopen⟩ := Message.open?_objectText_of_deep (fun _ hm => (h.member hm).integral) hd
  exact ⟨e, by rw [Response.decode, encode, hopen]; rfl⟩

end Request

/-- A response is not read as a request nor a request as a response. Up to the depth that a reader
allows for it is always the same thing that is missed: a response has no method, a request has no
outcome, and a notification has no id. -/
theorem encode_told_apart {m : Request} {r : Response} (hm : m.Canonical) (hr : r.Canonical) :
    (∀ q, Request.decode r.encode ≠ .ok q) ∧ (∀ q, Response.decode m.encode ≠ .ok q) ∧
      ((Json.object r.members).nesting ≤ 127 →
        Request.decode r.encode = .error ⟨r.encode, .missingMethod, r.id⟩) ∧
      ((Json.object m.members).nesting ≤ 127 →
        Response.decode m.encode =
          .error ⟨m.encode, if m.id.isSome then .missingOutcome else .invalidId, m.id⟩) := by
  refine ⟨?_, ?_, hr.decode_as_request, hm.decode_as_response⟩
  · rcases Nat.lt_or_ge Json.Reader.maxDepth (Json.object r.members).nesting with hd | hd
    · obtain ⟨e, hread⟩ := hr.decode_as_request_of_deep hd
      simp [hread]
    · simp [hr.decode_as_request hd]
  · rcases Nat.lt_or_ge Json.Reader.maxDepth (Json.object m.members).nesting with hd | hd
    · obtain ⟨e, hread⟩ := hm.decode_as_response_of_deep hd
      simp [hread]
    · simp [hm.decode_as_response hd]

/-- A notification with an id and a result among its params. -/
def Request.disguised : Request :=
  ⟨none, "result", some (.object [("id", .string "a"), ("result", .null)])⟩

theorem Request.disguised_canonical : disguised.Canonical where
  id _ h := nomatch h
  params v h := by
    have hexact : Json.Exact 1 (.object [("id", .string "a"), ("result", .null)]) :=
      .two (by decide) (.string "a") .null
    rw [← Option.some.inj h]
    exact hexact.canonical

/-- A response with a method in its result. -/
def Response.disguised : Response :=
  ⟨some (.string "b"), .result (.object [("id", .null), ("method", .string "exit")])⟩

theorem Response.disguised_canonical : disguised.Canonical where
  id _ h := Option.some.inj h ▸ trivial
  payload v h := by
    have hexact : Json.Exact 1 (.object [("id", .null), ("method", .string "exit")]) :=
      .two (by decide) .null (.string "exit")
    rw [← Option.some.inj h]
    exact hexact.canonical

theorem encode_told_apart_disguised :
    Request.decode Response.disguised.encode =
        .error ⟨Response.disguised.encode, .missingMethod, some (.string "b")⟩ ∧
      Response.decode Request.disguised.encode =
        .error ⟨Request.disguised.encode, .invalidId, none⟩ := by
  obtain ⟨_, _, hresponse, hrequest⟩ :=
    encode_told_apart Request.disguised_canonical Response.disguised_canonical
  exact ⟨hresponse (by decide), hrequest (by decide)⟩

end HoverServer
