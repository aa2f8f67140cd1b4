import HoverServer.Message.Request
import HoverServer.Message.Response
import HoverServer.Proofs.Json.Record
import HoverServer.Proofs.Json.RoundTrip

/-! Messages are read back as they were written, wherever there is room for their depth. The one
thing that is not kept is error data that is null, which reads as no data. -/
namespace HoverServer

/-- Ids that are read back as they are written. -/
def Id.Exact : Id → Prop
  | .number (.whole _) => True
  | .number (.real _) => False
  | .string _ => True

theorem Id.Exact.toJson {id : Id} (h : id.Exact) (depth : Nat) : Json.Exact depth id.toJson := by
  cases id with
  | string s => exact .string s
  | number n =>
    cases n with
    | whole w => exact .whole w
    | real x => exact h.elim

/-- A message that was written shows a reader the members that it was written from. -/
theorem Message.open?_objectText {ms : Members} (h : ∀ m ∈ ms, m.2.Integral)
    (hd : (Json.object ms).nesting ≤ Json.Reader.maxDepth) (hms : ms.Distinct)
    (hversion : ms.get? "jsonrpc" = some (.string version)) :
    ∃ members : Members, open? (Json.objectText ms) = .ok members ∧
      ∀ name, members.get? name = (ms.get? name).map Json.normal := by
  have hget := Json.get?_place_normalMembers hms
  refine ⟨_, ?_, hget⟩
  have hparse := Json.parse_text (Json.Integral.object h) hd
  rw [Json.text_object, Json.normal] at hparse
  rw [open?, hparse]
  simp only
  rw [hget, hversion]
  exact if_pos rfl

theorem Message.open?_objectText_of_deep {ms : Members} (h : ∀ m ∈ ms, m.2.Integral)
    (hd : Json.Reader.maxDepth < (Json.object ms).nesting) :
    ∃ e, open? (Json.objectText ms) = .error ⟨Json.objectText ms, .json e, none⟩ := by
  obtain ⟨e, hparse, _⟩ := Json.parse_text_of_deep (Json.Integral.object h) hd
  rw [Json.text_object] at hparse
  exact ⟨e, by rw [open?, hparse]⟩

/-! ### Requests -/

/-- The id in a text, if the text is an object and has an id that can be used. -/
def Message.idOf (text : String) : Option Id :=
  match Json.parse text with
  | .ok (.object members) => usableId members
  | _ => none

theorem Message.idOf_of_open {text : String} {members : Members}
    (h : open? text = .ok members) : idOf text = usableId members := by
  rw [open?] at h
  rw [idOf]
  cases hp : Json.parse text with
  | error e =>
    rw [hp] at h
    cases h
  | ok v =>
    rw [hp] at h
    cases v with
    | object ms =>
      simp only at h
      split at h
      · cases h
        rfl
      · cases h
    | _ => cases h

theorem Message.idOf_of_open_error {text : String} {m : Malformed} (h : open? text = .error m)
    {id : Id} (hid : m.id = some id) : idOf text = some id := by
  rw [open?] at h
  rw [idOf]
  cases hp : Json.parse text with
  | error e =>
    rw [hp] at h
    cases h
    cases hid
  | ok v =>
    rw [hp] at h
    cases v with
    | object ms =>
      simp only at h
      split at h
      · cases h
      · cases h
        exact hid
    | _ =>
      cases h
      cases hid

namespace Request

/-- The id that is known once a text has been read. -/
def idRead : Except Malformed Request → Option Id
  | .ok r => r.id
  | .error m => m.id

theorem idOf_of_decode {text : String} {id : Id} (h : idRead (decode text) = some id) :
    Message.idOf text = some id := by
  rw [decode] at h
  cases ho : Message.open? text with
  | error m =>
    rw [ho] at h
    exact Message.idOf_of_open_error ho h
  | ok members =>
    rw [ho] at h
    simp only [bind, Except.bind] at h
    rw [Message.idOf_of_open ho]
    split at h
    · split at h
      · cases h
      · rename_i v hv
        split at h
        · rename_i id' hid
          rw [Message.usableId, hv, Option.bind_some, hid]
          exact h
        · exact h
    · exact h

/-- Requests that are read back as they are written, wherever there is room for their depth. -/
structure Canonical (r : Request) : Prop where
  id : ∀ id, r.id = some id → id.Exact
  params : ∀ v, r.params = some v → v.Canonical

theorem Canonical.member {r : Request} (h : r.Canonical) {m : String × Json}
    (hm : m ∈ r.members) : m.2.Canonical := by
  simp only [members, List.mem_append, List.mem_singleton, Option.mem_toList,
    Option.map_eq_some_iff] at hm
  obtain ((rfl | ⟨id, hid, rfl⟩) | rfl) | ⟨v, hv, rfl⟩ := hm
  · exact ⟨.string _, .string _⟩
  · exact ((h.id id hid).toJson 0).canonical
  · exact ⟨.string _, .string _⟩
  · exact h.params v hv

theorem members_distinct (r : Request) : r.members.Distinct := by
  obtain ⟨id, method, params⟩ := r
  apply Members.distinct_of_nodup
  cases id with
  | none =>
    cases params with
    | none => exact (by decide : ["jsonrpc", "method"].Nodup)
    | some v => exact (by decide : ["jsonrpc", "method", "params"].Nodup)
  | some id =>
    cases params with
    | none => exact (by decide : ["jsonrpc", "id", "method"].Nodup)
    | some v => exact (by decide : ["jsonrpc", "id", "method", "params"].Nodup)

theorem Canonical.open? {r : Request} (h : r.Canonical)
    (hd : (Json.object r.members).nesting ≤ Json.Reader.maxDepth) :
    ∃ ms : Members, Message.open? r.encode = .ok ms ∧
      ∀ name, ms.get? name = r.members.get? name := by
  obtain ⟨ms, hopen, hnormal⟩ :=
    Message.open?_objectText (fun _ hm => (h.member hm).integral) hd r.members_distinct rfl
  exact ⟨ms, hopen, fun name =>
    (hnormal name).trans (Json.map_normal_get? (fun _ hm => (h.member hm).ordered) name)⟩

theorem Canonical.decode_encode {r : Request} (h : r.Canonical)
    (hd : (Json.object r.members).nesting ≤ Json.Reader.maxDepth) :
    decode r.encode = .ok r := by
  obtain ⟨ms, hopen, hget⟩ := h.open? hd
  rw [decode, hopen]
  simp only [bind, Except.bind, hget]
  obtain ⟨id, method, params⟩ := r
  cases id with
  | none => cases params <;> rfl
  | some id => cases id <;> cases params <;> rfl

theorem Canonical.nesting_le_of_decode {r s : Request} (h : r.Canonical)
    (hread : decode r.encode = .ok s) :
    (Json.object r.members).nesting ≤ Json.Reader.maxDepth := by
  apply Nat.le_of_not_lt
  intro hd
  obtain ⟨e, hopen⟩ := Message.open?_objectText_of_deep (fun _ hm => (h.member hm).integral) hd
  rw [decode, encode, hopen] at hread
  cases hread

/-- A request is read back if and only if there are at most 127 containers inside each other, its
own object among them. -/
theorem decode_encode_iff {r : Request} (h : r.Canonical) :
    decode r.encode = .ok r ↔ (Json.object r.members).nesting ≤ 127 :=
  ⟨h.nesting_le_of_decode, h.decode_encode⟩

/-- A request with the greatest of all ids, characters that have to be escaped, and a null. -/
def awkward : Request :=
  ⟨some (.number (.whole ⟨0xffffffffffffffff, by decide, by decide⟩)), "\"quoted\"\\ 😀\n",
    some (.object [("\t", .null), ("é", .array [.number (.whole ⟨-1, by decide, by decide⟩)])])⟩

theorem awkward_canonical : awkward.Canonical where
  id _ h := Option.some.inj h ▸ trivial
  params v h := by
    have hitems : ∀ w ∈ [Json.number (.whole ⟨-1, by decide, by decide⟩)], Json.Exact 0 w := by
      intro w hw
      rw [List.mem_singleton.1 hw]
      exact .whole _
    rw [← Option.some.inj h]
    exact (Json.Exact.two (by decide) .null (.array hitems)).canonical

theorem decode_encode_iff_awkward :
    (Json.object awkward.members).nesting ≤ 127 ∧ decode awkward.encode = .ok awkward := by
  have hd : (Json.object awkward.members).nesting ≤ 127 := by decide
  exact ⟨hd, (decode_encode_iff awkward_canonical).2 hd⟩

/-- What a client sends when it is done. -/
def farewell : Request := ⟨some (.number (.whole ⟨1, by decide, by decide⟩)), "shutdown", none⟩

theorem decode_farewell : decode farewell.encode = .ok farewell :=
  Canonical.decode_encode ⟨fun _ h => Option.some.inj h ▸ trivial, fun _ h => nomatch h⟩
    (by decide)

theorem idOf_farewell : Message.idOf farewell.encode = farewell.id :=
  idOf_of_decode (congrArg idRead decode_farewell)

end Request

/-! ### Responses -/

namespace Json

theorem Decoder.signed_ofInt64 (n : Int64) : signed (.ofInt64 n) = .ok n := by
  have hn : (Whole.ofInt64 n).value < 0x8000000000000000 := n.toInt_lt
  rw [Json.ofInt64, signed, if_pos hn]
  exact congrArg Except.ok n.ofInt_toInt

end Json

namespace ResponseError

/-- The error without data that is null. -/
def plain (e : ResponseError) : ResponseError := { e with data := e.data.filter (· ≠ .null) }

def members (e : ResponseError) : Members :=
  [("code", .ofInt64 e.code), ("message", .string e.message)] ++
    (e.data.map fun data => ("data", data)).toList

theorem members_distinct (e : ResponseError) : e.members.Distinct := by
  obtain ⟨code, message, data⟩ := e
  apply Members.distinct_of_nodup
  cases data with
  | none => exact (by decide : ["code", "message"].Nodup)
  | some v => exact (by decide : ["code", "message", "data"].Nodup)

theorem get?_data (e : ResponseError) : e.members.get? "data" = e.data := by
  obtain ⟨code, message, data⟩ := e
  cases data <;> rfl

theorem of_mem_members {e : ResponseError} {m : String × Json} (hm : m ∈ e.members) :
    m.2 = .ofInt64 e.code ∨ m.2 = .string e.message ∨ e.data = some m.2 := by
  simp only [members, List.mem_append, List.mem_cons, List.not_mem_nil, or_false,
    Option.mem_toList, Option.map_eq_some_iff] at hm
  obtain (rfl | rfl) | ⟨v, hv, rfl⟩ := hm
  · exact Or.inl rfl
  · exact Or.inr (Or.inl rfl)
  · exact Or.inr (Or.inr hv)

theorem toJson_integral {e : ResponseError} (h : ∀ v, e.data = some v → v.Integral) :
    e.toJson.Integral := by
  refine @Json.Integral.object e.members ?_
  intro m hm
  rcases of_mem_members hm with hv | hv | hv
  · rw [hv]
    exact .whole _
  · rw [hv]
    exact .string _
  · exact h m.2 hv

theorem members_ordered {e : ResponseError} (h : ∀ v, e.data = some v → v.Ordered) :
    ∀ m ∈ e.members, m.2.Ordered := by
  intro m hm
  rcases of_mem_members hm with hv | hv | hv
  · rw [hv]
    exact .number _
  · rw [hv]
    exact .string _
  · exact h m.2 hv

/-- The members are written in another order than they come back in. -/
theorem decode_normal {e : ResponseError} (h : ∀ v, e.data = some v → v.Ordered) :
    decode e.toJson.normal = .ok e.plain := by
  have hcode : (Json.Field.required "code" .signed).Finds e.members e.code :=
    Json.Decoder.signed_ofInt64 e.code
  have hmessage : (Json.Field.required "message" .text).Finds e.members e.message := rfl
  have hdata : (Json.Field.trailing "data" .any).Finds e.members (e.data.filter (· ≠ .null)) := by
    rw [Json.Field.finds_any_iff, get?_data]
  have hread := Json.decodeThree_normal e.members_distinct (members_ordered h) hcode hmessage
    hdata "ResponseError"
  have hobject : e.toJson = .object e.members := rfl
  rw [decode, hobject, hread]
  rfl

theorem plain_eq_iff (e : ResponseError) : e.plain = e ↔ e.data ≠ some .null := by
  obtain ⟨code, message, data⟩ := e
  cases data with
  | none => simp [plain]
  | some v =>
    by_cases hv : v = .null <;> simp [plain, Option.filter, hv]

end ResponseError

/-- The value that a response brings, be it a result or what is said of an error. -/
def Outcome.payload : Outcome → Option Json
  | .result v => some v
  | .error e => e.data

namespace Response

/-- Responses that are read back as they are written, wherever there is room for their depth. -/
structure Canonical (r : Response) : Prop where
  id : ∀ id, r.id = some id → id.Exact
  payload : ∀ v, r.outcome.payload = some v → v.Canonical

/-- The response without error data that is null. -/
def plain (r : Response) : Response :=
  match r.outcome with
  | .result _ => r
  | .error e => ⟨r.id, .error e.plain⟩

theorem plain_id (r : Response) : r.plain.id = r.id := by
  rw [plain]
  split <;> rfl

theorem plain_eq_iff (r : Response) :
    r.plain = r ↔ ∀ e, r.outcome = .error e → e.data ≠ some .null := by
  obtain ⟨id, outcome⟩ := r
  cases outcome with
  | result v => simp [plain]
  | error e => simp [plain, e.plain_eq_iff]

theorem idJson_exact {r : Response} (h : ∀ id, r.id = some id → id.Exact) (depth : Nat) :
    Json.Exact depth (idJson r.id) := by
  cases hid : r.id with
  | none => exact .null
  | some id => exact (h id hid).toJson depth

theorem Canonical.outcome_integral {r : Response} (h : r.Canonical) :
    (outcomeMember r.outcome).2.Integral := by
  obtain ⟨id, outcome⟩ := r
  cases outcome with
  | result v => exact (h.payload v rfl).integral
  | error e => exact ResponseError.toJson_integral fun v hv => (h.payload v hv).integral

theorem Canonical.member_integral {r : Response} (h : r.Canonical) {m : String × Json}
    (hm : m ∈ r.members) : m.2.Integral := by
  simp only [members, List.mem_cons, List.not_mem_nil, or_false] at hm
  rcases hm with rfl | rfl | rfl
  · exact .string _
  · exact (idJson_exact h.id 0).integral
  · exact h.outcome_integral

theorem members_distinct (r : Response) : r.members.Distinct := by
  obtain ⟨id, outcome⟩ := r
  apply Members.distinct_of_nodup
  cases outcome with
  | result v => exact (by decide : ["jsonrpc", "id", "result"].Nodup)
  | error e => exact (by decide : ["jsonrpc", "id", "error"].Nodup)

theorem decodeId_of_get? {ms : Members} {id : Option Id} (h : ms.get? "id" = some (idJson id)) :
    decodeId ms = some id := by
  rw [decodeId, h]
  cases id with
  | none => rfl
  | some id => cases id <;> rfl

theorem Canonical.open? {r : Response} (h : r.Canonical)
    (hd : (Json.object r.members).nesting ≤ Json.Reader.maxDepth) :
    ∃ ms : Members, Message.open? r.encode = .ok ms ∧ decodeId ms = some r.id ∧
      ∀ name, ms.get? name = (r.members.get? name).map Json.normal := by
  obtain ⟨ms, hopen, hget⟩ :=
    Message.open?_objectText (fun _ hm => h.member_integral hm) hd r.members_distinct rfl
  have hidNormal : (idJson r.id).normal = idJson r.id := (idJson_exact h.id 0).ordered.normal_eq
  refine ⟨ms, hopen, decodeId_of_get? ?_, hget⟩
  rw [hget, ← hidNormal]
  rfl

theorem Canonical.decode_encode {r : Response} (h : r.Canonical)
    (hd : (Json.object r.members).nesting ≤ Json.Reader.maxDepth) :
    decode r.encode = .ok r.plain := by
  obtain ⟨ms, hopen, hid, hget⟩ := h.open? hd
  obtain ⟨id, outcome⟩ := r
  rw [decode, hopen]
  simp only [bind, Except.bind, hid]
  cases outcome with
  | result v =>
    have hresult : ms.get? "result" = some v :=
      (hget "result").trans (congrArg some (h.payload v rfl).ordered.normal_eq)
    have herror : ms.get? "error" = none := hget "error"
    simp only [hresult, herror]
    rfl
  | error e =>
    have hresult : ms.get? "result" = none := hget "result"
    have herror : ms.get? "error" = some e.toJson.normal := hget "error"
    have hread := ResponseError.decode_normal fun v hv => (h.payload v hv).ordered
    simp only [hresult, herror, hread]
    rfl

theorem Canonical.nesting_le_of_decode {r s : Response} (h : r.Canonical)
    (hread : decode r.encode = .ok s) :
    (Json.object r.members).nesting ≤ Json.Reader.maxDepth := by
  apply Nat.le_of_not_lt
  intro hd
  obtain ⟨e, hopen⟩ := Message.open?_objectText_of_deep (fun _ hm => h.member_integral hm) hd
  rw [decode, encode, hopen] at hread
  cases hread

/-- A response is read back, but for error data that is null, if and only if there are at most 127
containers inside each other, its own object among them. -/
theorem decode_encode_plain_iff {r : Response} (h : r.Canonical) :
    (decode r.encode = .ok r.plain ↔ (Json.object r.members).nesting ≤ 127) ∧
      (decode r.encode = .ok r ↔ (Json.object r.members).nesting ≤ 127 ∧
        ∀ e, r.outcome = .error e → e.data ≠ some .null) := by
  refine ⟨⟨h.nesting_le_of_decode, h.decode_encode⟩, ?_⟩
  rw [← plain_eq_iff]
  constructor
  · intro hread
    have hd := h.nesting_le_of_decode hread
    rw [h.decode_encode hd] at hread
    exact ⟨hd, Except.ok.inj hread⟩
  · intro ⟨hd, hplain⟩
    rw [h.decode_encode hd, hplain]

/-- Error data that is null, beside the least of all codes. -/
def emptied : Response := ⟨none, .error ⟨Int64.minValue, "\u0000\"", some .null⟩⟩

theorem emptied_canonical : emptied.Canonical where
  id _ h := nomatch h
  payload v h := by
    have hnull : (Json.null).Canonical := ⟨.null, .null⟩
    rw [← Option.some.inj h]
    exact hnull

theorem decode_encode_plain_iff_emptied :
    decode emptied.encode = .ok ⟨none, .error ⟨Int64.minValue, "\u0000\"", none⟩⟩ ∧
      decode emptied.encode ≠ .ok emptied := by
  obtain ⟨hplain, hsame⟩ := decode_encode_plain_iff emptied_canonical
  constructor
  · exact hplain.2 (by decide)
  · intro hread
    exact (hsame.1 hread).2 _ rfl rfl

/-- Responses without doubles that the reader's depth allows for. -/
structure Exact (r : Response) : Prop where
  id : ∀ id, r.id = some id → id.Exact
  outcome : Json.Exact 126 (outcomeMember r.outcome).2

theorem Exact.canonical {r : Response} (h : r.Exact) : r.Canonical := by
  refine ⟨h.id, ?_⟩
  intro v hv
  obtain ⟨id, outcome⟩ := r
  cases outcome with
  | result w =>
    cases hv
    exact h.outcome.canonical
  | error e =>
    have hdata : ("data", v) ∈ e.members :=
      Members.mem_of_get? (e.get?_data.trans hv)
    have hexact : Json.Exact 126 (.object e.members) := h.outcome
    cases hexact with
    | object _ hmembers => exact (hmembers _ hdata).canonical

theorem Exact.nesting_le {r : Response} (h : r.Exact) :
    (Json.object r.members).nesting ≤ Json.Reader.maxDepth := by
  refine Nat.succ_le_succ (Json.nestingMembers_le_iff.2 ?_)
  intro m hm
  simp only [members, List.mem_cons, List.not_mem_nil, or_false] at hm
  rcases hm with rfl | rfl | rfl
  · exact Nat.zero_le _
  · exact (idJson_exact h.id 126).nesting_le
  · exact h.outcome.nesting_le

theorem decode_encode {r : Response} (h : r.Exact) : decode r.encode = .ok r.plain :=
  h.canonical.decode_encode h.nesting_le

end Response
end HoverServer
