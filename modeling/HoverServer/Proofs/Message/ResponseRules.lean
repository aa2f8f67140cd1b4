import HoverServer.Message.Response
import HoverServer.Proofs.Json.Record
import HoverServer.Proofs.Message.Rules

/-! Which texts are responses, and what is reported of those that are none. An error may say what it
has to say by name or in order. -/
namespace HoverServer

/-- An integer of 64 bits with a sign. -/
def Json.IsInt64 (v : Json) (n : Int64) : Prop :=
  ∃ w : Whole, v = .number (.whole w) ∧ w.value = n.toInt

/-- The value says what the error does, by name or in order. Data that is null is no data. -/
inductive ResponseError.Shape (e : ResponseError) : Json → Prop where
  | named {ms : Members} {code : Json} (given : ms.get? "code" = some code)
      (integer : code.IsInt64 e.code) (message : ms.get? "message" = some (.string e.message))
      (data : e.data = (ms.get? "data").filter (· ≠ .null)) : Shape e (.object ms)
  | two {code : Json} (integer : code.IsInt64 e.code) (data : e.data = none) :
      Shape e (.array [code, .string e.message])
  | three {code last : Json} (integer : code.IsInt64 e.code)
      (data : e.data = (some last).filter (· ≠ .null)) :
      Shape e (.array [code, .string e.message, last])

namespace Json

theorem Decoder.signed_iff {v : Json} {n : Int64} : signed v = .ok n ↔ v.IsInt64 n := by
  constructor
  · intro h
    cases v with
    | number k =>
      cases k with
      | whole w =>
        rw [signed] at h
        split at h
        · rename_i hlt
          refine ⟨w, rfl, ?_⟩
          rw [← Except.ok.inj h]
          exact (Int64.toInt_ofInt_of_le w.lower hlt).symm
        · cases h
      | real x => cases h
    | _ => cases h
  · rintro ⟨w, rfl, hw⟩
    have hlt : w.value < 0x8000000000000000 := hw ▸ n.toInt_lt
    rw [signed, if_pos hlt, hw, n.ofInt_toInt]

end Json

namespace ResponseError

variable {e : ResponseError} {v : Json}

theorem decode_fields_iff :
    decode v = .ok e ↔ Json.decodeThree "ResponseError" (.required "code" .signed)
      (.required "message" .text) (.trailing "data" .any) v =
        .ok (e.code, e.message, e.data) := by
  apply Json.bind_ok_iff_fields
  rintro ⟨code, message, data⟩ ⟨code', message', data'⟩
  simp [pure, Except.pure]

theorem decode_object_iff {ms : Members} (hms : ms.Distinct) :
    decode (.object ms) = .ok e ↔ e.Shape (.object ms) := by
  rw [decode_fields_iff, Json.decodeThree_object_iff hms, Json.Field.finds_required_iff,
    Json.Field.finds_required_iff, Json.Field.finds_any_iff]
  constructor
  · rintro ⟨⟨code, hcode, hinteger⟩, ⟨message, hmessage, htext⟩, hdata⟩
    rw [Json.Decoder.text_iff.1 htext] at hmessage
    exact .named hcode (Json.Decoder.signed_iff.1 hinteger) hmessage hdata
  · intro h
    cases h with
    | named given integer message data =>
      exact ⟨⟨_, given, Json.Decoder.signed_iff.2 integer⟩, ⟨_, message, rfl⟩, data⟩

theorem decode_array_iff {items : List Json} :
    decode (.array items) = .ok e ↔ e.Shape (.array items) := by
  rw [decode_fields_iff, Json.decodeThree_array_iff, Json.Field.meets_required_iff,
    Json.Field.meets_required_iff, Json.Field.meets_any_iff]
  constructor
  · rintro ⟨⟨⟨code, hcode, hinteger⟩, ⟨message, hmessage, htext⟩, hdata⟩, hlength⟩
    rw [Json.Decoder.text_iff.1 htext] at hmessage
    match items with
    | [] => cases hcode
    | [_] => cases hmessage
    | [_, _] =>
      cases hcode
      cases hmessage
      exact .two (Json.Decoder.signed_iff.1 hinteger) hdata
    | [_, _, _] =>
      cases hcode
      cases hmessage
      exact .three (Json.Decoder.signed_iff.1 hinteger) hdata
    | _ :: _ :: _ :: _ :: _ =>
      simp only [List.length_cons] at hlength
      omega
  · intro h
    cases h with
    | two integer data =>
      exact ⟨⟨⟨_, rfl, Json.Decoder.signed_iff.2 integer⟩, ⟨_, rfl, rfl⟩, data⟩, Nat.le_succ 2⟩
    | three integer data =>
      exact ⟨⟨⟨_, rfl, Json.Decoder.signed_iff.2 integer⟩, ⟨_, rfl, rfl⟩, data⟩, Nat.le_refl 3⟩

/-- Members that hide behind others are checked as well, but a value that was read has none. -/
theorem decode_iff_shape (hv : v.Ordered) : decode v = .ok e ↔ e.Shape v := by
  cases hv with
  | object sorted _ => exact decode_object_iff sorted.distinct
  | array _ => exact decode_array_iff
  | _ =>
    constructor
    · intro h
      cases h
    · intro h
      cases h

end ResponseError

/-- The text says what the outcome does, and nothing of another one. -/
inductive Outcome.StandsIn (text : String) : Outcome → Prop where
  | result {v : Json} (given : Message.Has text "result" v)
      (alone : ∀ w, ¬ Message.Has text "error" w) : StandsIn text (.result v)
  | error {v : Json} {e : ResponseError} (given : Message.Has text "error" v) (shape : e.Shape v)
      (alone : ∀ w, ¬ Message.Has text "result" w) : StandsIn text (.error e)

theorem Outcome.StandsIn.unique {text : String} {o o' : Outcome} (h : o.StandsIn text)
    (h' : o'.StandsIn text) : o = o' := by
  cases h with
  | result given alone =>
    cases h' with
    | result given' _ => rw [given.unique given']
    | error given' _ _ => exact absurd given' (alone _)
  | error given shape alone =>
    cases h' with
    | result given' _ => exact absurd given' (alone _)
    | error given' shape' _ =>
      cases given.unique given'
      have hread := (ResponseError.decode_iff_shape given.ordered).2 shape
      have hread' := (ResponseError.decode_iff_shape given.ordered).2 shape'
      rw [Except.ok.inj (hread.symm.trans hread')]

namespace Response

/-- The text says what the response does, and perhaps more. -/
structure StandsIn (r : Response) (text : String) : Prop where
  version : Message.Has text "jsonrpc" (.string "2.0")
  id : Message.Has text "id" (idJson r.id)
  outcome : r.outcome.StandsIn text

/-- How the rules for responses are broken. -/
inductive Broken (text : String) : Fault → Prop where
  | invalidId (other : ∀ id, ¬ Message.Has text "id" (idJson id)) : Broken text .invalidId
  | conflictingOutcome {v w : Json} (result : Message.Has text "result" v)
      (error : Message.Has text "error" w) : Broken text .conflictingOutcome
  | missingOutcome (result : ∀ v, ¬ Message.Has text "result" v)
      (error : ∀ v, ¬ Message.Has text "error" v) : Broken text .missingOutcome
  | invalidError {v : Json} {why : Json.Mismatch} (result : ∀ v, ¬ Message.Has text "result" v)
      (error : Message.Has text "error" v) (other : ∀ e : ResponseError, ¬ e.Shape v)
      (mismatch : ResponseError.decode v = .error why) : Broken text (.invalidError why)

variable {text : String} {r : Response} {m : Malformed} {f g : Fault}

theorem Broken.late (h : Broken text f) : 2 < f.rank := by
  cases h <;> simp [Fault.rank]

theorem Broken.same (hf : Broken text f) (hg : Broken text g) (hrank : f.rank = g.rank) :
    f = g := by
  cases hf with
  | invalidId _ =>
    cases hg with
    | invalidId _ => rfl
    | _ => cases hrank
  | conflictingOutcome result error =>
    cases hg with
    | invalidId _ => cases hrank
    | conflictingOutcome _ _ => rfl
    | missingOutcome none _ => exact absurd result (none _)
    | invalidError none _ _ _ => exact absurd result (none _)
  | missingOutcome none empty =>
    cases hg with
    | invalidId _ => cases hrank
    | conflictingOutcome result _ => exact absurd result (none _)
    | missingOutcome _ _ => rfl
    | invalidError _ error _ _ => exact absurd error (empty _)
  | invalidError none error _ mismatch =>
    cases hg with
    | invalidId _ => cases hrank
    | conflictingOutcome result _ => exact absurd result (none _)
    | missingOutcome _ empty => exact absurd error (empty _)
    | invalidError _ error' _ mismatch' =>
      cases error.unique error'
      cases mismatch.symm.trans mismatch'
      rfl

theorem idJson_injective {id other : Option Id} (h : idJson id = idJson other) : id = other := by
  cases id with
  | none =>
    cases other with
    | none => rfl
    | some other => cases other <;> cases h
  | some id =>
    cases other with
    | none => cases id <;> cases h
    | some other => rw [Id.toJson_injective h]

theorem decodeId_iff {ms : Members} {id : Option Id} :
    decodeId ms = some id ↔ ms.get? "id" = some (idJson id) := by
  rw [decodeId]
  cases ms.get? "id" with
  | none => simp
  | some v =>
    cases id with
    | none => cases v <;> simp [idJson, Id.ofJson?]
    | some id => cases id <;> cases v <;> simp [idJson, Id.ofJson?, Id.toJson]

theorem usableId_eq (ms : Members) : Message.usableId ms = (decodeId ms).join := by
  rw [Message.usableId, decodeId]
  cases ms.get? "id" with
  | none => rfl
  | some v => cases v <;> rfl

/-- Where the id is as it has to be, only the outcome can be wrong. -/
theorem Broken.rank_eq (h : Broken text f) {id : Option Id}
    (hid : Message.Has text "id" (idJson id)) : f.rank = 5 := by
  cases h with
  | invalidId other => exact absurd hid (other id)
  | _ => rfl

theorem decode_ok (h : decode text = .ok r) : r.StandsIn text := by
  obtain ⟨ms, hopen, h⟩ := Json.bind_ok_iff.1 h
  obtain ⟨hparse, hversion⟩ := Message.open?_ok hopen
  have hhas {name : String} {v : Json} : Message.Has text name v ↔ ms.get? name = some v :=
    Message.has_of_object hparse
  have hnone {name : String} (h : ms.get? name = none) (v : Json) : ¬ Message.Has text name v := by
    rw [hhas, h]
    exact nofun
  split at h
  · cases h
  · rename_i id hid
    have hid' := hhas.2 (decodeId_iff.1 hid)
    split at h
    · rename_i v hresult herror
      cases h
      exact ⟨hversion, hid', .result (hhas.2 hresult) (hnone herror)⟩
    · rename_i v hresult herror
      split at h
      · rename_i e hdecode
        cases h
        have hshape := (ResponseError.decode_iff_shape (hhas.2 herror).ordered).1 hdecode
        exact ⟨hversion, hid', .error (hhas.2 herror) hshape (hnone hresult)⟩
      · cases h
    · cases h
    · cases h

theorem decode_error (h : decode text = .error m) : m.Reports text (Broken text) := by
  rw [decode] at h
  cases hopen : Message.open? text with
  | error m' =>
    rw [hopen] at h
    cases h
    exact Message.open?_error (fun _ => Broken.late) hopen
  | ok ms =>
    rw [hopen] at h
    simp only [bind, Except.bind] at h
    have hhas {name : String} {v : Json} : Message.Has text name v ↔ ms.get? name = some v :=
      Message.has_of_object (Message.open?_ok hopen).1
    have hnone {name : String} (h : ms.get? name = none) (v : Json) :
        ¬ Message.Has text name v := by
      rw [hhas, h]
      exact nofun
    split at h
    · rename_i hid
      cases h
      have hother (id : Option Id) : ¬ Message.Has text "id" (idJson id) := by
        rw [hhas, ← decodeId_iff, hid]
        exact nofun
      have husable : none = Message.usableId ms := by
        rw [usableId_eq, hid]
        rfl
      apply Message.reports_of_open hopen rfl husable (.invalidId hother)
      intro g hg
      cases hg <;> simp [Fault.rank]
    · rename_i id hid
      have hid' := hhas.2 (decodeId_iff.1 hid)
      have husable : id = Message.usableId ms := by
        rw [usableId_eq, hid]
        rfl
      have hfirst (g : Fault) (hg : Broken text g) : 5 ≤ g.rank :=
        Nat.le_of_eq (hg.rank_eq hid').symm
      split at h
      · cases h
      · rename_i v hresult herror
        split at h
        · cases h
        · rename_i why hwhy
          cases h
          have hother (e : ResponseError) : ¬ e.Shape v := by
            rw [← ResponseError.decode_iff_shape (hhas.2 herror).ordered, hwhy]
            exact nofun
          exact Message.reports_of_open hopen rfl husable
            (.invalidError (hnone hresult) (hhas.2 herror) hother hwhy) hfirst
      · rename_i hresult herror
        cases h
        exact Message.reports_of_open hopen rfl husable
          (.conflictingOutcome (hhas.2 hresult) (hhas.2 herror)) hfirst
      · rename_i hresult herror
        cases h
        exact Message.reports_of_open hopen rfl husable
          (.missingOutcome (hnone hresult) (hnone herror)) hfirst

theorem StandsIn.unique {s : Response} (hr : r.StandsIn text) (hs : s.StandsIn text) : r = s := by
  obtain ⟨id, outcome⟩ := r
  obtain ⟨id', outcome'⟩ := s
  have hid : id = id' := idJson_injective (hr.id.unique hs.id)
  have houtcome : outcome = outcome' := hr.outcome.unique hs.outcome
  rw [hid, houtcome]

theorem StandsIn.unbroken (h : r.StandsIn text) (f : Fault) : ¬ Broken text f := by
  obtain ⟨id, outcome⟩ := r
  have houtcome : outcome.StandsIn text := h.outcome
  intro hf
  cases hf with
  | invalidId other => exact other id h.id
  | conflictingOutcome result error =>
    cases houtcome with
    | result _ alone => exact alone _ error
    | error _ _ alone => exact alone _ result
  | missingOutcome noResult noError =>
    cases houtcome with
    | result given _ => exact noResult _ given
    | error given _ _ => exact noError _ given
  | invalidError noResult error other _ =>
    cases houtcome with
    | result given _ => exact noResult _ given
    | error given shape _ =>
      cases given.unique error
      exact other _ shape

/-- A text is read as the response that stands in it, and if there is none, the report on it is the
true one. -/
theorem decode_response_iff (text : String) :
    (∀ r, decode text = .ok r ↔ r.StandsIn text) ∧
      ∀ m, decode text = .error m ↔ m.Reports text (Broken text) :=
  Message.reads_iff (fun _ => decode_ok) (fun _ => decode_error) (fun _ _ => StandsIn.unique)
    (fun _ => Broken.late) (fun _ _ => Broken.same) (fun _ => StandsIn.version)
    fun _ f h => h.unbroken f

end Response

end HoverServer
