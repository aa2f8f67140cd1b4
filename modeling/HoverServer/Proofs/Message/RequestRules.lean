import HoverServer.Message.Request
import HoverServer.Proofs.Json.Record
import HoverServer.Proofs.Message.Rules

/-! Which texts are requests, and what is reported of those that are none. -/
namespace HoverServer

namespace Request

/-- The text says what the request does, and perhaps more. -/
structure StandsIn (r : Request) (text : String) : Prop where
  version : Message.Has text "jsonrpc" (.string "2.0")
  method : Message.Has text "method" (.string r.method)
  id : ∀ v, Message.Has text "id" v ↔ r.id.map Id.toJson = some v
  params : ∀ v, Message.Has text "params" v ↔ r.params = some v

/-- How the rules for requests are broken. -/
inductive Broken (text : String) : Fault → Prop where
  | missingMethod (other : ∀ method, ¬ Message.Has text "method" (.string method)) :
      Broken text .missingMethod
  | invalidId {v : Json} (given : Message.Has text "id" v) (other : ∀ id : Id, v ≠ id.toJson) :
      Broken text .invalidId

variable {text : String} {r : Request} {m : Malformed} {f g : Fault}

theorem Broken.late (h : Broken text f) : 2 < f.rank := by
  cases h <;> simp [Fault.rank]

theorem Broken.same (hf : Broken text f) (hg : Broken text g) (hrank : f.rank = g.rank) :
    f = g := by
  cases hf <;> cases hg <;> first | rfl | cases hrank

theorem decode_ok (h : decode text = .ok r) : r.StandsIn text := by
  obtain ⟨ms, hopen, h⟩ := Json.bind_ok_iff.1 h
  obtain ⟨hparse, hversion⟩ := Message.open?_ok hopen
  have hhas {name : String} {v : Json} : Message.Has text name v ↔ ms.get? name = some v :=
    Message.has_of_object hparse
  split at h
  · rename_i method hmethod
    split at h
    · rename_i hid
      cases h
      refine ⟨hversion, hhas.2 hmethod, ?_, fun v => hhas⟩
      intro v
      rw [hhas, hid]
      simp
    · rename_i w hid
      split at h
      · rename_i id hw
        cases h
        refine ⟨hversion, hhas.2 hmethod, ?_, fun v => hhas⟩
        intro v
        rw [hhas, hid, Id.ofJson?_iff.1 hw]
        rfl
      · cases h
  · cases h

theorem decode_error (h : decode text = .error m) : m.Reports text (Broken text) := by
  rw [decode] at h
  cases hopen : Message.open? text with
  | error m' =>
    rw [hopen] at h
    cases h
    exact Message.open?_error (fun _ => Broken.late) hopen
  | ok ms =>
    rw [hopen] at h
    simp only [bind, Except.bind] at h
    have hhas {name : String} {v : Json} : Message.Has text name v ↔ ms.get? name = some v :=
      Message.has_of_object (Message.open?_ok hopen).1
    split at h
    · rename_i method hmethod
      split at h
      · cases h
      · rename_i v hv
        split at h
        · cases h
        · rename_i hid
          cases h
          have hother (id : Id) : v ≠ id.toJson := by
            rintro rfl
            cases hid.symm.trans id.ofJson?_toJson
          apply Message.reports_of_open hopen rfl rfl (.invalidId (hhas.2 hv) hother)
          intro g hg
          cases hg with
          | missingMethod other => exact absurd (hhas.2 hmethod) (other method)
          | invalidId _ _ => exact Nat.le_refl _
    · rename_i hmethod
      cases h
      have hother (method : String) : ¬ Message.Has text "method" (.string method) := fun hhas' =>
        hmethod method (hhas.1 hhas')
      apply Message.reports_of_open hopen rfl rfl (.missingMethod hother)
      intro g hg
      cases hg with
      | missingMethod _ => exact Nat.le_refl _
      | invalidId _ _ => exact Nat.le_succ 3

theorem StandsIn.unique {s : Request} (hr : r.StandsIn text) (hs : s.StandsIn text) : r = s := by
  obtain ⟨id, method, params⟩ := r
  obtain ⟨id', method', params'⟩ := s
  have hmethod : method = method' := Json.string.inj (hr.method.unique hs.method)
  have hid : id.map Id.toJson = id'.map Id.toJson :=
    Option.ext fun v => (hr.id v).symm.trans (hs.id v)
  have hid' : id = id' := (Option.map_inj_right fun _ _ => Id.toJson_injective).1 hid
  have hparams : params = params' := Option.ext fun v => (hr.params v).symm.trans (hs.params v)
  rw [hmethod, hid', hparams]

theorem StandsIn.unbroken (h : r.StandsIn text) (f : Fault) : ¬ Broken text f := by
  intro hf
  cases hf with
  | missingMethod other => exact other r.method h.method
  | invalidId given other =>
    obtain ⟨id, _, hid⟩ := Option.map_eq_some_iff.1 ((h.id _).1 given)
    exact other id hid.symm

/-- A text is read as the request that stands in it, and if there is none, the report on it is the
true one. -/
theorem decode_request_iff (text : String) :
    (∀ r, decode text = .ok r ↔ r.StandsIn text) ∧
      ∀ m, decode text = .error m ↔ m.Reports text (Broken text) :=
  Message.reads_iff (fun _ => decode_ok) (fun _ => decode_error) (fun _ _ => StandsIn.unique)
    (fun _ => Broken.late) (fun _ _ => Broken.same) (fun _ => StandsIn.version)
    fun _ f h => h.unbroken f

end Request

end HoverServer
