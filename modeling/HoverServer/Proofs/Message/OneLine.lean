import HoverServer.Message.Params
import HoverServer.Message.Request
import HoverServer.Proofs.Json.Record
import HoverServer.Proofs.Text.OneLine

/-! Messages about what is wrong with a message. What they show of it is quoted or a number, and
the rest are texts of the server's own, so that they never break a line. -/
namespace HoverServer
open Text (OneLine)

namespace Json

/-- What goes wrong, if anything does. -/
def Fails {ε α : Type} (P : ε → Prop) (x : Except ε α) : Prop := ∀ e, x = .error e → P e

variable {ε α β : Type} {P : ε → Prop}

theorem fails_ok (a : α) : Fails P (.ok a) := nofun

theorem fails_error {e : ε} (h : P e) : Fails P (.error e : Except ε α) := by
  rintro _ ⟨⟩
  exact h

theorem Fails.bind {x : Except ε α} {f : α → Except ε β} (hx : Fails P x)
    (hf : ∀ a, Fails P (f a)) : Fails P (x >>= f) := by
  cases x with
  | error e => exact fails_error (hx e rfl)
  | ok a => exact hf a

/-- A mismatch that is told on one line. -/
def Mismatch.OneLine (e : Mismatch) : Prop := Text.OneLine e.message

def Decoder.OneLine (d : Decoder α) : Prop := ∀ v, Fails Mismatch.OneLine (d v)

structure Field.OneLine (f : Field α) : Prop where
  name : Text.OneLine f.name
  decode : f.decode.OneLine

theorem Decoder.OneLine.optional {d : Decoder α} (h : d.OneLine) : d.optional.OneLine := by
  intro v e he
  rw [Decoder.optional.eq_def] at he
  split at he
  · cases he
  · cases hd : d v with
    | ok a =>
      rw [hd] at he
      cases he
    | error e' =>
      rw [hd] at he
      cases he
      exact h v _ hd

theorem elementCount_oneLine (n : Nat) : Text.OneLine (elementCount n) := by
  rw [elementCount]
  split <;> simp +decide

theorem Field.OneLine.get {f : Field α} (hf : f.OneLine) {shape : Shape}
    (hshape : Text.OneLine shape.name) (place : Nat) (source : Source) :
    Fails Mismatch.OneLine (f.get shape place source) := by
  cases source with
  | named ms =>
    rw [Field.get]
    split
    · exact hf.decode _
    · exact fails_ok _
    · refine fails_error ?_
      show Text.OneLine ("missing field `" ++ f.name ++ "`")
      simp +decide only [Text.oneLine_append, hf.name, and_self]
  | listed items =>
    rw [Field.get]
    split
    · exact hf.decode _
    · exact fails_ok _
    · refine fails_error ?_
      show Text.OneLine ("invalid length " ++ place.repr ++ ", expected struct " ++ shape.name ++
        " with " ++ elementCount shape.checks.length)
      simp +decide only [Text.oneLine_append, Text.oneLine_repr, hshape, elementCount_oneLine,
        and_self]

theorem Field.OneLine.check {f : Field α} (hf : f.OneLine) (name : String) (v : Json)
    (e : Mismatch) (h : f.check name v = some e) : e.OneLine := by
  rw [Field.check] at h
  split at h
  · split at h
    · cases h
    · rename_i he
      cases h
      exact hf.decode v e he
  · cases h

end Json

/-! ### Params -/

namespace Params
open Json

end Params

/-! ### Bodies -/

/-- A body that is told to be faulty on one line. -/
def Malformed.OneLine (m : Malformed) : Prop := Text.OneLine m.fault.message

end HoverServer
