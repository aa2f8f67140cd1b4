import HoverServer.Proofs.Connection.Heard
import HoverServer.Proofs.Log.Lines
import HoverServer.Proofs.Message.OneLine
import HoverServer.Proofs.Session.Precedence

/-! What a connection logs, and what of it may break a line. Bodies and ids are logged in quotes,
and so is the method of a request wherever it is refused. The one exception is the line on a
request that has come in, which shows the method as it is. -/
namespace HoverServer
open Text (OneLine)

namespace Log

/-- Events that keep to their lines. -/
def Tidy (events : List Event) : Prop := ∀ e ∈ events, OneLine e.body

theorem tidy_nil : Tidy [] := List.forall_mem_nil _

theorem Tidy.filter {events : List Event} (h : Tidy events) (admits : Event → Bool) :
    Tidy (events.filter admits) :=
  fun e he => h e (List.mem_filter.1 he).1

end Log

/-- What a verdict says of a request without quotes. -/
def Verdict.Tidy (v : Verdict) (r : Request) : Prop :=
  match v with
  | .unaddressed => OneLine r.method
  | .drop e => OneLine e.message
  | .badParams e => OneLine e.message
  | _ => True

/-- Every request among the bodies is in the log, and only a method can break a line of it. -/
structure Log.Accounts (events : List Event) : Prop where
  broken : ∀ e ∈ events, ¬ OneLine e.body →
    ∃ text ∈ bodies events, ∃ r s, Request.decode text = .ok r ∧ e = Session.received s r
  heard : ∀ text ∈ bodies events, ∀ r, Request.decode text = .ok r →
    ∃ s, Session.received s r ∈ events

namespace Log

variable {u v : List Event}

theorem Accounts.of_tidy (h : Tidy u) (hquiet : Quiet u) : Accounts u where
  broken e he hbroken := absurd (h e he) hbroken
  heard text htext := by
    rw [hquiet.bodies_eq] at htext
    cases htext

theorem Accounts.nil : Accounts [] := .of_tidy tidy_nil (List.forall_mem_nil _)

theorem Accounts.append (hu : Accounts u) (hv : Accounts v) : Accounts (u ++ v) where
  broken e he hbroken := by
    rw [bodies_append]
    obtain he | he := List.mem_append.1 he
    · obtain ⟨text, htext, hrest⟩ := hu.broken e he hbroken
      exact ⟨text, List.mem_append_left _ htext, hrest⟩
    · obtain ⟨text, htext, hrest⟩ := hv.broken e he hbroken
      exact ⟨text, List.mem_append_right _ htext, hrest⟩
  heard text htext r hr := by
    rw [bodies_append] at htext
    obtain htext | htext := List.mem_append.1 htext
    · obtain ⟨s, hs⟩ := hu.heard text htext r hr
      exact ⟨s, List.mem_append_left _ hs⟩
    · obtain ⟨s, hs⟩ := hv.heard text htext r hr
      exact ⟨s, List.mem_append_right _ hs⟩

end Log

/-! ### Everything that is logged -/

namespace Exchange

end Exchange

namespace Connection

end Connection

namespace Dialogue

/-- An end that is told on one line, and that the system has no part in. -/
def EndsOnLine (d : Dialogue) : Prop :=
  ∀ e, d.ending = some (.error e) → OneLine e.message ∧ ∀ io, e ≠ .io io

variable {d : Dialogue} {p : Policies}

theorem EndsOnLine.andThen (h : d.EndsOnLine) {more : Session → Dialogue}
    (hmore : ∀ s, (more s).EndsOnLine) : (d.andThen more).EndsOnLine := by
  cases hending : d.ending with
  | some e => rwa [andThen_of_some hending]
  | none =>
    rw [andThen_of_none hending]
    exact hmore d.session

end Dialogue

end HoverServer
