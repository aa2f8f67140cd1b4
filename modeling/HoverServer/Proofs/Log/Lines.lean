import HoverServer.Log.Line
import HoverServer.Proofs.Text.OneLine

/-! Logs in the plain format. A log should have one line for each event that is logged, and each
line should begin with the time and the level of its own event. That is so as long as no event has
a line break in it, and not otherwise, as there are more lines then than events. -/
namespace HoverServer.Log
open Text (OneLine)

/-- What stands in front of an event. -/
def Event.front (stamp : String) (e : Event) : String :=
  "[" ++ stamp ++ "] [" ++ e.level.name ++ "] "

/-- One line for each of some events, in their order. -/
inductive LineEach (stamps : Nat → String) : Nat → List Event → List Char → Prop
  | done (n : Nat) : LineEach stamps n [] []
  | line {n : Nat} {e : Event} {events : List Event} {rest text : List Char}
      (unbroken : '\n' ∉ rest) (more : LineEach stamps (n + 1) events text) :
      LineEach stamps n (e :: events) ((e.front (stamps n)).toList ++ rest ++ '\n' :: text)

variable {stamps : Nat → String} {n : Nat} {events : List Event} {e : Event}

theorem front_oneLine (e : Event) {stamp : String} (h : OneLine stamp) :
    OneLine (e.front stamp) := by
  have hlevel : OneLine e.level.name := by cases e.level <;> decide
  rw [Event.front]
  simp +decide only [Text.oneLine_append, h, hlevel, and_self]

theorem count_newline_front (e : Event) {stamp : String} (h : OneLine stamp) :
    (e.front stamp).toList.count '\n' = 0 :=
  List.count_eq_zero.2 (front_oneLine e h)

/-- There are as many lines as events. -/
theorem LineEach.count (hstamps : ∀ n, OneLine (stamps n)) {text : List Char}
    (h : LineEach stamps n events text) : text.count '\n' = events.length := by
  induction h with
  | done => rfl
  | @line n e events rest text unbroken _ ih =>
    rw [List.count_append, List.count_append, count_newline_front e (hstamps n),
      List.count_eq_zero.2 unbroken, List.count_cons_self, ih, List.length_cons]
    omega

end HoverServer.Log
