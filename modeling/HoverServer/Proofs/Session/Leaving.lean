import HoverServer.Proofs.Session.History

/-! How a session is left. A message to exit is told whether the session was shut down first; the
session looks only at its phase for that, but no phase can be reached in two ways that differ in
it. -/
namespace HoverServer.Session

/-- A message or a call to exit. -/
def Step.leaves (t : Step) : Bool :=
  match t.call with
  | .exit => true
  | .message r => r.method = "exit"

/-- What a step has to do with the end of a session. -/
inductive Course (s : Session) (t : Step) : Prop where
  | leave (leaves : t.leaves = true) (phase : t.after.phase = .exited) : Course s t
  | shutDown (leaves : t.leaves = false) (down : t.shutsDown = true) (unclosed : s.IsOpen)
      (phase : t.after.phase = .shuttingDown) : Course s t
  | stay (leaves : t.leaves = false) (down : t.shutsDown = false)
      (exited : t.after.phase = .exited ↔ s.phase = .exited)
      (closing : t.after.phase = .shuttingDown ↔ s.phase = .shuttingDown) : Course s t

theorem step_course (policy : UnknownMethodPolicy) (s : Session) (c : Call) :
    s.Course (s.step policy c) := by
  cases c with
  | exit => exact .leave rfl rfl
  | message r =>
    have hmove := s.handle_move policy r
    have hleaves (said : Option Reaction) (next : Session) (h : r.method ≠ "exit") :
        Step.leaves ⟨.message r, said, next⟩ = false := decide_eq_false h
    rw [step]
    generalize (s.handle policy r).reaction = said, (s.handle policy r).session = next at hmove ⊢
    cases hmove with
    | leave method => exact .leave (decide_eq_true method) rfl
    | greet method phase _ _ =>
      exact .stay (hleaves _ _ (by rw [method]; decide)) rfl (by simp [phase]) (by simp [phase])
    | hover method _ _ _ => exact .stay (hleaves _ _ (by rw [method]; decide)) rfl Iff.rfl Iff.rfl
    | shutDown method unclosed =>
      exact .shutDown (hleaves _ _ (by rw [method]; decide)) rfl unclosed rfl
    | refuse method _ => exact .stay (hleaves _ _ method) rfl Iff.rfl Iff.rfl
    | ignore method => exact .stay (hleaves _ _ method) rfl Iff.rfl Iff.rfl

/-- Some step has shut the session down, and none has left it. -/
def ShutDownOnly (past : List Step) : Prop :=
  (∃ t ∈ past, t.shutsDown) ∧ ∀ t ∈ past, ¬ t.leaves

instance (past : List Step) : Decidable (ShutDownOnly past) :=
  inferInstanceAs (Decidable (_ ∧ _))

/-- What the later phases tell of the past. -/
structure Tells (s : Session) (past : List Step) : Prop where
  exited : s.phase = .exited ↔ ∃ t ∈ past, t.leaves
  closing : s.phase = .shuttingDown ↔ ShutDownOnly past

theorem fresh_tells : fresh.Tells [] where
  exited := by simp [fresh]
  closing := by simp [fresh, ShutDownOnly]

variable {s : Session} {past : List Step} {t : Step}

theorem exists_mem_concat (p : Step → Prop) :
    (∃ u ∈ past ++ [t], p u) ↔ (∃ u ∈ past, p u) ∨ p t := by
  simp only [List.mem_append, List.mem_singleton, or_and_right, exists_or, exists_eq_left]

theorem shutDownOnly_concat :
    ShutDownOnly (past ++ [t]) ↔
      ((∃ u ∈ past, u.shutsDown) ∨ t.shutsDown) ∧ (∀ u ∈ past, ¬ u.leaves) ∧ ¬ t.leaves := by
  rw [ShutDownOnly, exists_mem_concat, List.forall_mem_append, List.forall_mem_singleton]

theorem Tells.course (h : s.Tells past) (ht : s.Course t) : t.after.Tells (past ++ [t]) := by
  cases ht with
  | leave leaves phase =>
    constructor
    · simp only [exists_mem_concat, phase, leaves, or_true]
    · simp [shutDownOnly_concat, phase, leaves]
  | shutDown leaves down unclosed phase =>
    have hnone : ¬ ∃ u ∈ past, u.leaves := mt h.exited.2 unclosed.ne_exited
    constructor
    · simp only [exists_mem_concat, hnone, phase, leaves]
      decide
    · rw [shutDownOnly_concat, phase, leaves, down]
      simpa using hnone
  | stay leaves down exited closing =>
    constructor
    · rw [exists_mem_concat, exited, h.exited, leaves]
      simp
    · rw [shutDownOnly_concat, closing, h.closing, ShutDownOnly, leaves, down]
      simp

/-- Whenever a session hears a message to exit, it calls the end graceful if some message has shut
it down before and none has left it, and by no means otherwise. -/
theorem exit_graceful_iff {policy : UnknownMethodPolicy} {calls : List Call} {more : List Step}
    (hlife : fresh.history policy calls = past ++ t :: more) {r : Request}
    (hcall : t.call = .message r) (hmethod : r.method = "exit") :
    (t.reaction = some (.exit true) ↔ ShutDownOnly past) ∧
      (t.reaction = some (.exit false) ↔ ¬ ShutDownOnly past) := by
  have htells : (fresh.reached past).Tells past :=
    kept_history (fun s _ c h => h.course (step_course policy s c)) fresh_tells hlife
  obtain ⟨c, rfl⟩ := step_of_history hlife
  cases c with
  | exit => cases hcall
  | message q =>
    cases hcall
    have hrule : (fresh.reached past).Rule policy r _ _ := .exit hmethod
    rw [step, ← htells.closing, hrule.kept.1]
    simp

/-- A shutdown that is a notification, another one that comes too late, and two messages to exit. -/
def goodbyes : List Call :=
  [.message ⟨none, "shutdown", none⟩, .message ⟨some (.string "a"), "shutdown", none⟩,
    .message ⟨none, "exit", none⟩, .message ⟨some (.string "b"), "exit", some .null⟩]

theorem exit_graceful_goodbyes :
    ∃ past t u, fresh.history .ignore goodbyes = past ++ [t, u] ∧
      t.reaction = some (.exit true) ∧ u.reaction = some (.exit false) := by
  have hfirst : fresh.history .ignore goodbyes =
      (fresh.history .ignore goodbyes).take 2 ++ _ :: _ := rfl
  have hsecond : fresh.history .ignore goodbyes =
      (fresh.history .ignore goodbyes).take 3 ++ _ :: [] := rfl
  exact ⟨_, _, _, hfirst, (exit_graceful_iff hfirst rfl rfl).1.2 (by decide),
    (exit_graceful_iff hsecond rfl rfl).2.2 (by decide)⟩

end HoverServer.Session
