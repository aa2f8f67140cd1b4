import HoverServer.Proofs.Session.Move

/-! A session over its whole life, whatever is said to it and in whatever order. The session keeps
no record of its past, but its phase and its client tell enough of it: what a session recalls is
kept by every step, and the order of a life follows from it. -/
namespace HoverServer

def Phase.rank : Phase → Nat
  | .uninitialized => 0
  | .initialized => 1
  | .shuttingDown => 2
  | .exited => 3

namespace Session

/-- What can be done to a session from outside. -/
inductive Call where
  | message (r : Request)
  | exit

/-- A call, what was said to it, and the session after it. -/
structure Step where
  call : Call
  reaction : Option Reaction
  after : Session

def step (policy : UnknownMethodPolicy) (s : Session) : Call → Step
  | .message r => ⟨.message r, some (s.handle policy r).reaction, (s.handle policy r).session⟩
  | .exit => ⟨.exit, none, s.exit⟩

def history (policy : UnknownMethodPolicy) (s : Session) : List Call → List Step
  | [] => []
  | c :: more => s.step policy c :: (s.step policy c).after.history policy more

/-- The session after some steps. -/
def reached (s : Session) : List Step → Session
  | [] => s
  | t :: more => t.after.reached more

namespace Step

/-- The request of a step that was answered with a result, if it has the given method. -/
def served (method : String) (t : Step) : Option Request :=
  match t.call, t.reaction with
  | .message r, some (.respond ⟨_, .result _⟩) => if r.method = method then some r else none
  | _, _ => none

def greets (t : Step) : Bool := (t.served "initialize").isSome

def shutsDown (t : Step) : Bool :=
  match t.reaction with
  | some (.shutdown _) => true
  | _ => false

/-- A shutdown that is accepted, a message to exit, or a call to exit. -/
def closes (t : Step) : Bool :=
  match t.call with
  | .exit => true
  | .message r => r.method = "exit" || t.shutsDown

end Step

namespace Step

theorem served_success (method : String) (r : Request) (id : Option Id) (v : Json)
    (next : Session) : served method ⟨.message r, some (.respond (.success id v)), next⟩ =
      if r.method = method then some r else none := rfl

theorem closes_respond {r : Request} (h : r.method ≠ "exit") (x : Response) (next : Session) :
    closes ⟨.message r, some (.respond x), next⟩ = false := by
  simp [closes, shutsDown, h]

theorem closes_silent {r : Request} (h : r.method ≠ "exit") (next : Session) :
    closes ⟨.message r, some .silent, next⟩ = false := by
  simp [closes, shutsDown, h]

end Step

/-- A life in order: phases are never left for earlier ones, the session is greeted and shut down
once at most, its client is the one that the greeting named, and hovers are served in between. -/
structure Orderly (life : List Step) : Prop where
  phases : (fresh.phase.rank :: life.map fun t => t.after.phase.rank).Pairwise (· ≤ ·)
  greeting : life.countP Step.greets ≤ 1
  client : ∀ past t more, life = past ++ t :: more →
    match (past ++ [t]).findSome? (Step.served "initialize") with
    | none => t.after.client = none
    | some r => Params.decode Params.introduction r.method r.params = .ok t.after.client
  hover : ∀ past t more, life = past ++ t :: more → (t.served "textDocument/hover").isSome →
    (∃ g ∈ past, g.greets) ∧ ∀ c ∈ past, ¬ c.closes
  shutdown : life.countP Step.shutsDown ≤ 1

/-! ### Phases -/

theorem phase_step (policy : UnknownMethodPolicy) (s : Session) (c : Call) :
    s.phase.rank ≤ (s.step policy c).after.phase.rank := by
  have hexit (p : Phase) : p.rank ≤ Phase.exited.rank := by cases p <;> decide
  cases c with
  | exit => exact hexit s.phase
  | message r =>
    have hmove := s.handle_move policy r
    rw [step]
    generalize (s.handle policy r).reaction = said, (s.handle policy r).session = next at hmove ⊢
    cases hmove with
    | leave _ => exact hexit s.phase
    | greet _ hphase _ _ => simp [hphase, Phase.rank]
    | hover _ _ _ _ => exact Nat.le_refl _
    | shutDown _ hopen => rcases hopen with h | h <;> simp [h, Phase.rank]
    | refuse _ _ => exact Nat.le_refl _
    | ignore _ => exact Nat.le_refl _

theorem phase_history (policy : UnknownMethodPolicy) (s : Session) (calls : List Call) :
    (s.phase.rank :: (s.history policy calls).map fun t => t.after.phase.rank).Pairwise
      (· ≤ ·) := by
  induction calls generalizing s with
  | nil => exact List.pairwise_singleton _ _
  | cons c more ih =>
    have hfirst := phase_step policy s c
    have hmore := ih (s.step policy c).after
    refine List.pairwise_cons.2 ⟨?_, hmore⟩
    intro n hn
    rcases List.mem_cons.1 hn with rfl | hn
    · exact hfirst
    · exact Nat.le_trans hfirst ((List.pairwise_cons.1 hmore).1 n hn)

/-! ### What a session recalls -/

/-- What the phase and the client of a session tell of its past. -/
structure Recalls (s : Session) (past : List Step) : Prop where
  client : match past.findSome? (Step.served "initialize") with
    | none => s.client = none
    | some r => Params.decode Params.introduction r.method r.params = .ok s.client
  ungreeted : s.phase = .uninitialized → ∀ t ∈ past, t.served "initialize" = none
  greeted : s.phase = .initialized → ∃ t ∈ past, t.greets
  unclosed : s.IsOpen → ∀ t ∈ past, ¬ t.closes
  greeting : past.countP Step.greets ≤ 1
  shutdown : past.countP Step.shutsDown ≤ 1

theorem fresh_recalls : fresh.Recalls [] where
  client := rfl
  ungreeted := fun _ _ h => nomatch h
  greeted := fun h => nomatch h
  unclosed := fun _ _ h => nomatch h
  greeting := Nat.zero_le 1
  shutdown := Nat.zero_le 1

theorem Step.closes_of_shutsDown {t : Step} (h : t.shutsDown) : t.closes := by
  rw [closes]
  split
  · rfl
  · simp [h]

theorem Recalls.countP_shutsDown {s : Session} {past : List Step} (h : s.Recalls past)
    (hs : s.IsOpen) : past.countP Step.shutsDown = 0 := by
  rw [List.countP_eq_zero]
  intro t ht hd
  exact h.unclosed hs t ht (Step.closes_of_shutsDown hd)

variable {s : Session} {past : List Step} {t : Step}

theorem Step.greets_of_served {r : Option Request} (h : t.served "initialize" = r) :
    t.greets = r.isSome := by
  rw [greets, h]

theorem Step.shutsDown_of_closes (h : t.closes = false) : t.shutsDown = false := by
  cases hd : t.shutsDown with
  | false => rfl
  | true => rw [closes_of_shutsDown hd] at h; cases h

/-- A step that neither greets nor closes leaves the session as it is. -/
theorem Recalls.stay (h : s.Recalls past) (hserved : t.served "initialize" = none)
    (hcloses : t.closes = false) (hafter : t.after = s) : t.after.Recalls (past ++ [t]) := by
  have hgreets := Step.greets_of_served hserved
  have hdown := Step.shutsDown_of_closes hcloses
  rw [hafter]
  constructor
  · rw [List.findSome?_append, List.findSome?_singleton, hserved, Option.or_none]
    exact h.client
  · intro hp
    exact List.forall_mem_append.2 ⟨h.ungreeted hp, List.forall_mem_singleton.2 hserved⟩
  · intro hp
    obtain ⟨g, hg, hgreet⟩ := h.greeted hp
    exact ⟨g, List.mem_append_left _ hg, hgreet⟩
  · intro hs
    exact List.forall_mem_append.2
      ⟨h.unclosed hs, List.forall_mem_singleton.2 (by simp [hcloses])⟩
  · simpa [hgreets] using h.greeting
  · simpa [hdown] using h.shutdown

/-- The greeting, which an untouched session gets from a client that can be decoded. -/
theorem Recalls.greet (h : s.Recalls past) (hphase : s.phase = .uninitialized) {r : Request}
    {client : Option ClientInfo} (hserved : t.served "initialize" = some r)
    (hparams : Params.decode Params.introduction r.method r.params = .ok client)
    (hcloses : t.closes = false) (hafter : t.after = ⟨.initialized, client⟩) :
    t.after.Recalls (past ++ [t]) := by
  have hgreets := Step.greets_of_served hserved
  have hdown := Step.shutsDown_of_closes hcloses
  have hnone := h.ungreeted hphase
  rw [hafter]
  constructor
  · rw [List.findSome?_append, List.findSome?_eq_none_iff.2 hnone, List.findSome?_singleton,
      hserved]
    exact hparams
  · intro hp
    cases hp
  · intro _
    exact ⟨t, by simp, hgreets⟩
  · intro _
    exact List.forall_mem_append.2
      ⟨h.unclosed (Or.inl hphase), List.forall_mem_singleton.2 (by simp [hcloses])⟩
  · have hcount : past.countP Step.greets = 0 := by
      rw [List.countP_eq_zero]
      intro g hg
      simp [Step.greets_of_served (hnone g hg)]
    simp [hcount, hgreets]
  · simpa [hdown] using h.shutdown

/-- A step that closes the session. Only an open session can be shut down. -/
theorem Recalls.close (h : s.Recalls past) (hserved : t.served "initialize" = none)
    (hdown : t.shutsDown → s.IsOpen) (hclient : t.after.client = s.client)
    (hafter : ¬ t.after.IsOpen) : t.after.Recalls (past ++ [t]) := by
  have hgreets := Step.greets_of_served hserved
  constructor
  · rw [List.findSome?_append, List.findSome?_singleton, hserved, Option.or_none, hclient]
    exact h.client
  · intro hp
    exact absurd (Or.inl hp) hafter
  · intro hp
    exact absurd (Or.inr hp) hafter
  · intro hs
    exact absurd hs hafter
  · simpa [hgreets] using h.greeting
  · rw [List.countP_append, List.countP_singleton]
    split
    · rename_i hd
      have hnone := h.countP_shutsDown (hdown hd)
      omega
    · exact h.shutdown

theorem exited_not_isOpen (client : Option ClientInfo) : ¬ (Session.mk .exited client).IsOpen := by
  simp [IsOpen]

theorem shuttingDown_not_isOpen (client : Option ClientInfo) :
    ¬ (Session.mk .shuttingDown client).IsOpen := by
  simp [IsOpen]

theorem Recalls.step (h : s.Recalls past) (policy : UnknownMethodPolicy) (c : Call) :
    (s.step policy c).after.Recalls (past ++ [s.step policy c]) := by
  cases c with
  | exit => exact h.close rfl (fun hd => nomatch hd) rfl (exited_not_isOpen s.client)
  | message r =>
    have hmove := s.handle_move policy r
    rw [Session.step]
    generalize (s.handle policy r).reaction = said, (s.handle policy r).session = next at hmove ⊢
    cases hmove with
    | leave _ => exact h.close rfl (fun hd => nomatch hd) rfl (exited_not_isOpen s.client)
    | greet hm hphase _ hparams =>
      have hserved := Step.served_success "initialize" r
      rw [if_pos hm] at hserved
      exact h.greet hphase (hserved ..) hparams (Step.closes_respond (by rw [hm]; decide) ..) rfl
    | hover hm _ _ _ =>
      have hserved := Step.served_success "initialize" r
      rw [if_neg (by rw [hm]; decide)] at hserved
      exact h.stay (hserved ..) (Step.closes_respond (by rw [hm]; decide) ..) rfl
    | shutDown _ hopen => exact h.close rfl (fun _ => hopen) rfl (shuttingDown_not_isOpen s.client)
    | refuse hm _ => exact h.stay rfl (Step.closes_respond hm ..) rfl
    | ignore hm => exact h.stay rfl (Step.closes_silent hm s) rfl

/-! ### Whole lives -/

/-- What every step keeps of a session and its past holds at every point of a life. -/
theorem kept_history {policy : UnknownMethodPolicy} {Kept : Session → List Step → Prop}
    (hstep : ∀ s past c, Kept s past → Kept (s.step policy c).after (past ++ [s.step policy c]))
    {calls : List Call} (h : Kept s past) {u v : List Step}
    (hlife : s.history policy calls = u ++ v) : Kept (s.reached u) (past ++ u) := by
  induction calls generalizing s past u with
  | nil =>
    obtain ⟨rfl, rfl⟩ := List.append_eq_nil_iff.1 hlife.symm
    rwa [List.append_nil]
  | cons c more ih =>
    cases u with
    | nil => rwa [List.append_nil]
    | cons t u =>
      rw [Session.history, List.cons_append, List.cons.injEq] at hlife
      obtain ⟨rfl, hrest⟩ := hlife
      have hmore := ih (hstep s past c h) hrest
      rwa [List.append_assoc] at hmore

theorem Recalls.history (h : s.Recalls past) {policy : UnknownMethodPolicy} {calls : List Call}
    {u v : List Step} (hlife : s.history policy calls = u ++ v) :
    (s.reached u).Recalls (past ++ u) :=
  kept_history (fun _ _ c h => h.step policy c) h hlife

/-- As long as nothing changes the session, each call is heard as if it came first. -/
theorem history_of_stay {policy : UnknownMethodPolicy} {calls : List Call}
    (h : ∀ c ∈ calls, (s.step policy c).after = s) (more : List Call) :
    s.history policy (calls ++ more) = calls.map (s.step policy) ++ s.history policy more := by
  induction calls with
  | nil => rfl
  | cons c calls ih =>
    obtain ⟨hc, hcalls⟩ := List.forall_mem_cons.1 h
    rw [List.cons_append, history, hc, ih hcalls]
    rfl

theorem reached_concat (s : Session) (u : List Step) (t : Step) :
    s.reached (u ++ [t]) = t.after := by
  induction u generalizing s with
  | nil => rfl
  | cons first u ih => exact ih first.after

/-- Each step of a life is taken by the session that the steps before it have led to. -/
theorem step_of_history {policy : UnknownMethodPolicy} {calls : List Call} {u v : List Step}
    (hlife : s.history policy calls = u ++ t :: v) : ∃ c, t = (s.reached u).step policy c := by
  induction calls generalizing s u with
  | nil => simp [history] at hlife
  | cons c more ih =>
    cases u with
    | nil =>
      rw [history, List.nil_append, List.cons.injEq] at hlife
      exact ⟨c, hlife.1.symm⟩
    | cons first u =>
      rw [history, List.cons_append, List.cons.injEq] at hlife
      obtain ⟨rfl, hrest⟩ := hlife
      exact ih (s := (s.step policy c).after) hrest

/-- Hovers are for sessions that have been greeted. -/
theorem phase_of_hover {policy : UnknownMethodPolicy} {c : Call}
    (h : ((s.step policy c).served "textDocument/hover").isSome) : s.phase = .initialized := by
  cases c with
  | exit => cases h
  | message r =>
    have hmove := s.handle_move policy r
    rw [step] at h
    generalize (s.handle policy r).reaction = said, (s.handle policy r).session = next at hmove h
    cases hmove with
    | greet hm _ _ _ => simp [Step.served, hm] at h
    | hover _ hphase _ _ => exact hphase
    | _ => cases h

/-- Every life of a session is in order, whatever calls it is made of. -/
theorem history_orderly (policy : UnknownMethodPolicy) (calls : List Call) :
    Orderly (fresh.history policy calls) := by
  have hrecalls {u v : List Step} (h : fresh.history policy calls = u ++ v) :
      (fresh.reached u).Recalls u := fresh_recalls.history h
  have hall := hrecalls (List.append_nil _).symm
  refine ⟨phase_history policy fresh calls, hall.greeting, ?_, ?_, hall.shutdown⟩
  · intro past t more hlife
    have hpast : fresh.history policy calls = (past ++ [t]) ++ more := by simpa using hlife
    have hclient := (hrecalls hpast).client
    rwa [reached_concat] at hclient
  · intro past t more hlife hhover
    obtain ⟨c, rfl⟩ := step_of_history hlife
    have hphase := phase_of_hover hhover
    have hr := hrecalls hlife
    exact ⟨hr.greeted hphase, hr.unclosed (Or.inr hphase)⟩

/-- A life with a greeting, a second one that is refused, and a notification to shut down. -/
example :
    let greeting := Call.message ⟨some (.string "a"), "initialize", none⟩
    (fresh.history .ignore [greeting, greeting, .message ⟨none, "shutdown", none⟩, .exit]).map
        (fun t => (t.greets, t.shutsDown, t.closes)) =
      [(true, false, false), (false, false, false), (false, true, true), (false, false, true)] := by
  decide

end Session
end HoverServer
