import HoverServer.Proofs.CommandLine.Options

/-! One more option on a command line, or one more variable. Where nothing has decided a setting
before, an option or a variable for it changes that setting and no other. The reading of the other
words goes on beside the reading without it, and the two differ in one decision only. -/
namespace HoverServer

/-- Choices that agree but for one setting, which only the second ones have decided. -/
structure Choices.Ahead (s : Setting) (v : Bytes) (c d : Choices) : Prop where
  decided : d.decided s = true
  obeys : d.settings.Obeys s v
  others : ∀ r ≠ s, d.decided r = c.decided r ∧ d.settings.Agrees c.settings r

namespace Choices

variable {c d c' d' : Choices} {s t : Setting} {v w : Bytes}

theorem decide_decided (h : c.decide t w = .ok c') : c'.decided t = true := by
  obtain ⟨e, he, hdecided, _⟩ := decide_accepted (decide_ok h).1 c
  cases h.symm.trans he
  exact hdecided

/-- What has been decided stays so. -/
theorem decide_open (h : c.decide t w = .ok c') (hopen : c'.decided s = false) :
    s ≠ t ∧ c.decided s = false := by
  have hst : s ≠ t := by
    rintro rfl
    rw [decide_decided h] at hopen
    cases hopen
  exact ⟨hst, ((decide_ok h).2 s hst).1.symm.trans hopen⟩

theorem ahead_of_decide (h : c.decide s v = .ok d) : Ahead s v c d := by
  obtain ⟨haccepts, hothers⟩ := decide_ok h
  obtain ⟨e, he, hdecided, hobeys⟩ := decide_accepted haccepts c
  cases h.symm.trans he
  exact ⟨hdecided, hobeys, hothers⟩

theorem Ahead.decide (h : Ahead s v c d) (hc : c.decide t w = .ok c')
    (hopen : c'.decided s = false) : ∃ d', d.decide t w = .ok d' ∧ Ahead s v c' d' := by
  obtain ⟨hst, _⟩ := decide_open hc hopen
  have hbehind := ahead_of_decide hc
  obtain ⟨d', hd', _⟩ := decide_accepted (decide_ok hc).1 d
  have hahead := ahead_of_decide hd'
  obtain ⟨hdecided, hagrees⟩ := hahead.others s hst
  refine ⟨d', hd', hdecided.trans h.decided, hagrees.obeys h.obeys, fun r hr => ?_⟩
  by_cases hrt : r = t
  · subst hrt
    exact ⟨hahead.decided.trans hbehind.decided.symm, hahead.obeys.agrees hbehind.obeys⟩
  · obtain ⟨hr₁, ha₁⟩ := hahead.others r hrt
    obtain ⟨hr₂, ha₂⟩ := hbehind.others r hrt
    obtain ⟨hr₃, ha₃⟩ := h.others r hr
    exact ⟨(hr₁.trans hr₃).trans hr₂.symm, .trans (.trans ha₁ ha₃) (.symm ha₂)⟩

/-- Nothing but the one setting differs. -/
theorem Ahead.settings_logFile {path : String} (h : Ahead .logFile (Bytes.ofString path) c d) :
    d.settings = { c.settings with logFile := some path } := by
  apply Settings.eq_of_agrees
  intro r
  by_cases hr : r = .logFile
  · subst hr
    exact h.obeys.agrees ⟨path, rfl, rfl⟩
  · have hagrees := (h.others r hr).2
    cases r <;> first | exact absurd rfl hr | exact hagrees

theorem completeFrom_open {env : Environment} {settings : List Setting}
    (h : c.completeFrom env settings = .ok c') (hopen : c'.decided s = false) :
    c.decided s = false := by
  induction settings generalizing c with
  | nil =>
    cases h
    exact hopen
  | cons t r ih =>
    rw [completeFrom] at h
    split at h
    · split at h
      · rename_i hdecide
        exact (decide_open hdecide (ih h)).2
      · cases h
    · exact ih h

/-- A setting that is open in the end has no variable. -/
theorem completeFrom_of_cons {env : Environment} {settings : List Setting}
    (h : c.completeFrom env (s :: settings) = .ok c') (hopen : c'.decided s = false) :
    c.completeFrom env settings = .ok c' := by
  rw [completeFrom] at h
  split at h
  · split at h
    · rename_i hdecide
      exact absurd rfl (decide_open hdecide (completeFrom_open h hopen)).1
    · cases h
  · exact h

/-- The same environment decides the same of the other settings. -/
theorem Ahead.completeFrom {env env' : Environment} {settings : List Setting}
    (h : Ahead s v c d) (henv : ∀ r ≠ s, env' r = env r)
    (hc : c.completeFrom env settings = .ok c') (hopen : c'.decided s = false) :
    ∃ d', d.completeFrom env' settings = .ok d' ∧ Ahead s v c' d' := by
  induction settings generalizing c d with
  | nil =>
    cases hc
    exact ⟨d, rfl, h⟩
  | cons t r ih =>
    by_cases hts : t = s
    · subst hts
      rw [Choices.completeFrom, h.decided]
      exact ih h (completeFrom_of_cons hc hopen)
    · rw [Choices.completeFrom] at hc ⊢
      rw [(h.others t hts).1, henv t hts]
      cases hdecided : c.decided t with
      | true =>
        rw [hdecided] at hc
        exact ih h hc
      | false =>
        cases hvalue : env t with
        | none =>
          rw [hdecided, hvalue] at hc
          exact ih h hc
        | some v =>
          rw [hdecided, hvalue] at hc
          simp only at hc ⊢
          split at hc
          · rename_i hdecide
            obtain ⟨d', hd', hahead⟩ := h.decide hdecide (completeFrom_open hc hopen)
            rw [hd']
            exact ih hahead hc
          · cases hc

/-- A variable for a setting that is still open decides it. -/
theorem completeFrom_update {env : Environment} {settings : List Setting} (hs : s ∈ settings)
    (haccepts : s.Accepts v) (hc : c.completeFrom env settings = .ok c')
    (hopen : c'.decided s = false) :
    ∃ d', c.completeFrom (Function.update env s (some v)) settings = .ok d' ∧ Ahead s v c' d' := by
  induction settings generalizing c with
  | nil => cases hs
  | cons t r ih =>
    by_cases hts : t = s
    · subst hts
      obtain ⟨d, hd, _⟩ := decide_accepted haccepts c
      rw [Choices.completeFrom, completeFrom_open hc hopen, Function.update_self]
      simp only [hd]
      exact (ahead_of_decide hd).completeFrom (fun r hr => Function.update_of_ne hr _ _)
        (completeFrom_of_cons hc hopen) hopen
    · rw [Choices.completeFrom] at hc ⊢
      have hr := (List.mem_cons.1 hs).resolve_left (Ne.symm hts)
      rw [Function.update_of_ne hts]
      split at hc
      · split at hc
        · exact ih hr hc
        · cases hc
      · exact ih hr hc

end Choices

namespace CommandLine
namespace Reading

variable {r q r' z : Reading} {s t : Setting} {v w : Bytes}

theorem halt_ne_ok (r : Reading) (h : Halt) (q : Reading) :
    (r.settle >>= fun _ => (.error h : Except Halt Reading)) ≠ .ok q := by
  intro he
  obtain ⟨_, _, he⟩ := Json.bind_ok_iff.1 he
  cases he

theorem long_cases (name : Bytes) :
    (∃ s v, ∀ r, long r name = r.settle >>= fun r => r.give s v) ∨
      (∃ s, ∀ r, long r name = r.settle >>= fun r => .ok { r with pending := some (s, none) }) ∨
      ∀ r q, long r name ≠ .ok q := by
  unfold long
  obtain ⟨name, value⟩ := splitValue name
  simp only
  generalize (Text.decode? name).bind Flag.ofName? = flag
  match flag, value with
  | some (.setting s), some v => exact Or.inl ⟨s, v, fun _ => rfl⟩
  | some (.setting s), none => exact Or.inr (Or.inl ⟨s, fun _ => rfl⟩)
  | some .help, none => exact Or.inr (Or.inr fun r => halt_ne_ok r _)
  | some .version, none => exact Or.inr (Or.inr fun r => halt_ne_ok r _)
  | some .help, some v => exact Or.inr (Or.inr fun _ _ => nofun)
  | some .version, some v => exact Or.inr (Or.inr fun _ _ => nofun)
  | none, _ => exact Or.inr (Or.inr fun _ _ => nofun)

theorem short_ne_ok (r : Reading) (group : Bytes) (q : Reading) : short r group ≠ .ok q := by
  rw [short]
  split
  · exact nofun
  · exact halt_ne_ok r _ q
  · exact halt_ne_ok r _ q
  · exact nofun

/-- A word gives an option with its value or without one, or it is a value itself, or nothing is
read any more. -/
theorem step_cases (w : Bytes) :
    (∃ s v, ∀ r : Reading, r.step w = r.settle >>= fun r => r.give s v) ∨
      (∃ s, ∀ r : Reading,
        r.step w = r.settle >>= fun r => .ok { r with pending := some (s, none) }) ∨
      (∀ r : Reading, r.step w = word r w) ∨
      ∀ r q : Reading, r.step w ≠ .ok q := by
  unfold step
  split
  · obtain h | h | h := long_cases _
    · exact Or.inl h
    · exact Or.inr (Or.inl h)
    · exact Or.inr (Or.inr (Or.inr h))
  · exact Or.inr (Or.inr (Or.inr fun r q => short_ne_ok r _ q))
  · exact Or.inr (Or.inr (Or.inl fun _ => rfl))

/-! ### What is open stays open -/

theorem give_ok (h : r.give t w = .ok q) : r.choices.decided t = false ∧
    ∃ c, r.choices.decide t w = .ok c ∧ q = ⟨r.given ++ [t], c, r.pending⟩ := by
  rw [give] at h
  split at h
  · cases h
  · rename_i hdecided
    split at h
    · rename_i hdecide
      cases h
      exact ⟨by simpa using hdecided, _, hdecide, rfl⟩
    · cases h

theorem give_open (h : r.give t w = .ok q) (hopen : q.choices.decided s = false) :
    r.choices.decided s = false := by
  obtain ⟨_, c, hdecide, rfl⟩ := give_ok h
  exact (Choices.decide_open hdecide hopen).2

theorem settle_open (h : r.settle = .ok q) (hopen : q.choices.decided s = false) :
    r.choices.decided s = false := by
  rw [settle] at h
  split at h
  · cases h
    exact hopen
  · cases h
  · exact give_open (r := { r with pending := none }) h hopen

theorem word_ok (h : word r w = .ok q) :
    ∃ s, r.pending = some (s, none) ∧ q = { r with pending := some (s, some w) } := by
  rw [word] at h
  split at h
  · rename_i s hpending
    cases h
    exact ⟨s, hpending, rfl⟩
  · cases h

theorem step_open (h : r.step w = .ok q) (hopen : q.choices.decided s = false) :
    r.choices.decided s = false := by
  obtain ⟨t, v, hstep⟩ | ⟨t, hstep⟩ | hstep | hstep := step_cases w
  · obtain ⟨p, hsettle, hgive⟩ := Json.bind_ok_iff.1 (hstep r ▸ h)
    exact settle_open hsettle (give_open hgive hopen)
  · obtain ⟨p, hsettle, hp⟩ := Json.bind_ok_iff.1 (hstep r ▸ h)
    cases hp
    exact settle_open hsettle hopen
  · obtain ⟨t, _, rfl⟩ := word_ok (hstep r ▸ h)
    exact hopen
  · exact absurd h (hstep r q)

theorem readFrom_dashes {more : List Bytes} (h : r.readFrom ([45, 45] :: more) = .ok z) :
    more = [] ∧ r.settle = .ok z := by
  rw [readFrom.eq_def] at h
  cases more with
  | nil => exact ⟨rfl, h⟩
  | cons first _ => cases h

theorem readFrom_open {words : List Bytes} (h : r.readFrom words = .ok z)
    (hopen : z.choices.decided s = false) : r.choices.decided s = false := by
  induction words generalizing r with
  | nil => exact settle_open h hopen
  | cons w more ih =>
    by_cases hw : w = [45, 45]
    · subst hw
      exact settle_open (readFrom_dashes h).2 hopen
    · rw [readFrom_cons r hw] at h
      obtain ⟨q, hstep, hrest⟩ := Json.bind_ok_iff.1 h
      exact step_open hstep (ih hrest)

/-! ### Two readings side by side -/

/-- Readings of the same words, of which the second one has decided one more setting. -/
structure Ahead (s : Setting) (v : Bytes) (r r' : Reading) : Prop where
  pending : r'.pending = r.pending
  choices : r.choices.Ahead s v r'.choices

theorem Ahead.give (h : Ahead s v r r') (hr : r.give t w = .ok q)
    (hopen : q.choices.decided s = false) : ∃ q', r'.give t w = .ok q' ∧ Ahead s v q q' := by
  obtain ⟨hdecided, c, hdecide, rfl⟩ := give_ok hr
  obtain ⟨d, hd, hahead⟩ := h.choices.decide hdecide hopen
  have hts := (Choices.decide_open hdecide hopen).1
  refine ⟨⟨r'.given ++ [t], d, r'.pending⟩, ?_, h.pending, hahead⟩
  rw [Reading.give, (h.choices.others t hts.symm).1, hdecided, if_neg Bool.false_ne_true, hd]

theorem Ahead.settle (h : Ahead s v r r') (hr : r.settle = .ok q)
    (hopen : q.choices.decided s = false) : ∃ q', r'.settle = .ok q' ∧ Ahead s v q q' := by
  rw [Reading.settle, h.pending]
  rw [Reading.settle] at hr
  split at hr
  · cases hr
    exact ⟨r', rfl, h⟩
  · cases hr
  · exact Ahead.give (r := { r with pending := none }) ⟨rfl, h.choices⟩ hr hopen

theorem Ahead.step (h : Ahead s v r r') (hr : r.step w = .ok q)
    (hopen : q.choices.decided s = false) : ∃ q', r'.step w = .ok q' ∧ Ahead s v q q' := by
  obtain ⟨t, u, hstep⟩ | ⟨t, hstep⟩ | hstep | hstep := step_cases w
  · obtain ⟨p, hsettle, hgive⟩ := Json.bind_ok_iff.1 (hstep r ▸ hr)
    obtain ⟨p', hp', hahead⟩ := h.settle hsettle (give_open hgive hopen)
    rw [hstep r', hp']
    exact hahead.give hgive hopen
  · obtain ⟨p, hsettle, hp⟩ := Json.bind_ok_iff.1 (hstep r ▸ hr)
    cases hp
    obtain ⟨p', hp', hahead⟩ := h.settle hsettle hopen
    rw [hstep r', hp']
    exact ⟨_, rfl, rfl, hahead.choices⟩
  · obtain ⟨t, hpending, rfl⟩ := word_ok (hstep r ▸ hr)
    rw [hstep r', word, h.pending, hpending]
    exact ⟨_, rfl, rfl, h.choices⟩
  · exact absurd hr (hstep r q)

theorem Ahead.readFrom (h : Ahead s v r r') {words : List Bytes} (hr : r.readFrom words = .ok z)
    (hopen : z.choices.decided s = false) :
    ∃ z', r'.readFrom words = .ok z' ∧ Ahead s v z z' := by
  induction words generalizing r r' with
  | nil => exact h.settle hr hopen
  | cons w more ih =>
    by_cases hw : w = [45, 45]
    · subst hw
      obtain ⟨rfl, hr⟩ := readFrom_dashes hr
      exact h.settle hr hopen
    · rw [readFrom_cons r hw] at hr
      obtain ⟨q, hstep, hrest⟩ := Json.bind_ok_iff.1 hr
      obtain ⟨q', hq', hahead⟩ := h.step hstep (readFrom_open hrest hopen)
      rw [readFrom_cons r' hw, hq']
      exact ih hahead hrest

/-! ### One more option -/

theorem word_stray (h : r.settle = .ok q) (w : Bytes) : word r w = .error (stray w) := by
  rw [settle] at h
  rw [word]
  split
  · rename_i hpending
    rw [hpending] at h
    cases h
  · rfl

/-- What is pending with its value may as well be taken at once. -/
theorem readFrom_settle (h : r.settle = .ok q) (words : List Bytes) :
    r.readFrom words = .ok z ↔ q.readFrom words = .ok z := by
  have hq := settle_of_settled (settle_pending h)
  cases words with
  | nil => rw [readFrom, readFrom, h, hq]
  | cons w more =>
    by_cases hw : w = [45, 45]
    · subst hw
      rw [readFrom.eq_def, readFrom.eq_def]
      cases more with
      | nil => simp only [h, hq]
      | cons first _ => rfl
    · rw [readFrom_cons r hw, readFrom_cons q hw]
      obtain ⟨t, u, hstep⟩ | ⟨t, hstep⟩ | hstep | hstep := step_cases w
      · rw [hstep, hstep, h, hq]
      · rw [hstep, hstep, h, hq]
      · rw [hstep, hstep, word_stray h, word_stray hq]
      · have hnever : ∀ p : Reading, (p.step w >>= fun p => p.readFrom more) ≠ .ok z := by
          intro p hp
          obtain ⟨_, hp, _⟩ := Json.bind_ok_iff.1 hp
          exact hstep _ _ hp
        exact iff_of_false (hnever r) (hnever q)

/-- Words that can stand alone leave nothing that waits for a value. -/
theorem readFrom_append {front : List Bytes} (hfront : [45, 45] ∉ front)
    (h : r.readFrom front = .ok q) :
    ∃ p : Reading, p.settle = .ok q ∧ ∀ rest, r.readFrom (front ++ rest) = p.readFrom rest := by
  induction front generalizing r with
  | nil => exact ⟨r, h, fun _ => rfl⟩
  | cons w more ih =>
    rw [List.mem_cons, not_or] at hfront
    rw [readFrom_cons r (Ne.symm hfront.1)] at h
    obtain ⟨r', hstep, hrest⟩ := Json.bind_ok_iff.1 h
    obtain ⟨p, hp, hall⟩ := ih hfront.2 hrest
    refine ⟨p, hp, fun rest => ?_⟩
    rw [List.cons_append, readFrom_cons r (Ne.symm hfront.1), hstep]
    exact hall rest

/-- An option for a setting that is still open in the end, put between others, decides this
setting only. -/
theorem readFrom_insert {front back : List Bytes} {a : Assignment} (hfront : [45, 45] ∉ front)
    (hproper : a.Proper) (haccepts : a.setting.Accepts a.value) (hq : r.readFrom front = .ok q)
    (hz : r.readFrom (front ++ back) = .ok z) (hopen : z.choices.decided a.setting = false) :
    ∃ z', r.readFrom (front ++ (a.words ++ back)) = .ok z' ∧
      Ahead a.setting a.value z z' := by
  obtain ⟨p, hp, hall⟩ := readFrom_append hfront hq
  rw [hall, readFrom_settle hp] at hz
  have hopen' := readFrom_open hz hopen
  obtain ⟨c, hc, _⟩ := Choices.decide_accepted haccepts q.choices
  have hgive : q.give a.setting a.value = .ok ⟨q.given ++ [a.setting], c, q.pending⟩ := by
    rw [give, hopen', if_neg Bool.false_ne_true, hc]
  have hahead : Ahead a.setting a.value q ⟨q.given ++ [a.setting], c, q.pending⟩ :=
    ⟨rfl, Choices.ahead_of_decide hc⟩
  obtain ⟨z', hz', hresult⟩ := hahead.readFrom hz hopen
  refine ⟨z', ?_, hresult⟩
  rw [hall, readFrom_words p hproper, hp, ok_bind]
  split
  · rw [hgive, ok_bind, hz']
  · rw [readFrom_settle ((settle_waiting (settle_pending hp) a.setting a.value).trans hgive), hz']

end Reading

/-- An option that names the log file. -/
def logOption (path : String) (attached : Bool) : Assignment :=
  ⟨.logFile, Bytes.ofString path, attached⟩

/-- A command line and an environment that name a log file besides: by an option behind words that
could stand alone, or by a variable. -/
inductive LogsTo (path : String) (arguments : List Bytes) (env : Environment) :
    List Bytes → Environment → Prop
  | byOption {front back : List Bytes} {t : Settings} (attached : Bool)
      (split : arguments = front ++ back) (called : front ≠ []) (dashes : [45, 45] ∉ front.drop 1)
      (alone : readSettings front (fun _ => none) = .ok t)
      (proper : (logOption path attached).Proper) :
      LogsTo path arguments env (front ++ ((logOption path attached).words ++ back)) env
  | byVariable : LogsTo path arguments env arguments
      (Function.update env .logFile (some (Bytes.ofString path)))

theorem readSettings_ok_iff {arguments : List Bytes} {env : Environment} {t : Settings} :
    readSettings arguments env = .ok t ↔
      ∃ r c, Reading.start.readFrom (arguments.drop 1) = .ok r ∧ r.choices.complete env = .ok c ∧
        c.settings = t := by
  rw [CommandLine.readSettings, Json.bind_ok_iff]
  refine exists_congr fun r => ?_
  cases r.choices.complete env with
  | error fault => simp
  | ok c => simp [pure, Except.pure]

/-- A log file that is named besides is the only difference. -/
theorem LogsTo.readSettings {path : String} {arguments arguments' : List Bytes}
    {env env' : Environment} {t : Settings} (h : LogsTo path arguments env arguments' env')
    (ht : readSettings arguments env = .ok t) (hfile : t.logFile = none) :
    readSettings arguments' env' = .ok { t with logFile := some path } := by
  obtain ⟨r, c, hread, hcomplete, rfl⟩ := readSettings_ok_iff.1 ht
  have hopen : c.decided .logFile = false := by
    rw [Choices.decided, Option.isSome_eq_false_iff, Option.isNone_iff_eq_none]
    exact hfile
  have haccepts : Setting.logFile.Accepts (Bytes.ofString path) := ⟨path, rfl⟩
  have hopen' := Choices.completeFrom_open hcomplete hopen
  rw [readSettings_ok_iff]
  cases h with
  | @byOption front back u attached split called dashes alone proper =>
    subst split
    obtain ⟨first, front, rfl⟩ := List.exists_cons_of_ne_nil called
    obtain ⟨q, _, hfront, _⟩ := readSettings_ok_iff.1 alone
    obtain ⟨r', hread', hahead⟩ := Reading.readFrom_insert (a := logOption path attached)
      dashes proper haccepts hfront hread hopen'
    obtain ⟨d, hd, hresult⟩ := hahead.choices.completeFrom (fun _ _ => rfl) hcomplete hopen
    exact ⟨r', d, hread', hd, hresult.settings_logFile⟩
  | byVariable =>
    obtain ⟨d, hd, hresult⟩ :=
      Choices.completeFrom_update (List.mem_cons_self) haccepts hcomplete hopen
    exact ⟨r, d, hread, hd, hresult.settings_logFile⟩

end CommandLine
end HoverServer
