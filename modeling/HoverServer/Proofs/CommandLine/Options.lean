import Mathlib.Data.List.Nodup
import HoverServer.CommandLine.Arguments
import HoverServer.Proofs.CommandLine.Values

/-! Options on a command line. Words are read one after the other, and a list of options decides
each setting by the value that is given for it, in whatever order and spelling the options come. -/
namespace HoverServer.CommandLine

/-- A setting with a value for it, behind an equals sign or as a word of its own. -/
structure Assignment where
  setting : Setting
  value : Bytes
  attached : Bool
  deriving DecidableEq

def Assignment.words (a : Assignment) : List Bytes :=
  let name := Bytes.ofString (settingName a.setting)
  if a.attached then [45 :: 45 :: (name ++ 61 :: a.value)] else [45 :: 45 :: name, a.value]

/-- A word that begins with a dash is not taken for a value. -/
def Assignment.Proper (a : Assignment) : Prop := a.attached = false → a.value.head? ≠ some 45

/-- The value that options give for a setting. -/
def valueOf (options : List Assignment) (s : Setting) : Option Bytes :=
  (options.find? fun a => a.setting = s).map (·.value)

theorem ok_bind {ε α β : Type} (a : α) (f : α → Except ε β) : (Except.ok a >>= f) = f a := rfl

/-! ### Words -/

theorem splitValue_attached {name : Bytes} (h : 61 ∉ name) (v : Bytes) :
    splitValue (name ++ 61 :: v) = (name, some v) := by
  induction name with
  | nil => rfl
  | cons b r ih =>
    rw [List.mem_cons, not_or] at h
    simp [splitValue, Ne.symm h.1, ih h.2]

theorem splitValue_bare {name : Bytes} (h : 61 ∉ name) : splitValue name = (name, none) := by
  induction name with
  | nil => rfl
  | cons b r ih =>
    rw [List.mem_cons, not_or] at h
    simp [splitValue, Ne.symm h.1, ih h.2]

theorem not_mem_settingName (s : Setting) : 61 ∉ Bytes.ofString (settingName s) := by
  cases s <;> decide

theorem ofName?_settingName (s : Setting) : Flag.ofName? (settingName s) = some (.setting s) := by
  cases s <;> decide

theorem flag_of_settingName (s : Setting) :
    (Text.decode? (Bytes.ofString (settingName s))).bind Flag.ofName? = some (.setting s) := by
  rw [Text.decode?_eq_some_iff.2 rfl]
  exact ofName?_settingName s

namespace Reading

/-- What one word does. -/
def step (r : Reading) (w : Bytes) : Except Halt Reading :=
  match w with
  | 45 :: 45 :: name => long r name
  | 45 :: b :: group => short r (b :: group)
  | _ => word r w

theorem readFrom_cons (r : Reading) {w : Bytes} (hw : w ≠ [45, 45]) (more : List Bytes) :
    r.readFrom (w :: more) = r.step w >>= fun r => r.readFrom more := by
  rw [readFrom.eq_def, step.eq_def]
  simp only
  split
  · exact absurd rfl hw
  · rfl
  · split <;> simp_all
  · split <;> simp_all

theorem step_attached (r : Reading) (s : Setting) (v : Bytes) :
    r.step (45 :: 45 :: (Bytes.ofString (settingName s) ++ 61 :: v)) =
      r.settle >>= fun r => r.give s v := by
  rw [step, long, splitValue_attached (not_mem_settingName s)]
  simp only [flag_of_settingName]

theorem step_bare (r : Reading) (s : Setting) :
    r.step (45 :: 45 :: Bytes.ofString (settingName s)) =
      r.settle >>= fun r => .ok { r with pending := some (s, none) } := by
  rw [step, long, splitValue_bare (not_mem_settingName s)]
  simp only [flag_of_settingName]
  rfl

theorem step_value (r : Reading) {v : Bytes} (hv : v.head? ≠ some 45) : r.step v = word r v := by
  rw [step.eq_def]
  split
  · exact absurd rfl hv
  · exact absurd rfl hv
  · rfl

theorem give_pending {r q : Reading} {s : Setting} {v : Bytes} (h : r.give s v = .ok q) :
    q.pending = r.pending := by
  rw [give] at h
  split at h
  · cases h
  · split at h
    · cases h
      rfl
    · cases h

theorem settle_pending {r q : Reading} (h : r.settle = .ok q) : q.pending = none := by
  rw [settle] at h
  split at h
  · rename_i hpending
    cases h
    exact hpending
  · cases h
  · rw [give_pending h]

theorem settle_of_settled {r : Reading} (h : r.pending = none) : r.settle = .ok r := by
  simp only [settle, h]

/-- A value that stands for itself is taken with the next option, or at the end. -/
theorem settle_waiting {r : Reading} (h : r.pending = none) (s : Setting) (v : Bytes) :
    { r with pending := some (s, some v) }.settle = r.give s v := by
  obtain ⟨given, choices, pending⟩ := r
  cases h
  rfl

/-- The words of one option settle what is pending, and leave the option itself for later if its
value is a word of its own. -/
theorem readFrom_words (r : Reading) {a : Assignment} (ha : a.Proper) (more : List Bytes) :
    r.readFrom (a.words ++ more) = r.settle >>= fun r =>
      if a.attached then r.give a.setting a.value >>= fun r => r.readFrom more
      else { r with pending := some (a.setting, some a.value) }.readFrom more := by
  obtain ⟨s, v, attached⟩ := a
  have hne : ∀ t : Bytes, (45 : UInt8) :: 45 :: (Bytes.ofString (settingName s) ++ t) ≠
      [45, 45] := by
    intro t h
    have hname : Bytes.ofString (settingName s) ≠ [] := by cases s <;> decide
    simp [hname] at h
  cases attached with
  | true =>
    simp only [Assignment.words, if_true, List.singleton_append]
    rw [readFrom_cons r (hne _), step_attached]
    cases r.settle <;> rfl
  | false =>
    have hbare := hne []
    rw [List.append_nil] at hbare
    have hv : v.head? ≠ some 45 := ha rfl
    have hdash : v ≠ [45, 45] := by
      rintro rfl
      exact hv rfl
    simp only [Assignment.words, Bool.false_eq_true, if_false, List.cons_append, List.nil_append]
    rw [readFrom_cons r hbare, step_bare]
    cases r.settle with
    | error h => rfl
    | ok q =>
      show Reading.readFrom _ (v :: more) = _
      rw [readFrom_cons _ hdash, step_value _ hv]
      rfl

/-- Options are given one after the other. -/
theorem readFrom_options (r : Reading) {options : List Assignment}
    (hproper : ∀ a ∈ options, a.Proper) :
    r.readFrom (options.flatMap Assignment.words) = r.settle >>= fun r =>
      options.foldlM (fun r a => r.give a.setting a.value) r := by
  induction options generalizing r with
  | nil =>
    rw [List.flatMap_nil, readFrom]
    cases r.settle <;> rfl
  | cons a more ih =>
    obtain ⟨ha, hmore⟩ := List.forall_mem_cons.1 hproper
    rw [List.flatMap_cons, readFrom_words r ha]
    cases hsettle : r.settle with
    | error h => rfl
    | ok q =>
      have hq := settle_pending hsettle
      have hstep : (q.give a.setting a.value >>= fun r =>
          r.readFrom (more.flatMap Assignment.words)) =
            q.give a.setting a.value >>= fun r =>
              more.foldlM (fun r a => r.give a.setting a.value) r := by
        cases hgive : q.give a.setting a.value with
        | error h => rfl
        | ok p =>
          have hp := (give_pending hgive).trans hq
          show p.readFrom _ = _
          rw [ih p hmore, settle_of_settled hp]
      rw [ok_bind, ok_bind, hstep, ih _ hmore, settle_waiting hq, ite_self, List.foldlM_cons]

/-! ### Options -/

variable {r : Reading} {options : List Assignment} {given : Setting → Option Bytes}

/-- Options for settings that are still open decide all of them, or one of them has a value that
says nothing of its setting. -/
theorem give_options (hr : r.choices.Records given)
    (hdistinct : (options.map (·.setting)).Nodup)
    (hopen : ∀ a ∈ options, given a.setting = none) :
    (∃ q, options.foldlM (fun r a => r.give a.setting a.value) r = .ok q ∧
        q.choices.Records fun s => (valueOf options s).or (given s)) ∨
      ∃ a ∈ options, ¬ a.setting.Accepts a.value ∧ ∃ fault,
        options.foldlM (fun r a => r.give a.setting a.value) r =
          .error (.ofValueFault a.setting fault) := by
  induction options generalizing r given with
  | nil => exact Or.inl ⟨r, rfl, hr⟩
  | cons a more ih =>
    obtain ⟨hfirst, hmore⟩ := List.forall_mem_cons.1 hopen
    rw [List.map_cons, List.nodup_cons] at hdistinct
    obtain ⟨hother, hdistinct⟩ := hdistinct
    have hdecided : r.choices.decided a.setting = false := by rw [hr.decided_eq, hfirst]; rfl
    rw [List.foldlM_cons, give, hdecided, if_neg Bool.false_ne_true]
    cases hd : r.choices.decide a.setting a.value with
    | error fault =>
      refine Or.inr ⟨a, List.mem_cons_self, fun haccepts => ?_, fault, rfl⟩
      obtain ⟨d, hd', _⟩ := Choices.decide_accepted haccepts r.choices
      cases hd.symm.trans hd'
    | ok d =>
      have hne : ∀ b ∈ more, b.setting ≠ a.setting := by
        intro b hb he
        exact hother (he ▸ List.mem_map_of_mem hb)
      have hopen' : ∀ b ∈ more,
          Function.update given a.setting (some a.value) b.setting = none := by
        intro b hb
        rw [Function.update_of_ne (hne b hb)]
        exact hmore b hb
      have hvalue : (fun s => (valueOf more s).or
          (Function.update given a.setting (some a.value) s)) =
            fun s => (valueOf (a :: more) s).or (given s) := by
        funext s
        by_cases hs : a.setting = s
        · have hnone : valueOf more s = none := by
            simp only [valueOf, Option.map_eq_none_iff, List.find?_eq_none, decide_eq_true_eq]
            exact fun b hb he => hne b hb (he.trans hs.symm)
          subst hs
          rw [hnone]
          simp [valueOf]
        · rw [Function.update_of_ne (Ne.symm hs)]
          simp [valueOf, hs]
      obtain ⟨q, hq, hrecords⟩ | ⟨b, hb, hvalue', hrest⟩ :=
        ih (r := ⟨r.given ++ [a.setting], d, r.pending⟩) (hr.decide hd) hdistinct hopen'
      · exact Or.inl ⟨q, hq, hvalue ▸ hrecords⟩
      · exact Or.inr ⟨b, List.mem_cons_of_mem a hb, hvalue', hrest⟩

end Reading

theorem Halt.ofValueFault_usage (s : Setting) (fault : ValueFault) :
    (Halt.ofValueFault s fault).isInformational = false := by
  cases fault <;> rfl

theorem Halt.exitCode_usage {h : Halt} (hh : h.isInformational = false) : h.exitCode = 2 := by
  rw [exitCode, hh]
  rfl

theorem mem_of_valueOf {options : List Assignment} {s : Setting} {v : Bytes}
    (h : valueOf options s = some v) : ∃ a ∈ options, a.setting = s ∧ a.value = v := by
  obtain ⟨a, ha, hv⟩ := Option.map_eq_some_iff.1 h
  exact ⟨a, List.mem_of_find?_eq_some ha, by simpa using List.find?_some ha, hv⟩

theorem valueOf_eq_some_iff {options : List Assignment}
    (hdistinct : (options.map (·.setting)).Nodup) {s : Setting} {v : Bytes} :
    valueOf options s = some v ↔ ∃ a ∈ options, a.setting = s ∧ a.value = v := by
  refine ⟨mem_of_valueOf, ?_⟩
  rintro ⟨a, ha, rfl, rfl⟩
  have hsome : (valueOf options a.setting).isSome := by
    rw [valueOf, Option.isSome_map, List.find?_isSome]
    exact ⟨a, ha, by simp⟩
  obtain ⟨w, hw⟩ := Option.isSome_iff_exists.1 hsome
  obtain ⟨b, hb, hbs, rfl⟩ := mem_of_valueOf hw
  rw [hw, List.inj_on_of_nodup_map hdistinct hb ha hbs]

/-- Either all values that decide a setting are accepted, and the settings follow them, or one of
them is not, and nothing is started. -/
theorem readSettings_cases (path : Bytes) {options : List Assignment}
    (hproper : ∀ a ∈ options, a.Proper) (hdistinct : (options.map (·.setting)).Nodup)
    (env : Environment) :
    (∃ t, readSettings (path :: options.flatMap Assignment.words) env = .ok t ∧
        t.Follows fun s => (valueOf options s).or (env s)) ∨
      ∃ s v fault, (valueOf options s).or (env s) = some v ∧ ¬ s.Accepts v ∧
        readSettings (path :: options.flatMap Assignment.words) env =
          .error (.ofValueFault s fault) := by
  rw [readSettings, List.drop_succ_cons, List.drop_zero, Reading.readFrom_options _ hproper,
    Reading.settle_of_settled (by rfl), ok_bind]
  obtain ⟨q, hq, hrecords⟩ | ⟨a, ha, hvalue, fault, hfault⟩ :=
    Reading.give_options (r := .start) Choices.none_records hdistinct fun _ _ => rfl
  · simp only [Option.or_none] at hrecords
    rw [hq, ok_bind]
    obtain ⟨d, hd, hfollows⟩ | ⟨s, v, fault, hgiven, henv, hvalue, hfault⟩ := hrecords.complete env
    · refine Or.inl ⟨d.settings, ?_, hfollows.follows⟩
      rw [hd]
      rfl
    · refine Or.inr ⟨s, v, fault, by rw [hgiven, Option.none_or, henv], hvalue, ?_⟩
      rw [hfault]
  · refine Or.inr ⟨a.setting, a.value, fault, ?_, hvalue, ?_⟩
    · rw [(valueOf_eq_some_iff hdistinct).2 ⟨a, ha, rfl, rfl⟩, Option.some_or]
    · rw [hfault]
      rfl

/-- A setting is decided by its option, else by its variable, else by the standard settings, and
by nothing that is said of another one. Nothing is started exactly if a value that decides is no
value of its setting, whatever the values behind it are. -/
theorem readSettings_follows_iff (path : Bytes) {options : List Assignment}
    (hproper : ∀ a ∈ options, a.Proper) (hdistinct : (options.map (·.setting)).Nodup)
    (env : Environment) :
    let arguments := path :: options.flatMap Assignment.words
    let deciding := fun s => (valueOf options s).or (env s)
    (∀ s v, deciding s = some v ↔ (∃ a ∈ options, a.setting = s ∧ a.value = v) ∨
        (∀ a ∈ options, a.setting ≠ s) ∧ env s = some v) ∧
      (∀ t, readSettings arguments env = .ok t ↔ t.Follows deciding) ∧
      ((∃ h, readSettings arguments env = .error h) ↔
        ∃ s v, deciding s = some v ∧ ¬ s.Accepts v) ∧
      (∀ h, readSettings arguments env = .error h → h.isInformational = false ∧ h.exitCode = 2) ∧
      ∀ s text, standardText s = some text → Settings.standard.Obeys s (Bytes.ofString text) := by
  intro arguments deciding
  have hcases := readSettings_cases path hproper hdistinct env
  have haccepts : ∀ {t : Settings}, t.Follows deciding → ∀ s v, deciding s = some v →
      s.Accepts v := by
    intro t ht s v hs
    have hobeys := ht s
    simp only [hs] at hobeys
    exact hobeys.accepts
  refine ⟨?_, ?_, ?_, ?_, fun s text h => Settings.standard_obeys h⟩
  · intro s v
    simp only [deciding, Option.or_eq_some_iff, valueOf_eq_some_iff hdistinct]
    refine or_congr_right (and_congr_left fun _ => ?_)
    simp [valueOf]
  · intro t
    obtain ⟨u, hu, hfollows⟩ | ⟨s, v, fault, hs, hvalue, hfault⟩ := hcases
    · simp only [arguments, hu, Except.ok.injEq]
      exact ⟨fun h => h ▸ hfollows, fun ht => hfollows.unique ht⟩
    · simp only [arguments, hfault, reduceCtorEq, false_iff]
      exact fun ht => hvalue (haccepts ht s v hs)
  · obtain ⟨u, hu, hfollows⟩ | ⟨s, v, fault, hs, hvalue, hfault⟩ := hcases
    · simp only [arguments, hu, reduceCtorEq, exists_false, false_iff, not_exists, not_and, not_not]
      exact haccepts hfollows
    · exact ⟨fun _ => ⟨s, v, hs, hvalue⟩, fun _ => ⟨_, hfault⟩⟩
  · intro h hh
    obtain ⟨u, hu, _⟩ | ⟨s, v, fault, _, _, hfault⟩ := hcases
    · cases hh.symm.trans hu
    · cases hh.symm.trans hfault
      have husage := Halt.ofValueFault_usage s fault
      exact ⟨husage, Halt.exitCode_usage husage⟩

/-- The variables for the file and for unknown methods say nothing of their settings, but options
stand before them. -/
theorem readSettings_follows_hidden :
    let options : List Assignment := [⟨.unknown, Bytes.ofString "REJECT", true⟩,
      ⟨.logFile, Bytes.ofString "run.log", false⟩]
    let env : Environment := fun s =>
      match s with
      | .logFile => some [255]
      | .logFilter => some (Bytes.ofString "debug")
      | .unknown => some (Bytes.ofString "never")
      | _ => none
    (∀ a ∈ options, a.Proper) ∧ (options.map (·.setting)).Nodup ∧
      readSettings (Bytes.ofString "lumend" :: options.flatMap Assignment.words) env =
        .ok ⟨some "run.log", "debug", .plain, ⟨.terminate, .reject⟩⟩ := by
  intro options env
  have hproper : ∀ a ∈ options, a.Proper := by
    intro a ha
    simp only [options, List.mem_cons, List.not_mem_nil, or_false] at ha
    obtain rfl | rfl := ha
    · intro hattached
      cases hattached
    · intro _
      decide
  have hdistinct : (options.map (·.setting)).Nodup := by decide
  refine ⟨hproper, hdistinct, ?_⟩
  obtain ⟨_, hiff, _⟩ := readSettings_follows_iff (Bytes.ofString "lumend") hproper hdistinct env
  refine (hiff _).2 fun s => ?_
  cases s with
  | logFile => exact ⟨_, rfl, rfl⟩
  | logFilter => rfl
  | logFormat => rfl
  | malformed => rfl
  | unknown => exact Bytes.sameLetters_iff.1 (by decide)

end HoverServer.CommandLine
