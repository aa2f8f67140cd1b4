import HoverServer.CommandLine.Halt
import HoverServer.Proofs.Json.Record
import HoverServer.Proofs.Text.Ascii
import HoverServer.Proofs.Text.Lossy

/-! The values of settings. A value is a text, or the name of one of a few things in any case of
its letters. Deciding a setting takes what its value says and leaves the other settings alone, and
the environment decides those that nobody has decided before. -/
namespace HoverServer

theorem Text.decode?_eq_some_iff {v : Bytes} {text : String} :
    Text.decode? v = some text ↔ Bytes.ofString text = v := by
  rw [Text.decode?]
  constructor
  · intro h
    split at h
    · cases h
      assumption
    · cases h
  · rintro rfl
    rw [Text.Lossy.decode_ofString]
    simp

/-! ### Names -/

/-- The name of something, in any case of its letters. -/
def Bytes.Spells (v : Bytes) (name : String) : Prop :=
  List.Forall₂ Bytes.SameLetter (Bytes.ofString name) v

/-- Names in ASCII that differ in more than the case of their letters. -/
structure Naming {α : Type} (name : α → String) (all : List α) : Prop where
  complete : ∀ a, a ∈ all
  ascii : ∀ a, ∀ b ∈ Bytes.ofString (name a), b < 128
  distinct : ∀ a b, Bytes.sameLetters (Bytes.ofString (name a)) (Bytes.ofString (name b)) → a = b

theorem Bytes.SameLetter.ascii {a b : UInt8} (h : SameLetter a b) (ha : a < 128) : b < 128 := by
  cases h with
  | same => exact ha
  | lower first last =>
    simp only [UInt8.le_iff_toNat_le, UInt8.lt_iff_toNat_lt, UInt8.toNat_add,
      UInt8.reduceToNat] at *
    omega
  | upper first last => exact UInt8.lt_of_le_of_lt last (by decide)

theorem Bytes.Spells.ascii {v : Bytes} {name : String} (h : v.Spells name)
    (hname : ∀ b ∈ Bytes.ofString name, b < 128) : ∀ b ∈ v, b < 128 := by
  rw [Spells] at h
  generalize Bytes.ofString name = w at h hname
  induction h with
  | nil => exact List.forall_mem_nil _
  | cons hfirst _ ih =>
    obtain ⟨ha, hw⟩ := List.forall_mem_cons.1 hname
    exact List.forall_mem_cons.2 ⟨hfirst.ascii ha, ih hw⟩

namespace Naming

variable {α : Type} {name : α → String} {all : List α}

theorem unique (h : Naming name all) {v : Bytes} {a b : α} (ha : v.Spells (name a))
    (hb : v.Spells (name b)) : a = b := by
  apply h.distinct
  have hsame := Bytes.sameLetters_iff.2 ha
  have hsame' := Bytes.sameLetters_iff.2 hb
  rw [Bytes.sameLetters, beq_iff_eq] at hsame hsame' ⊢
  exact hsame.trans hsame'.symm

theorem variant?_iff (h : Naming name all) {text : String} {a : α} :
    variant? name all text = some a ↔ (Bytes.ofString text).Spells (name a) := by
  rw [variant?]
  constructor
  · intro hfind
    have hsame := List.find?_some hfind
    exact Bytes.sameLetters_iff.1 hsame
  · intro hspells
    have hsome : (all.find? fun a =>
        Bytes.sameLetters (Bytes.ofString (name a)) (Bytes.ofString text)).isSome :=
      List.find?_isSome.2 ⟨a, h.complete a, Bytes.sameLetters_iff.2 hspells⟩
    obtain ⟨b, hb⟩ := Option.isSome_iff_exists.1 hsome
    have hsame := List.find?_some hb
    rw [hb, h.unique (Bytes.sameLetters_iff.1 hsame) hspells]

/-- A name is text, as it is ASCII. -/
theorem isText (h : Naming name all) {v : Bytes} {a : α} (hspells : v.Spells (name a)) :
    ∃ text, Bytes.ofString text = v :=
  ⟨Bytes.asciiText v, Bytes.ofString_asciiText (hspells.ascii (h.ascii a))⟩

end Naming

theorem Log.Format.naming : Naming name [.plain, .json, .compact] where
  complete a := by cases a <;> decide
  ascii a := by cases a <;> decide +kernel
  distinct a b := by cases a <;> cases b <;> decide

theorem MalformedPolicy.naming : Naming name [.terminate, .reject] where
  complete a := by cases a <;> decide
  ascii a := by cases a <;> decide +kernel
  distinct a b := by cases a <;> cases b <;> decide

theorem UnknownMethodPolicy.naming : Naming name [.ignore, .reject] where
  complete a := by cases a <;> decide
  ascii a := by cases a <;> decide +kernel
  distinct a b := by cases a <;> cases b <;> decide

/-! ### Values -/

/-- The values that say something of a setting. -/
def Setting.Accepts (s : Setting) (v : Bytes) : Prop :=
  match s with
  | .logFile => ∃ text, Bytes.ofString text = v
  | .logFilter => ∃ text, Bytes.ofString text = v
  | .logFormat => ∃ f : Log.Format, v.Spells f.name
  | .malformed => ∃ p : MalformedPolicy, v.Spells p.name
  | .unknown => ∃ p : UnknownMethodPolicy, v.Spells p.name

namespace Settings

/-- One of the settings is as a value says. -/
def Obeys (t : Settings) (s : Setting) (v : Bytes) : Prop :=
  match s with
  | .logFile => ∃ path, t.logFile = some path ∧ Bytes.ofString path = v
  | .logFilter => Bytes.ofString t.logFilter = v
  | .logFormat => v.Spells t.logFormat.name
  | .malformed => v.Spells t.policies.malformed.name
  | .unknown => v.Spells t.policies.unknown.name

/-- One of the settings is the same in both. -/
def Agrees (t u : Settings) (s : Setting) : Prop :=
  match s with
  | .logFile => t.logFile = u.logFile
  | .logFilter => t.logFilter = u.logFilter
  | .logFormat => t.logFormat = u.logFormat
  | .malformed => t.policies.malformed = u.policies.malformed
  | .unknown => t.policies.unknown = u.policies.unknown

/-- Each setting is as its value says, or as in the standard settings if it has none. -/
def Follows (t : Settings) (given : Setting → Option Bytes) : Prop :=
  ∀ s, match given s with
    | some v => t.Obeys s v
    | none => t.Agrees .standard s

variable {t u : Settings} {s : Setting} {v : Bytes}

theorem Agrees.symm (h : t.Agrees u s) : u.Agrees t s := by
  cases s <;> exact Eq.symm h

theorem Agrees.trans {w : Settings} (h : t.Agrees u s) (hu : u.Agrees w s) : t.Agrees w s := by
  cases s <;> exact Eq.trans h hu

theorem Agrees.obeys (h : t.Agrees u s) (hu : u.Obeys s v) : t.Obeys s v := by
  cases s <;> simp only [Agrees] at h <;> simp only [Obeys, h] at hu ⊢ <;> exact hu

theorem Obeys.accepts (h : t.Obeys s v) : s.Accepts v := by
  cases s with
  | logFile =>
    obtain ⟨path, _, hpath⟩ := h
    exact ⟨path, hpath⟩
  | logFilter => exact ⟨_, h⟩
  | logFormat => exact ⟨_, h⟩
  | malformed => exact ⟨_, h⟩
  | unknown => exact ⟨_, h⟩

/-- A value leaves no choice. -/
theorem Obeys.agrees (ht : t.Obeys s v) (hu : u.Obeys s v) : t.Agrees u s := by
  have htext : ∀ {a b : String}, Bytes.ofString a = v → Bytes.ofString b = v → a = b := by
    intro a b ha hb
    exact Option.some.inj ((Text.decode?_eq_some_iff.2 ha).symm.trans
      (Text.decode?_eq_some_iff.2 hb))
  cases s with
  | logFile =>
    obtain ⟨path, hpath, hv⟩ := ht
    obtain ⟨path', hpath', hv'⟩ := hu
    rw [Agrees, hpath, hpath', htext hv hv']
  | logFilter => exact htext ht hu
  | logFormat => exact Log.Format.naming.unique ht hu
  | malformed => exact MalformedPolicy.naming.unique ht hu
  | unknown => exact UnknownMethodPolicy.naming.unique ht hu

theorem eq_of_agrees (h : ∀ s, t.Agrees u s) : t = u := by
  have hfile := h .logFile
  have hfilter := h .logFilter
  have hformat := h .logFormat
  have hmalformed := h .malformed
  have hunknown := h .unknown
  obtain ⟨file, filter, format, malformed, unknown⟩ := t
  obtain ⟨file', filter', format', malformed', unknown'⟩ := u
  simp only [Agrees] at hfile hfilter hformat hmalformed hunknown
  simp [hfile, hfilter, hformat, hmalformed, hunknown]

theorem Follows.unique {given : Setting → Option Bytes} (ht : t.Follows given)
    (hu : u.Follows given) : t = u := by
  apply eq_of_agrees
  intro s
  have hs := ht s
  have hs' := hu s
  cases hg : given s with
  | none =>
    simp only [hg] at hs hs'
    exact hs.trans hs'.symm
  | some v =>
    simp only [hg] at hs hs'
    exact hs.agrees hs'

/-- The texts that stand for the standard settings say just that. -/
theorem standard_obeys {text : String} (h : CommandLine.standardText s = some text) :
    standard.Obeys s (Bytes.ofString text) := by
  have hspells : ∀ name, (Bytes.ofString name).Spells name := fun name =>
    List.forall₂_same.2 fun b _ => .same b
  cases s with
  | logFile => cases h
  | logFilter =>
    cases h
    rfl
  | logFormat =>
    cases h
    exact hspells _
  | malformed =>
    cases h
    exact hspells _
  | unknown =>
    cases h
    exact hspells _

end Settings

/-! ### Decisions -/

namespace Choices

variable {c : Choices} {s : Setting} {v : Bytes} {given : Setting → Option Bytes}

/-- What has been decided is as the values for it say, and the rest is still open. -/
def Records (c : Choices) (given : Setting → Option Bytes) : Prop :=
  ∀ s, match given s with
    | some v => c.decided s = true ∧ c.settings.Obeys s v
    | .none => c.decided s = false

theorem none_records : none.Records fun _ => .none := by
  intro s
  cases s <;> rfl

theorem settings_of_open (h : c.decided s = false) : c.settings.Agrees .standard s := by
  cases s with
  | logFile => simpa [decided, Settings.Agrees, settings, Settings.standard] using h
  | _ =>
    simp only [decided, Option.isSome_eq_false_iff, Option.isNone_iff_eq_none] at h
    simp [Settings.Agrees, settings, h]

theorem Records.follows (h : c.Records given) : c.settings.Follows given := by
  intro s
  have hs := h s
  cases hg : given s with
  | none =>
    simp only [hg] at hs
    exact settings_of_open hs
  | some v =>
    simp only [hg] at hs
    exact hs.2

theorem Records.decided_eq (h : c.Records given) (s : Setting) :
    c.decided s = (given s).isSome := by
  have hs := h s
  cases hg : given s with
  | none => simpa [hg] using hs
  | some v =>
    simp only [hg] at hs
    exact hs.1

theorem variant_ok_iff {α : Type} {name : α → String} {all : List α} (h : Naming name all)
    {text : String} {a : α} :
    variant (variant? name all) text = .ok a ↔ (Bytes.ofString text).Spells (name a) := by
  rw [← h.variant?_iff, variant]
  cases variant? name all text <;> simp

/-- A value that is accepted decides its setting. -/
theorem decide_accepted (h : s.Accepts v) (c : Choices) :
    ∃ d, c.decide s v = .ok d ∧ d.decided s = true ∧ d.settings.Obeys s v := by
  cases s with
  | logFile =>
    obtain ⟨text, htext⟩ := h
    refine ⟨{ c with logFile := some text }, ?_, rfl, text, rfl, htext⟩
    rw [decide, Text.decode?_eq_some_iff.2 htext]
    rfl
  | logFilter =>
    obtain ⟨text, htext⟩ := h
    refine ⟨{ c with logFilter := some text }, ?_, rfl, htext⟩
    rw [decide, Text.decode?_eq_some_iff.2 htext]
    rfl
  | logFormat =>
    obtain ⟨f, hf⟩ := h
    obtain ⟨text, rfl⟩ := Log.Format.naming.isText hf
    refine ⟨{ c with logFormat := some f }, ?_, rfl, hf⟩
    rw [decide, Text.decode?_eq_some_iff.2 rfl]
    simp only [Log.Format.ofName?, (variant_ok_iff Log.Format.naming).2 hf]
    rfl
  | malformed =>
    obtain ⟨p, hp⟩ := h
    obtain ⟨text, rfl⟩ := MalformedPolicy.naming.isText hp
    refine ⟨{ c with malformed := some p }, ?_, rfl, hp⟩
    rw [decide, Text.decode?_eq_some_iff.2 rfl]
    simp only [MalformedPolicy.ofName?, (variant_ok_iff MalformedPolicy.naming).2 hp]
    rfl
  | unknown =>
    obtain ⟨p, hp⟩ := h
    obtain ⟨text, rfl⟩ := UnknownMethodPolicy.naming.isText hp
    refine ⟨{ c with unknown := some p }, ?_, rfl, hp⟩
    rw [decide, Text.decode?_eq_some_iff.2 rfl]
    simp only [UnknownMethodPolicy.ofName?, (variant_ok_iff UnknownMethodPolicy.naming).2 hp]
    rfl

/-- Nothing else is decided on the way, and no other value decides anything. -/
theorem decide_ok {d : Choices} (h : c.decide s v = .ok d) :
    s.Accepts v ∧ ∀ r ≠ s, d.decided r = c.decided r ∧ d.settings.Agrees c.settings r := by
  rw [decide] at h
  cases htext : Text.decode? v with
  | none =>
    simp only [htext] at h
    cases h
  | some text =>
    simp only [htext] at h
    have hv := Text.decode?_eq_some_iff.1 htext
    cases s with
    | logFile =>
      cases h
      refine ⟨⟨text, hv⟩, fun r hr => ?_⟩
      cases r <;> first | exact absurd rfl hr | exact ⟨rfl, rfl⟩
    | logFilter =>
      cases h
      refine ⟨⟨text, hv⟩, fun r hr => ?_⟩
      cases r <;> first | exact absurd rfl hr | exact ⟨rfl, rfl⟩
    | logFormat =>
      obtain ⟨f, hf, h⟩ := Json.bind_ok_iff.1 h
      cases h
      refine ⟨⟨f, hv ▸ (variant_ok_iff Log.Format.naming).1 hf⟩, fun r hr => ?_⟩
      cases r <;> first | exact absurd rfl hr | exact ⟨rfl, rfl⟩
    | malformed =>
      obtain ⟨p, hp, h⟩ := Json.bind_ok_iff.1 h
      cases h
      refine ⟨⟨p, hv ▸ (variant_ok_iff MalformedPolicy.naming).1 hp⟩, fun r hr => ?_⟩
      cases r <;> first | exact absurd rfl hr | exact ⟨rfl, rfl⟩
    | unknown =>
      obtain ⟨p, hp, h⟩ := Json.bind_ok_iff.1 h
      cases h
      refine ⟨⟨p, hv ▸ (variant_ok_iff UnknownMethodPolicy.naming).1 hp⟩, fun r hr => ?_⟩
      cases r <;> first | exact absurd rfl hr | exact ⟨rfl, rfl⟩

theorem Records.decide (h : c.Records given) {d : Choices} (hd : c.decide s v = .ok d) :
    d.Records (Function.update given s (some v)) := by
  obtain ⟨haccepts, hothers⟩ := decide_ok hd
  intro r
  by_cases hr : r = s
  · subst hr
    obtain ⟨d', hd', hdecided, hobeys⟩ := decide_accepted haccepts c
    cases hd.symm.trans hd'
    rw [Function.update_self]
    exact ⟨hdecided, hobeys⟩
  · obtain ⟨hdecided, hagrees⟩ := hothers r hr
    have hrecord := h r
    rw [Function.update_of_ne hr]
    cases hg : given r with
    | none =>
      simp only [hg] at hrecord ⊢
      exact hdecided.trans hrecord
    | some w =>
      simp only [hg] at hrecord ⊢
      exact ⟨hdecided.trans hrecord.1, hagrees.obeys hrecord.2⟩

/-- The environment gives values to some settings that have none. -/
def filled (given : Setting → Option Bytes) (env : Environment) (settings : List Setting) :
    Setting → Option Bytes :=
  fun s => if s ∈ settings then (given s).or (env s) else given s

theorem Records.completeFrom (h : c.Records given) (env : Environment) (settings : List Setting) :
    (∃ d, c.completeFrom env settings = .ok d ∧ d.Records (filled given env settings)) ∨
      ∃ s v fault, given s = .none ∧ env s = some v ∧ ¬ s.Accepts v ∧
        c.completeFrom env settings = .error (s, fault) := by
  induction settings generalizing c given with
  | nil =>
    have hnone : filled given env [] = given := by
      funext s
      simp [filled]
    exact Or.inl ⟨c, rfl, hnone ▸ h⟩
  | cons s r ih =>
    have hskip : (∀ v, given s = .none → env s ≠ some v) →
        filled given env r = filled given env (s :: r) := by
      intro hnone
      funext t
      by_cases ht : t = s
      · subst ht
        cases hg : given t with
        | some w => simp [filled, hg]
        | none =>
          have henv : env t = .none := Option.eq_none_iff_forall_ne_some.2 fun v => hnone v hg
          simp [filled, hg, henv]
      · simp [filled, ht]
    rw [Choices.completeFrom]
    cases hdecided : c.decided s with
    | true =>
      rw [h.decided_eq] at hdecided
      rw [← hskip fun v hg => by simp [hg] at hdecided]
      exact ih h
    | false =>
      rw [h.decided_eq] at hdecided
      have hg : given s = .none := by simpa using hdecided
      cases henv : env s with
      | none =>
        rw [← hskip fun v _ => by simp [henv]]
        exact ih h
      | some v =>
        simp only
        cases hd : c.decide s v with
        | error fault =>
          refine Or.inr ⟨s, v, fault, hg, henv, fun haccepts => ?_, rfl⟩
          obtain ⟨d, hd', _⟩ := decide_accepted haccepts c
          cases hd.symm.trans hd'
        | ok d =>
          have hupdate : filled (Function.update given s (some v)) env r =
              filled given env (s :: r) := by
            funext t
            by_cases ht : t = s
            · subst ht
              simp [filled, hg, henv]
            · simp [filled, ht]
          obtain ⟨e, he, hrecords⟩ | ⟨t, w, fault, hgt, hrest⟩ := ih (h.decide hd)
          · exact Or.inl ⟨e, he, hupdate ▸ hrecords⟩
          · have ht : t ≠ s := by
              rintro rfl
              simp at hgt
            rw [Function.update_of_ne ht] at hgt
            exact Or.inr ⟨t, w, fault, hgt, hrest⟩

theorem Records.complete (h : c.Records given) (env : Environment) :
    (∃ d, c.complete env = .ok d ∧ d.Records fun s => (given s).or (env s)) ∨
      ∃ s v fault, given s = .none ∧ env s = some v ∧ ¬ s.Accepts v ∧
        c.complete env = .error (s, fault) := by
  have hall : filled given env Setting.all = fun s => (given s).or (env s) := by
    funext s
    cases s <;> rfl
  rw [← hall]
  exact h.completeFrom env Setting.all

end Choices
end HoverServer
