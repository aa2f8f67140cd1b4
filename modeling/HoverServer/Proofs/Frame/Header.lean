import HoverServer.Frame.Header
import HoverServer.Proofs.Text.Ascii
import HoverServer.Proofs.Text.Lossy

/-! Header blocks by their grammar. A block is a list of lines, and the first one that gives the
length decides, whatever the others say. -/
namespace HoverServer.Frame

/-! ### Lines -/

def lineBreak : Bytes := [13, 10]

/-- The lines that a block consists of. -/
structure Lines (header : Bytes) (ls : List Bytes) : Prop where
  joined : lineBreak.intercalate ls = header
  unbroken : ∀ line ∈ ls, ¬ lineBreak <:+: line
  nonempty : ls ≠ []

theorem lines_break (r : Bytes) : lines (13 :: 10 :: r) = [] :: lines r := rfl

theorem lines_cons {b : UInt8} {r : Bytes} (h : ¬ lineBreak <+: b :: r) {line : Bytes}
    {more : List Bytes} (hr : lines r = line :: more) : lines (b :: r) = (b :: line) :: more := by
  rw [lines, hr]
  rintro rest rfl rfl
  exact h ⟨rest, rfl⟩

/-- A block goes on with a line break, or with a byte of its first line. -/
theorem break_cases (b : UInt8) (r : Bytes) :
    (∃ rest, b = 13 ∧ r = 10 :: rest) ∨ ¬ lineBreak <+: b :: r := by
  by_cases h : lineBreak <+: b :: r
  · obtain ⟨rest, hrest⟩ := h
    obtain ⟨rfl, hr⟩ := List.cons.inj hrest
    exact Or.inl ⟨rest, rfl, hr.symm⟩
  · exact Or.inr h

theorem lines_lines (header : Bytes) : Lines header (lines header) := by
  induction hk : header.length using Nat.strongRecOn generalizing header with
  | _ k ih =>
    cases header with
    | nil => exact ⟨rfl, by simp [lines, lineBreak], by simp [lines]⟩
    | cons b r =>
      rcases break_cases b r with ⟨rest, rfl, rfl⟩ | hb
      · obtain ⟨hjoined, hunbroken, hne⟩ := ih rest.length (by simp at hk; omega) rest rfl
        obtain ⟨line, more, hrest⟩ := List.exists_cons_of_ne_nil hne
        rw [hrest] at hjoined hunbroken
        rw [lines_break, hrest]
        refine ⟨?_, List.forall_mem_cons.2 ⟨by simp [lineBreak], hunbroken⟩, by simp⟩
        rw [List.intercalate_cons_cons, hjoined]
        rfl
      · obtain ⟨hjoined, hunbroken, hne⟩ := ih r.length (by simp at hk; omega) r rfl
        obtain ⟨line, more, hr⟩ := List.exists_cons_of_ne_nil hne
        rw [hr] at hjoined hunbroken
        obtain ⟨hline, hmore⟩ := List.forall_mem_cons.1 hunbroken
        rw [lines_cons hb hr]
        refine ⟨?_, List.forall_mem_cons.2 ⟨?_, hmore⟩, by simp⟩
        · rw [List.intercalate_cons_cons_left, hjoined]
        · rw [List.infix_cons_iff, not_or]
          refine ⟨fun hp => hb (hp.trans ?_), hline⟩
          rw [← hjoined, ← List.intercalate_cons_cons_left]
          cases more with
          | nil => simp
          | cons next more =>
            rw [List.intercalate_cons_cons, List.append_assoc]
            exact List.prefix_append _ _

theorem lines_unbroken {line : Bytes} (h : ¬ lineBreak <:+: line) : lines line = [line] := by
  induction line with
  | nil => rfl
  | cons b r ih =>
    rw [List.infix_cons_iff, not_or] at h
    exact lines_cons h.1 (ih h.2)

theorem lines_append {line : Bytes} (h : ¬ lineBreak <:+: line) (rest : Bytes) :
    lines (line ++ (lineBreak ++ rest)) = line :: lines rest := by
  induction line with
  | nil => rfl
  | cons b r ih =>
    rw [List.infix_cons_iff, not_or] at h
    apply lines_cons _ (ih h.2)
    rintro ⟨after, hafter⟩
    -- A line break across the end of the line would have to begin with the second byte of one.
    cases r with
    | nil => cases hafter
    | cons c r =>
      obtain ⟨rfl, hr⟩ := List.cons.inj hafter
      obtain ⟨rfl, _⟩ := List.cons.inj hr
      exact h.1 ⟨r, rfl⟩

theorem lines_eq_iff {header : Bytes} {ls : List Bytes} : lines header = ls ↔ Lines header ls := by
  constructor
  · rintro rfl
    exact lines_lines header
  · rintro ⟨rfl, hunbroken, hne⟩
    obtain ⟨line, more, rfl⟩ := List.exists_cons_of_ne_nil hne
    clear hne
    induction more generalizing line with
    | nil => simpa using lines_unbroken (hunbroken line (by simp))
    | cons next more ih =>
      obtain ⟨hline, hmore⟩ := List.forall_mem_cons.1 hunbroken
      rw [List.intercalate_cons_cons, List.append_assoc, lines_append hline, ih next hmore]

/-! ### The line that counts -/

/-- A line with a name, a colon and a value, and the name is that of the length. -/
inductive GivesLength : Bytes → Bytes → Prop where
  | line {name bare rest value : Bytes} (colon : 58 ∉ name) (name_trimmed : Bytes.Trimmed name bare)
      (spelled : List.Forall₂ Bytes.SameLetter bare lengthName)
      (value_trimmed : Bytes.Trimmed rest value) : GivesLength (name ++ 58 :: rest) value

theorem splitColon_append {name : Bytes} (h : 58 ∉ name) (value : Bytes) :
    splitColon (name ++ 58 :: value) = some (name, value) := by
  induction name with
  | nil => rfl
  | cons b r ih =>
    have hb : b ≠ 58 := by
      intro hb
      apply h
      simp [hb]
    rw [List.cons_append, splitColon, if_neg hb, ih fun hr => h (List.mem_cons_of_mem b hr)]
    rfl

theorem splitColon_eq_some_iff {line name rest : Bytes} :
    splitColon line = some (name, rest) ↔ line = name ++ 58 :: rest ∧ 58 ∉ name := by
  constructor
  · intro h
    induction line generalizing name with
    | nil => cases h
    | cons b r ih =>
      rw [splitColon] at h
      by_cases hb : b = 58
      · rw [if_pos hb] at h
        cases h
        exact ⟨congrArg (· :: rest) hb, List.not_mem_nil⟩
      · rw [if_neg hb] at h
        obtain ⟨⟨more, rest'⟩, hmore, he⟩ := Option.map_eq_some_iff.1 h
        cases he
        obtain ⟨hr, hcolon⟩ := ih hmore
        refine ⟨congrArg (b :: ·) hr, ?_⟩
        rw [List.mem_cons, not_or]
        exact ⟨Ne.symm hb, hcolon⟩
  · rintro ⟨rfl, hcolon⟩
    exact splitColon_append hcolon rest

theorem lengthValue?_eq_some_iff {line value : Bytes} :
    lengthValue? line = some value ↔ GivesLength line value := by
  rw [lengthValue?, Option.bind_eq_some_iff]
  constructor
  · rintro ⟨⟨name, rest⟩, hsplit, hvalue⟩
    obtain ⟨rfl, hcolon⟩ := splitColon_eq_some_iff.1 hsplit
    dsimp only at hvalue
    split at hvalue
    · rename_i hname
      cases hvalue
      exact .line hcolon (Bytes.trim_trimmed name) (Bytes.sameLetters_iff.1 hname)
        (Bytes.trim_trimmed rest)
    · cases hvalue
  · rintro ⟨hcolon, hname, hspelled, hvalue⟩
    refine ⟨_, splitColon_eq_some_iff.2 ⟨rfl, hcolon⟩, ?_⟩
    dsimp only
    rw [Bytes.trim_eq_iff.2 hname, if_pos (Bytes.sameLetters_iff.2 hspelled),
      Bytes.trim_eq_iff.2 hvalue]

theorem lengthValue?_eq_none_iff {line : Bytes} :
    lengthValue? line = none ↔ ∀ value, ¬ GivesLength line value := by
  rw [Option.eq_none_iff_forall_ne_some]
  exact forall_congr' fun value => not_congr lengthValue?_eq_some_iff

/-- The first line that gives a length gives it by this value. -/
inductive FirstLength (header value : Bytes) : Prop where
  | line {before after : List Bytes} {line : Bytes} (lines : Lines header (before ++ line :: after))
      (other : ∀ l ∈ before, ∀ v, ¬ GivesLength l v) (gives : GivesLength line value)

/-- No line gives a length. -/
def NoLength (header : Bytes) : Prop :=
  ∃ ls, Lines header ls ∧ ∀ line ∈ ls, ∀ value, ¬ GivesLength line value

theorem findSome?_eq_some_iff {header value : Bytes} :
    (lines header).findSome? lengthValue? = some value ↔ FirstLength header value := by
  rw [List.findSome?_eq_some_iff]
  constructor
  · rintro ⟨before, line, after, hlines, hgives, hother⟩
    exact .line (lines_eq_iff.1 hlines)
      (fun l hl => lengthValue?_eq_none_iff.1 (hother l hl)) (lengthValue?_eq_some_iff.1 hgives)
  · rintro ⟨hlines, hother, hgives⟩
    exact ⟨_, _, _, lines_eq_iff.2 hlines, lengthValue?_eq_some_iff.2 hgives,
      fun l hl => lengthValue?_eq_none_iff.2 (hother l hl)⟩

theorem findSome?_eq_none_iff {header : Bytes} :
    (lines header).findSome? lengthValue? = none ↔ NoLength header := by
  rw [List.findSome?_eq_none_iff]
  constructor
  · intro h
    exact ⟨lines header, lines_lines header, fun l hl => lengthValue?_eq_none_iff.1 (h l hl)⟩
  · rintro ⟨ls, hlines, hother⟩ l hl
    rw [lines_eq_iff.2 hlines] at hl
    exact lengthValue?_eq_none_iff.2 (hother l hl)

theorem Lines.infix_of_mem {header line : Bytes} {ls : List Bytes} (h : Lines header ls)
    (hl : line ∈ ls) : line <:+: header := by
  rw [← h.joined]
  clear h
  induction ls with
  | nil => cases hl
  | cons first more ih =>
    cases more with
    | nil =>
      obtain rfl := List.mem_singleton.1 hl
      simp
    | cons next more =>
      rw [List.intercalate_cons_cons, List.append_assoc]
      rcases List.mem_cons.1 hl with rfl | hl
      · exact (List.prefix_append _ _).isInfix
      · rw [← List.append_assoc]
        exact (ih hl).trans (List.suffix_append _ _).isInfix

theorem Lines.mem {header line : Bytes} {ls : List Bytes} (h : Lines header ls) (hl : line ∈ ls)
    {b : UInt8} (hb : b ∈ line) : b ∈ header :=
  (h.infix_of_mem hl).subset hb

theorem FirstLength.mem {header value : Bytes} (h : FirstLength header value) {b : UInt8}
    (hb : b ∈ value) : b ∈ header := by
  obtain ⟨hlines, _, hgives⟩ := h
  apply hlines.mem (List.mem_append_right _ List.mem_cons_self)
  obtain ⟨_, _, _, hvalue⟩ := hgives
  simp [hvalue.mem hb]

/-! ### The grammar -/

/-- What a header block says. -/
inductive Reads (header : Bytes) : Except Fault Nat → Prop where
  | notAscii {b : UInt8} (member : b ∈ header) (high : 128 ≤ b) : Reads header (.error .notAscii)
  | missing (ascii : ∀ b ∈ header, b < 128) (lines : NoLength header) :
      Reads header (.error .missingLength)
  | invalid {value : Bytes} {text : String} (ascii : ∀ b ∈ header, b < 128)
      (lines : FirstLength header value) (bytes : Bytes.ofString text = value)
      (unfit : value = [] ∨ (∃ b ∈ value, Bytes.isDigit b = false) ∨
        ∃ n, Bytes.Denotes value n ∧ wordLimit ≤ n) : Reads header (.error (.invalidLength text))
  | length {value : Bytes} {n : Nat} (ascii : ∀ b ∈ header, b < 128)
      (lines : FirstLength header value) (denotes : Bytes.Denotes value n) (fits : n < wordLimit) :
      Reads header (.ok n)

theorem parseLength_ok_iff {value : Bytes} {n : Nat} :
    parseLength value = .ok n ↔ Bytes.Denotes value n ∧ n < wordLimit := by
  rw [parseLength, Bytes.denotes_iff]
  split
  · rename_i h
    simp only [Bool.and_eq_true, decide_eq_true_eq, List.all_eq_true] at h
    obtain ⟨⟨hne, hdigits⟩, hfits⟩ := h
    rw [Except.ok.injEq]
    constructor
    · rintro rfl
      exact ⟨⟨hne, hdigits, rfl⟩, hfits⟩
    · exact fun h => h.1.2.2
  · rename_i h
    refine iff_of_false (by simp) ?_
    rintro ⟨⟨hne, hdigits, rfl⟩, hfits⟩
    simp only [Bool.and_eq_true, decide_eq_true_eq, List.all_eq_true] at h
    exact h ⟨⟨hne, hdigits⟩, hfits⟩

theorem parseLength_error_iff {value : Bytes} {fault : Fault} :
    parseLength value = .error fault ↔
      fault = .invalidLength (Bytes.asciiText value) ∧ (value = [] ∨
        (∃ b ∈ value, Bytes.isDigit b = false) ∨ ∃ n, Bytes.Denotes value n ∧ wordLimit ≤ n) := by
  rw [parseLength]
  split
  · rename_i h
    simp only [Bool.and_eq_true, decide_eq_true_eq, List.all_eq_true] at h
    obtain ⟨⟨hne, hdigits⟩, hfits⟩ := h
    refine iff_of_false (by simp) ?_
    rintro ⟨_, hnil | ⟨b, hb, hdigit⟩ | ⟨n, hn, hlarge⟩⟩
    · exact hne hnil
    · simp [hdigits b hb] at hdigit
    · rw [← (Bytes.denotes_iff.1 hn).2.2] at hlarge
      omega
  · rename_i h
    rw [Except.error.injEq, eq_comm, and_iff_left]
    by_cases hne : value = []
    · exact Or.inl hne
    · by_cases hdigits : ∀ b ∈ value, Bytes.isDigit b
      · refine Or.inr (Or.inr ⟨_, Bytes.denotes_decimalValue hne hdigits, Nat.not_lt.1 ?_⟩)
        intro hfits
        exact h (by simp only [ne_eq, hne, not_false_eq_true, decide_true,
          List.all_eq_true.2 hdigits, hfits, Bool.and_self])
      · simp only [not_forall, Bool.not_eq_true] at hdigits
        obtain ⟨b, hb, hdigit⟩ := hdigits
        exact Or.inr (Or.inl ⟨b, hb, hdigit⟩)

theorem ofString_injective {s t : String} (h : Bytes.ofString s = Bytes.ofString t) : s = t := by
  rw [← Text.Lossy.decode_ofString s, h, Text.Lossy.decode_ofString]

theorem any_high_eq_false {header : Bytes} (h : ∀ b ∈ header, b < 128) :
    header.any (128 ≤ ·) = false := by
  rw [List.any_eq_false]
  intro b hb
  simpa using UInt8.not_le.2 (h b hb)

theorem Reads.eq {header : Bytes} {r : Except Fault Nat} (h : Reads header r) :
    contentLength header = r := by
  rw [contentLength]
  cases h with
  | notAscii member high => rw [if_pos (List.any_eq_true.2 ⟨_, member, decide_eq_true high⟩)]
  | missing ascii lines => simp [any_high_eq_false ascii, findSome?_eq_none_iff.2 lines]
  | @invalid value text ascii lines bytes unfit =>
    have htext : text = Bytes.asciiText value := by
      apply ofString_injective
      rw [bytes, Bytes.ofString_asciiText fun b hb => ascii b (lines.mem hb)]
    simp [any_high_eq_false ascii, findSome?_eq_some_iff.2 lines,
      parseLength_error_iff.2 ⟨rfl, unfit⟩, htext]
  | length ascii lines denotes fits =>
    simp [any_high_eq_false ascii, findSome?_eq_some_iff.2 lines,
      parseLength_ok_iff.2 ⟨denotes, fits⟩]

theorem exists_reads (header : Bytes) : ∃ r, Reads header r := by
  by_cases hascii : ∀ b ∈ header, b < 128
  · cases hfind : (lines header).findSome? lengthValue? with
    | none => exact ⟨_, .missing hascii (findSome?_eq_none_iff.1 hfind)⟩
    | some value =>
      have hfirst := findSome?_eq_some_iff.1 hfind
      cases hparse : parseLength value with
      | ok n =>
        obtain ⟨hn, hfits⟩ := parseLength_ok_iff.1 hparse
        exact ⟨_, .length hascii hfirst hn hfits⟩
      | error fault =>
        obtain ⟨_, hunfit⟩ := parseLength_error_iff.1 hparse
        have hbytes := Bytes.ofString_asciiText fun b hb => hascii b (hfirst.mem hb)
        exact ⟨_, .invalid hascii hfirst hbytes hunfit⟩
  · simp only [not_forall, UInt8.not_lt] at hascii
    obtain ⟨b, hb, hhigh⟩ := hascii
    exact ⟨_, .notAscii hb hhigh⟩

theorem GivesLength.length_lt {line value : Bytes} (h : GivesLength line value) :
    lengthName.length + value.length < line.length := by
  obtain ⟨_, hname, hspelled, hvalue⟩ := h
  have hbare := hname.length_le
  have hrest := hvalue.length_le
  rw [hspelled.length_eq] at hbare
  rw [List.length_append, List.length_cons]
  omega

/-- A length takes a name, a colon and at least one digit. -/
theorem Reads.length_le {header : Bytes} {n : Nat} (h : Reads header (.ok n)) :
    16 ≤ header.length := by
  cases h with
  | @length value _ ascii lines denotes fits =>
    obtain ⟨hlines, _, hgives⟩ := lines
    have hline := (hlines.infix_of_mem (List.mem_append_right _ List.mem_cons_self)).length_le
    have hname : lengthName.length = 14 := by decide
    have hdigits : 0 < value.length := List.length_pos_of_ne_nil (Bytes.denotes_iff.1 denotes).1
    have hgives := hgives.length_lt
    omega

/-- A header block is read just as its grammar says. -/
theorem contentLength_eq_iff {header : Bytes} {r : Except Fault Nat} :
    contentLength header = r ↔ Reads header r := by
  constructor
  · rintro rfl
    obtain ⟨r, hr⟩ := exists_reads header
    rwa [hr.eq]
  · exact Reads.eq

/-- Blanks, letters in both cases and zeros in front, with a second length behind that is none. -/
example : contentLength
    (Bytes.ofString "Age: 1\r\n CONTENT-length\t:  007\r\nContent-Length: x") = .ok 7 := by
  decide

end HoverServer.Frame
