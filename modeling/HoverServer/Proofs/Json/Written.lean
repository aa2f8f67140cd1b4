import HoverServer.Proofs.Json.RoundTrip
import HoverServer.Proofs.Json.Token

/-! Objects as they are written: one entry after the other, each with the characters of its value.
A text is read as an object if and only if there are such entries in it, and of several entries of
one name the last one counts. -/
namespace HoverServer.Json

/-- A member as it is written: its name, the characters of its value, and what they are read as. -/
structure Entry where
  name : String
  source : List Char
  value : Json

namespace Entry

def member (e : Entry) : String × Json := (e.name, e.value)

/-- Of several entries of one name the last one counts. -/
def last? (es : List Entry) (name : String) : Option Entry := es.reverse.find? (·.name = name)

def value? (es : List Entry) (name : String) : Option Json := (last? es name).map value

theorem get?_map_member (es : List Entry) (name : String) :
    Members.get? (es.map member) name = (es.find? (·.name = name)).map value := by
  induction es with
  | nil => rfl
  | cons e es ih =>
    rw [List.map_cons, List.find?_cons]
    by_cases h : e.name = name
    · simp [member, Members.get?_cons, h]
    · simp [member, Members.get?_cons, h, Ne.symm h, ih]

/-- The members that a reader puts in their places say the same as the entries. -/
theorem get?_place (es : List Entry) (name : String) :
    Members.get? (Members.place [] (es.map member)) name = value? es name := by
  rw [Members.get?_place, ← List.map_reverse, get?_map_member]
  exact Option.or_none

end Entry

namespace Reader

/-! ### One step of a reader -/

/-- The way to the next part of a list, behind a comma unless the part is the first. -/
inductive Next : Bool → List Char → List Char → Prop where
  | first {s t : List Char} (blanks : skipBlanks s = t) : Next true s t
  | later {s t u : List Char} (comma : skipBlanks s = ',' :: t) (blanks : skipBlanks t = u) :
      Next false s u

theorem skipBlanks_suffix (s : List Char) : skipBlanks s <:+ s := List.dropWhile_suffix _

theorem suffix_of_skipBlanks {s t : List Char} (h : skipBlanks s = t) : t <:+ s :=
  h ▸ skipBlanks_suffix s

theorem Next.suffix {first : Bool} {s t : List Char} (h : Next first s t) : t <:+ s := by
  cases h with
  | first blanks => exact suffix_of_skipBlanks blanks
  | later comma blanks =>
    have hcomma := (List.suffix_cons _ _).trans (suffix_of_skipBlanks comma)
    exact (suffix_of_skipBlanks blanks).trans hcomma

variable {item inner : List Char → Reading Json} {first : Bool} {budget : Nat}
  {s r : List Char} {v : Json}

/-- An item with those behind it, as a list is read. -/
theorem more_items_cases {t : List Char} {vs : List Json}
    (h : (match item t with
      | .error stop => .error stop
      | .ok (v, u) => (items item false budget u).map fun (ws, r) => (v :: ws, r)) =
        (.ok (vs, r) : Reading (List Json))) :
    ∃ v u ws, item t = .ok (v, u) ∧ items item false budget u = .ok (ws, r) ∧ vs = v :: ws := by
  split at h
  · cases h
  · rename_i v u hitem
    cases hitems : items item false budget u with
    | error stop =>
      rw [hitems] at h
      cases h
    | ok rest =>
      rw [hitems] at h
      cases h
      exact ⟨v, u, rest.1, hitem, hitems, rfl⟩

theorem items_cases {vs : List Json} (h : items item first (budget + 1) s = .ok (vs, r)) :
    (skipBlanks s = ']' :: r ∧ vs = []) ∨
      ∃ t v u ws, Next first s t ∧ item t = .ok (v, u) ∧
        items item false budget u = .ok (ws, r) ∧ vs = v :: ws := by
  rw [items] at h
  cases hs : skipBlanks s with
  | nil =>
    rw [hs] at h
    cases h
  | cons c t =>
    rw [hs] at h
    simp only at h
    split at h
    · rename_i hc
      cases h
      exact Or.inl ⟨by rw [hc], rfl⟩
    · right
      split at h
      · rename_i hfirst
        subst hfirst
        obtain ⟨v, u, ws, h⟩ := more_items_cases h
        exact ⟨_, v, u, ws, .first hs, h⟩
      · rename_i hfirst
        rw [Bool.not_eq_true] at hfirst
        subst hfirst
        split at h
        · rename_i hc
          rw [hc] at hs
          cases ht : skipBlanks t with
          | nil =>
            rw [ht] at h
            cases h
          | cons d t' =>
            rw [ht] at h
            simp only at h
            split at h
            · cases h
            · obtain ⟨v, u, ws, h⟩ := more_items_cases h
              exact ⟨_, v, u, ws, .later hs ht, h⟩
        · cases h

theorem memberValue_cases (h : memberValue item s = .ok (v, r)) :
    ∃ t, skipBlanks s = ':' :: t ∧ item t = .ok (v, r) := by
  rw [memberValue] at h
  split at h
  · cases h
  · rename_i c t hs
    split at h
    · rename_i hc
      exact ⟨t, by rw [hs, hc], h⟩
    · cases h

/-- A member with those behind it, from behind the quote that opens its name. -/
theorem more_members_cases {t : List Char} {read ms : Members}
    (h : (match stringRest [] t with
      | .error stop => .error stop
      | .ok (name, u) =>
        match memberValue item u with
        | .error stop => .error stop
        | .ok (v, x) => members item false (read.insert name v) budget x) =
          (.ok (ms, r) : Reading Members)) :
    ∃ name u w v x, stringRest [] t = .ok (name, u) ∧ skipBlanks u = ':' :: w ∧
      item w = .ok (v, x) ∧ members item false (read.insert name v) budget x = .ok (ms, r) := by
  split at h
  · cases h
  · rename_i name u hname
    split at h
    · cases h
    · rename_i v x hvalue
      obtain ⟨w, hcolon, hitem⟩ := memberValue_cases hvalue
      exact ⟨name, u, w, v, x, hname, hcolon, hitem, h⟩

theorem members_cases {read ms : Members}
    (h : members item first read (budget + 1) s = .ok (ms, r)) :
    (skipBlanks s = '\x7d' :: r ∧ ms = read) ∨
      ∃ t name u w v x, Next first s ('"' :: t) ∧ stringRest [] t = .ok (name, u) ∧
        skipBlanks u = ':' :: w ∧ item w = .ok (v, x) ∧
        members item false (read.insert name v) budget x = .ok (ms, r) := by
  rw [members] at h
  cases hs : skipBlanks s with
  | nil =>
    rw [hs] at h
    cases h
  | cons c t =>
    rw [hs] at h
    simp only at h
    split at h
    · rename_i hc
      cases h
      exact Or.inl ⟨by rw [hc], rfl⟩
    · right
      split at h
      · rename_i hfirst
        subst hfirst
        split at h
        · rename_i hc
          rw [hc] at hs
          obtain ⟨name, u, w, v, x, h⟩ := more_members_cases h
          exact ⟨t, name, u, w, v, x, .first hs, h⟩
        · cases h
      · rename_i hfirst
        rw [Bool.not_eq_true] at hfirst
        subst hfirst
        split at h
        · rename_i hc
          rw [hc] at hs
          cases ht : skipBlanks t with
          | nil =>
            rw [ht] at h
            cases h
          | cons d t' =>
            rw [ht] at h
            simp only at h
            split at h
            · rename_i hd
              rw [hd] at ht
              obtain ⟨name, u, w, v, x, h⟩ := more_members_cases h
              exact ⟨t', name, u, w, v, x, .later hs ht, h⟩
            · split at h <;> cases h
        · cases h

/-! ### The entries of an object -/

/-- The entries that stand in a text up to a closing bracket, and what is left behind it. -/
inductive Entries (item : List Char → Reading Json) :
    Bool → List Char → List Entry → List Char → Prop where
  | close {first : Bool} {s r : List Char} (bracket : skipBlanks s = '\x7d' :: r) :
      Entries item first s [] r
  | entry {first : Bool} {s t u w x r : List Char} {e : Entry} {es : List Entry}
      (next : Next first s ('"' :: t)) (name : stringRest [] t = .ok (e.name, u))
      (colon : skipBlanks u = ':' :: w) (source : skipBlanks w = e.source ++ x)
      (value : item w = .ok (e.value, x)) (more : Entries item false x es r) :
      Entries item first s (e :: es) r

/-- What an item reader gives is in order, and it leaves an end of the text. -/
def Sound (item : List Char → Reading Json) : Prop :=
  ∀ s v r, item s = .ok (v, r) → v.Ordered ∧ r <:+ skipBlanks s

theorem Sound.items (h : Sound item) {vs : List Json}
    (hitems : items item first budget s = .ok (vs, r)) : (∀ v ∈ vs, v.Ordered) ∧ r <:+ s := by
  induction budget generalizing first s vs with
  | zero => cases hitems
  | succ budget ih =>
    obtain ⟨hclose, rfl⟩ | ⟨t, v, u, ws, hnext, hitem, hmore, rfl⟩ := items_cases hitems
    · exact ⟨by simp, (List.suffix_cons _ _).trans (suffix_of_skipBlanks hclose)⟩
    · obtain ⟨hv, hu⟩ := h t v u hitem
      obtain ⟨hws, hr⟩ := ih hmore
      refine ⟨List.forall_mem_cons.2 ⟨hv, hws⟩, ?_⟩
      exact hr.trans (hu.trans ((skipBlanks_suffix t).trans hnext.suffix))

/-- Every object that is read has its entries. -/
theorem Sound.entries (h : Sound item) {read ms : Members}
    (hmembers : members item first read budget s = .ok (ms, r)) :
    ∃ es, Entries item first s es r ∧ ms = read.place (es.map Entry.member) := by
  induction budget generalizing first s read with
  | zero => cases hmembers
  | succ budget ih =>
    obtain ⟨hclose, rfl⟩ | ⟨t, name, u, w, v, x, hnext, hname, hcolon, hitem, hmore⟩ :=
      members_cases hmembers
    · exact ⟨[], .close hclose, rfl⟩
    · obtain ⟨es, hes, rfl⟩ := ih hmore
      obtain ⟨source, hsource⟩ := (h w v x hitem).2
      exact ⟨⟨name, source, v⟩ :: es, .entry hnext hname hcolon hsource.symm hitem hes, rfl⟩

theorem Entries.ordered {es : List Entry} (he : Entries item first s es r) (h : Sound item) :
    ∀ e ∈ es, e.value.Ordered := by
  induction he with
  | close _ => simp
  | entry _ _ _ _ value _ ih => exact List.forall_mem_cons.2 ⟨(h _ _ _ value).1, ih⟩

/-- Every entry takes some of the text. -/
theorem Entries.length_lt {es : List Entry} (he : Entries item first s es r) :
    es.length + r.length < s.length := by
  induction he with
  | close bracket =>
    have := (suffix_of_skipBlanks bracket).length_le
    simp only [List.length_cons, List.length_nil] at this ⊢
    omega
  | @entry _ s t u w x _ e _ next name colon source _ _ ih =>
    have hquote := next.suffix.length_le
    have hname := (stringRest_suffix name).length_le
    have hcolon := (suffix_of_skipBlanks colon).length_le
    have hsource := (suffix_of_skipBlanks source).length_le
    simp only [List.length_cons, List.length_append] at hquote hcolon hsource ⊢
    omega

theorem Entries.suffix {es : List Entry} (he : Entries item first s es r) : r <:+ s := by
  induction he with
  | close bracket => exact (List.suffix_cons _ _).trans (suffix_of_skipBlanks bracket)
  | @entry _ s t u w x _ e _ next name colon source _ _ ih =>
    have hx : x <:+ w := (List.suffix_append e.source x).trans (suffix_of_skipBlanks source)
    have hw : w <:+ t :=
      ((List.suffix_cons _ w).trans (suffix_of_skipBlanks colon)).trans (stringRest_suffix name)
    exact ih.trans (hx.trans (hw.trans ((List.suffix_cons _ t).trans next.suffix)))

/-- Where there are entries, a reader puts them in their places. -/
theorem Entries.members_eq {es : List Entry} (he : Entries item first s es r)
    (hb : es.length < budget) (read : Members) :
    members item first read budget s = .ok (read.place (es.map Entry.member), r) := by
  induction he generalizing budget read with
  | close bracket =>
    obtain ⟨budget, rfl⟩ : ∃ k, budget = k + 1 := ⟨budget - 1, by omega⟩
    rw [members, bracket]
    rfl
  | @entry _ _ _ u w _ _ e _ next name colon _ value _ ih =>
    obtain ⟨budget, rfl⟩ : ∃ k, budget = k + 1 := ⟨budget - 1, by omega⟩
    have hvalue : memberValue item u = item w := by
      rw [memberValue, colon]
      rfl
    have hmore := ih (Nat.lt_of_succ_lt_succ hb) (read.insert e.name e.value)
    rw [members]
    cases next with
    | first blanks =>
      simp only [blanks, name, hvalue, value, hmore]
      rfl
    | later comma blanks =>
      simp only [comma, blanks, name, hvalue, value, hmore]
      rfl

theorem Next.unique {t u : List Char} (h : Next first s t) (h' : Next first s u) : t = u := by
  cases h with
  | first blanks =>
    cases h' with
    | first blanks' => exact blanks.symm.trans blanks'
  | later comma blanks =>
    cases h' with
    | later comma' blanks' =>
      cases comma.symm.trans comma'
      exact blanks.symm.trans blanks'

theorem Next.not_close {t : List Char} (h : Next first s ('"' :: t)) (u : List Char) :
    skipBlanks s ≠ '\x7d' :: u := by
  intro hclose
  cases h with
  | first blanks => cases blanks.symm.trans hclose
  | later comma _ => cases comma.symm.trans hclose

/-- There are no two ways to take a text apart. -/
theorem Entries.unique {es es' : List Entry} {r' : List Char} (h : Entries item first s es r)
    (h' : Entries item first s es' r') : es = es' ∧ r = r' := by
  induction h generalizing es' r' with
  | close bracket =>
    cases h' with
    | close bracket' =>
      cases bracket.symm.trans bracket'
      exact ⟨rfl, rfl⟩
    | entry next' => exact absurd bracket (next'.not_close _)
  | @entry _ _ _ _ _ _ _ e es next name colon source value more ih =>
    cases h' with
    | close bracket' => exact absurd bracket' (next.not_close _)
    | @entry _ _ _ _ _ _ _ e' es' next' name' colon' source' value' more' =>
      cases next.unique next'
      obtain ⟨ename, esource, evalue⟩ := e
      obtain ⟨ename', esource', evalue'⟩ := e'
      cases name.symm.trans name'
      cases colon.symm.trans colon'
      cases value.symm.trans value'
      obtain ⟨rfl, rfl⟩ := ih more'
      have hsource : esource = esource' := List.append_cancel_right (source.symm.trans source')
      exact ⟨by rw [hsource], rfl⟩

theorem continuesNumber_of_skipBlanks {c : Char} {t : List Char} (h : skipBlanks s = c :: t)
    (hc : continuesNumber (c :: t) = false) : continuesNumber s = false := by
  cases s with
  | nil => rfl
  | cons d s =>
    cases hd : isBlank d with
    | false =>
      rw [skipBlanks_of_front hd] at h
      rw [h]
      exact hc
    | true =>
      simp only [isBlank, Bool.or_eq_true, decide_eq_true_eq] at hd
      rcases hd with ((rfl | rfl) | rfl) | rfl <;> rfl

/-- No number goes on behind the value of an entry. -/
theorem Entries.ends {es : List Entry} (h : Entries item false s es r) :
    continuesNumber s = false := by
  cases h with
  | close bracket => exact continuesNumber_of_skipBlanks bracket rfl
  | entry next =>
    cases next with
    | later comma _ => exact continuesNumber_of_skipBlanks comma rfl

/-- The characters of an entry are those that its value was read from. -/
theorem Entries.of_mem {es : List Entry} (h : Entries item first s es r) {e : Entry}
    (he : e ∈ es) : ∃ w x, skipBlanks w = e.source ++ x ∧ item w = .ok (e.value, x) ∧
      continuesNumber x = false := by
  induction h with
  | close _ => cases he
  | entry _ _ _ source value more ih =>
    rcases List.mem_cons.1 he with rfl | he
    · exact ⟨_, _, source, value, more.ends⟩
    · exact ih he

/-! ### Values -/

theorem skipBlanks_skipBlanks (s : List Char) : skipBlanks (skipBlanks s) = skipBlanks s := by
  induction s with
  | nil => rfl
  | cons c s ih =>
    cases hc : isBlank c with
    | false => rw [skipBlanks_of_front hc, skipBlanks_of_front hc]
    | true =>
      have hskip : skipBlanks (c :: s) = skipBlanks s := List.dropWhile_cons_of_pos hc
      rw [hskip, ih]

theorem value_skipBlanks (budget depth : Nat) (s : List Char) :
    value budget depth (skipBlanks s) = value budget depth s := by
  obtain ⟨inner, hinner⟩ := value_eq budget depth
  rw [hinner, valueWith, valueWith, skipBlanks_skipBlanks]

/-- What a text can begin with that is a value: a word, a number, a string or a container. -/
inductive Begins (inner : List Char → Reading Json) : List Char → Json → List Char → Prop where
  | null (r : List Char) : Begins inner ('n' :: 'u' :: 'l' :: 'l' :: r) .null r
  | true (r : List Char) : Begins inner ('t' :: 'r' :: 'u' :: 'e' :: r) (.bool true) r
  | false (r : List Char) :
      Begins inner ('f' :: 'a' :: 'l' :: 's' :: 'e' :: r) (.bool false) r
  | negative {s r : List Char} {n : Number} (h : number true s = .ok (n, r)) :
      Begins inner ('-' :: s) (.number n) r
  | positive {s r : List Char} {n : Number} (h : number false s = .ok (n, r)) :
      Begins inner s (.number n) r
  | string {s r : List Char} {t : String} (h : stringRest [] s = .ok (t, r)) :
      Begins inner ('"' :: s) (.string t) r
  | inner {c : Char} {s r : List Char} {v : Json} (bracket : c = '[' ∨ c = '\x7b')
      (h : inner (c :: s) = .ok (v, r)) : Begins inner (c :: s) v r

theorem ok_of_map {α β : Type} {got : Except Stop α} {f : α → β} {b : β}
    (h : got.map f = .ok b) : ∃ a, got = .ok a ∧ f a = b := by
  cases got with
  | error stop => cases h
  | ok a => exact ⟨a, rfl, Except.ok.inj h⟩

theorem word_cases {es : List Char} {w : Json}
    (h : (word es s).map (fun u => (w, u)) = .ok (v, r)) : s = es ++ r ∧ v = w := by
  obtain ⟨u, hword, h⟩ := ok_of_map h
  cases h
  exact ⟨word_eq hword, rfl⟩

theorem valueWith_begins (h : valueWith inner s = .ok (v, r)) :
    Begins inner (skipBlanks s) v r := by
  rw [valueWith] at h
  cases hs : skipBlanks s with
  | nil =>
    rw [hs] at h
    cases h
  | cons c t =>
    rw [hs] at h
    simp only at h
    split at h
    · rename_i hc
      obtain ⟨ht, hv⟩ := word_cases h
      rw [hc, ht, hv]
      exact .null r
    split at h
    · rename_i hc
      obtain ⟨ht, hv⟩ := word_cases h
      rw [hc, ht, hv]
      exact .true r
    split at h
    · rename_i hc
      obtain ⟨ht, hv⟩ := word_cases h
      rw [hc, ht, hv]
      exact .false r
    split at h
    · rename_i hc
      obtain ⟨⟨n, u⟩, hnumber, h⟩ := ok_of_map h
      cases h
      rw [hc]
      exact .negative hnumber
    split at h
    · obtain ⟨⟨n, u⟩, hnumber, h⟩ := ok_of_map h
      cases h
      exact .positive hnumber
    split at h
    · rename_i hc
      obtain ⟨⟨t, u⟩, hstring, h⟩ := ok_of_map h
      cases h
      rw [hc]
      exact .string hstring
    split at h
    · rename_i hc
      simp only [Bool.or_eq_true, decide_eq_true_eq] at hc
      exact .inner hc h
    · cases h

/-- Containers are in order, and what is left behind one is an end of the text. -/
theorem Sound.container (h : Sound item) (hc : container item budget s = .ok (v, r)) :
    v.Ordered ∧ r <:+ s := by
  cases s with
  | nil => cases hc
  | cons c s =>
    rw [Reader.container] at hc
    split at hc
    · obtain ⟨⟨vs, u⟩, hitems, hc⟩ := ok_of_map hc
      cases hc
      obtain ⟨hvs, hr⟩ := h.items hitems
      exact ⟨.array hvs, hr.trans (List.suffix_cons c s)⟩
    · obtain ⟨⟨ms, u⟩, hmembers, hc⟩ := ok_of_map hc
      cases hc
      obtain ⟨es, hes, rfl⟩ := h.entries hmembers
      refine ⟨.object (Members.sorted_place List.Pairwise.nil _) ?_,
        hes.suffix.trans (List.suffix_cons c s)⟩
      intro m hm
      have hplaced := (Members.of_mem_place hm).resolve_left List.not_mem_nil
      obtain ⟨e, he, rfl⟩ := List.mem_map.1 hplaced
      exact hes.ordered h e he

theorem NumberRead.suffix {negative : Bool} {n : Number} (h : NumberRead negative s n r) :
    r <:+ s := by
  cases h with
  | real _ left => exact left
  | whole w _ digits => exact ⟨_, digits.symm⟩

theorem valueWith_sound (h : ∀ s v r, inner s = .ok (v, r) → v.Ordered ∧ r <:+ s) :
    Sound (valueWith inner) := by
  intro s v r hread
  have hbegins := valueWith_begins hread
  generalize skipBlanks s = t at hbegins ⊢
  cases hbegins with
  | null => exact ⟨.null, ⟨['n', 'u', 'l', 'l'], rfl⟩⟩
  | true => exact ⟨.bool true, ⟨['t', 'r', 'u', 'e'], rfl⟩⟩
  | false => exact ⟨.bool false, ⟨['f', 'a', 'l', 's', 'e'], rfl⟩⟩
  | negative hn => exact ⟨.number _, (number_read hn).suffix.trans (List.suffix_cons _ _)⟩
  | positive hn => exact ⟨.number _, (number_read hn).suffix⟩
  | string hs => exact ⟨.string _, (stringRest_suffix hs).trans (List.suffix_cons _ _)⟩
  | inner _ hv => exact h _ v r hv

theorem value_sound (budget depth : Nat) : Sound (value budget depth) := by
  induction depth with
  | zero => exact valueWith_sound fun _ _ _ h => nomatch h
  | succ depth ih => exact valueWith_sound fun _ _ _ h => ih.container h

/-- A whole number was written with its own digits. -/
theorem value_whole {depth : Nat} {w : Whole}
    (h : value budget depth s = .ok (.number (.whole w), r)) :
    skipBlanks s = Number.wholeChars w.value ++ r := by
  -- No container is a number, so of all beginnings only the two numeric ones are left.
  have hcontainer {t u : List Char} (item : List Char → Reading Json) (w : Whole) :
      container item budget t ≠ .ok (.number (.whole w), u) := by
    intro hc
    cases t with
    | nil => cases hc
    | cons c t =>
      rw [container] at hc
      split at hc <;> obtain ⟨_, _, hc⟩ := ok_of_map hc <;> cases hc
  obtain ⟨inner, hvalue, hinner⟩ : ∃ inner, value budget depth = valueWith inner ∧
      ∀ t u, inner t ≠ .ok (.number (.whole w), u) := by
    cases depth with
    | zero =>
      refine ⟨_, rfl, ?_⟩
      intro t u hinner
      cases hinner
    | succ depth => exact ⟨_, rfl, fun _ _ => hcontainer _ w⟩
  rw [hvalue] at h
  have hbegins := valueWith_begins h
  generalize skipBlanks s = t at hbegins ⊢
  cases hbegins with
  | negative hn =>
    cases number_read hn with
    | whole _ sign digits =>
      rw [Number.wholeChars, if_pos (of_decide_eq_true sign.symm), digits, List.cons_append]
  | positive hn =>
    cases number_read hn with
    | whole _ sign digits =>
      rw [Number.wholeChars, if_neg (of_decide_eq_false sign.symm), digits]
  | inner _ hv => exact absurd hv (hinner _ r)

/-- A number is written as it was read if it is whole, and else if it was in its shortest form. -/
theorem chars_eq_iff {depth : Nat} {token : List Char} {n : Number}
    (h : value budget depth s = .ok (.number n, r)) (hs : skipBlanks s = token ++ r)
    (hr : continuesNumber r = false) :
    n.chars = token ↔ (∃ w : Whole, token = Number.wholeChars w.value) ∨
      ∃ x, n = .real x ∧ token = Number.realChars x := by
  cases n with
  | whole w =>
    have htoken : token = Number.wholeChars w.value :=
      List.append_cancel_right (hs.symm.trans (value_whole h))
    exact iff_of_true htoken.symm (Or.inl ⟨w, htoken⟩)
  | real x =>
    constructor
    · intro hchars
      exact Or.inr ⟨x, rfl, hchars.symm⟩
    · rintro (⟨w, rfl⟩ | ⟨y, hy, rfl⟩)
      · obtain ⟨inner, hinner⟩ := value_eq budget depth
        rw [← value_skipBlanks, hs, hinner, valueWith_whole inner w hr] at h
        cases h
      · cases hy
        rfl

end Reader

/-- The entries of a text that is an object and nothing else but blanks. -/
def Written (text : String) (es : List Entry) : Prop :=
  ∃ s r, Reader.skipBlanks text.toList = '\x7b' :: s ∧
    Reader.Entries (Reader.value text.toList.length (Reader.maxDepth - 1)) true s es r ∧
    Reader.skipBlanks r = []

theorem parse_ok_iff {text : String} {v : Json} :
    parse text = .ok v ↔
      ∃ r, Reader.value text.toList.length Reader.maxDepth text.toList = .ok (v, r) ∧
        Reader.skipBlanks r = [] := by
  rw [parse, Reader.document]
  cases Reader.value text.toList.length Reader.maxDepth text.toList with
  | error stop => simp
  | ok got =>
    obtain ⟨w, r⟩ := got
    cases hr : Reader.skipBlanks r with
    | nil =>
      simp only [hr]
      constructor
      · intro h
        cases h
        exact ⟨r, rfl, hr⟩
      · rintro ⟨r', h, _⟩
        cases h
        rfl
    | cons c t =>
      simp only [hr]
      constructor
      · intro h
        cases h
      · rintro ⟨r', h, hr'⟩
        cases h
        cases hr.symm.trans hr'

/-- Objects that come out of a text have their members in order. -/
theorem parse_ordered {text : String} {v : Json} (h : parse text = .ok v) : v.Ordered := by
  obtain ⟨r, hv, _⟩ := parse_ok_iff.1 h
  exact (Reader.value_sound _ _ _ _ _ hv).1

theorem Reader.value_object_iff {budget depth : Nat} {s r : List Char} {ms : Members}
    (hb : s.length ≤ budget) :
    value budget (depth + 1) s = .ok (.object ms, r) ↔
      ∃ t es, skipBlanks s = '\x7b' :: t ∧ Entries (value budget depth) true t es r ∧
        ms = Members.place [] (es.map Entry.member) := by
  constructor
  · intro h
    have hbegins := valueWith_begins h
    generalize skipBlanks s = t at hbegins ⊢
    cases hbegins with
    | inner bracket hc =>
      rw [container] at hc
      rcases bracket with rfl | rfl
      · obtain ⟨_, _, hc⟩ := ok_of_map hc
        cases hc
      · obtain ⟨⟨ns, u⟩, hmembers, hc⟩ := ok_of_map hc
        cases hc
        obtain ⟨es, hes, hms⟩ := (value_sound budget depth).entries hmembers
        exact ⟨_, es, rfl, hes, hms⟩
  · rintro ⟨t, es, hs, hes, rfl⟩
    -- The budget is as long as the text, and every entry takes some of that.
    have hlength := (suffix_of_skipBlanks hs).length_le
    have hcount := hes.length_lt
    rw [List.length_cons] at hlength
    rw [value, valueWith, hs]
    exact congrArg (Except.map _) (hes.members_eq (by omega) [])

/-- A text is read as an object if and only if it is written as one. -/
theorem parse_object_iff {text : String} {ms : Members} :
    parse text = .ok (.object ms) ↔
      ∃ es, Written text es ∧ ms = Members.place [] (es.map Entry.member) := by
  rw [parse_ok_iff]
  constructor
  · rintro ⟨r, hv, hr⟩
    obtain ⟨t, es, hs, hes, hms⟩ := (Reader.value_object_iff (Nat.le_refl _)).1 hv
    exact ⟨es, ⟨t, r, hs, hes, hr⟩, hms⟩
  · rintro ⟨es, ⟨t, r, hs, hes, hr⟩, hms⟩
    exact ⟨r, (Reader.value_object_iff (Nat.le_refl _)).2 ⟨t, es, hs, hes, hms⟩, hr⟩

theorem Written.unique {text : String} {es es' : List Entry} (h : Written text es)
    (h' : Written text es') : es = es' := by
  obtain ⟨s, r, hs, hes, _⟩ := h
  obtain ⟨s', r', hs', hes', _⟩ := h'
  cases hs.symm.trans hs'
  exact (hes.unique hes').1

end HoverServer.Json
