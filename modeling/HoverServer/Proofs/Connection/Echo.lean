import HoverServer.Proofs.Connection.Answers
import HoverServer.Proofs.Json.Written

/-! The number that a request has for an id against the one that its response has. A whole number
of 64 bits comes back with the very characters it was sent with. Any other number is rounded to a
double and comes back in the shortest form of that, whatever it looked like before. -/
namespace HoverServer

namespace Number

/-- The characters that a number can be written with. -/
def isTokenChar (c : Char) : Bool := c.isDigit || ['-', '+', '.', 'e'].contains c

theorem isTokenChar_digit {n : Nat} {c : Char} (h : c ∈ Nat.toDigits 10 n) : isTokenChar c := by
  rw [isTokenChar, Decimal.isDigit_toDigits h]
  rfl

theorem isTokenChar_zeros {n : Int} {c : Char} (h : c ∈ zeros n) : isTokenChar c := by
  rw [List.eq_of_mem_replicate h]
  rfl

variable {digits : List Char} (h : ∀ c ∈ digits, isTokenChar c)
include h

theorem isTokenChar_positional (exponent : Int) :
    ∀ c ∈ positional digits exponent, isTokenChar c := by
  have hzero : isTokenChar '0' := rfl
  have hpoint : isTokenChar '.' := rfl
  have htake (k : Nat) : ∀ c ∈ digits.take k, isTokenChar c :=
    fun c hc => h c (List.mem_of_mem_take hc)
  have hdrop (k : Nat) : ∀ c ∈ digits.drop k, isTokenChar c :=
    fun c hc => h c (List.mem_of_mem_drop hc)
  have hzeros (k : Int) : ∀ c ∈ zeros k, isTokenChar c := fun _ => isTokenChar_zeros
  rw [positional]
  split
  · simp only [List.forall_mem_cons, List.forall_mem_append]
    exact ⟨hzero, hpoint, hzeros _, h⟩
  · simp only [List.forall_mem_cons, List.forall_mem_append]
    refine ⟨⟨htake _, hzeros _⟩, hpoint, ?_⟩
    split
    · simpa using hzero
    · exact hdrop _

theorem isTokenChar_scientific (exponent : Int) :
    ∀ c ∈ scientific digits exponent, isTokenChar c := by
  rw [scientific]
  simp only [List.forall_mem_cons, List.forall_mem_append]
  refine ⟨⟨fun c hc => h c (List.mem_of_mem_take hc), ?_⟩, rfl, ?_, fun _ => isTokenChar_digit⟩
  · split
    · simp
    · exact List.forall_mem_cons.2 ⟨rfl, fun c hc => h c (List.mem_of_mem_drop hc)⟩
  · split <;> rfl

omit h

theorem isTokenChar_chars (n : Number) : ∀ c ∈ n.chars, isTokenChar c := by
  cases n with
  | whole w =>
    rw [chars, wholeChars]
    split
    · exact List.forall_mem_cons.2 ⟨rfl, fun _ => isTokenChar_digit⟩
    · exact fun _ => isTokenChar_digit
  | real x =>
    have hsign (b : Prop) [Decidable b] : ∀ c ∈ if b then [] else ['-'], isTokenChar c := by
      split <;> simp [isTokenChar]
    rw [chars, realChars]
    dsimp only
    split
    · exact List.forall_mem_append.2 ⟨hsign _, by simp [isTokenChar]⟩
    · refine List.forall_mem_append.2 ⟨hsign _, ?_⟩
      split
      · exact isTokenChar_positional (fun _ => isTokenChar_digit) _
      · exact isTokenChar_scientific (fun _ => isTokenChar_digit) _

theorem comma_not_mem_chars (n : Number) : ',' ∉ n.chars := by
  intro h
  have := n.isTokenChar_chars ',' h
  exact absurd this (by decide)

end Number

/-- The id of a text that is an object is written with these characters. -/
def Message.IdWritten (text : String) (token : List Char) : Prop :=
  ∃ es e, Json.Written text es ∧ Json.Entry.last? es "id" = some e ∧ e.source = token

/-- The id of an encoded response is written with these characters. -/
def Response.IdWritten (body : String) (token : List Char) : Prop :=
  ',' ∉ token ∧
    ∃ rest, body.toList = "\x7b\"jsonrpc\":\"2.0\",\"id\":".toList ++ (token ++ ',' :: rest)

/-- The id of a request has one written form in its text. -/
theorem Message.idWritten_of_idOf {text : String} {id : Id} (h : idOf text = some id) :
    ∃ e es, Json.Written text es ∧ e ∈ es ∧ Json.Entry.last? es "id" = some e ∧
      Id.ofJson? e.value = some id := by
  rw [idOf] at h
  cases hparse : Json.parse text with
  | error e =>
    rw [hparse] at h
    cases h
  | ok v =>
    rw [hparse] at h
    cases v with
    | object ms =>
      obtain ⟨es, hes, rfl⟩ := Json.parse_object_iff.1 hparse
      simp only [usableId, Json.Entry.get?_place, Json.Entry.value?] at h
      cases hlast : Json.Entry.last? es "id" with
      | none =>
        rw [hlast] at h
        cases h
      | some e =>
        rw [hlast] at h
        have he : e ∈ es := List.mem_reverse.1 (List.mem_of_find?_eq_some hlast)
        exact ⟨e, es, hes, he, hlast, h⟩
    | _ => cases h

theorem Message.IdWritten.unique {text : String} {token other : List Char}
    (h : IdWritten text token) (h' : IdWritten text other) : other = token := by
  obtain ⟨es, e, hes, he, rfl⟩ := h
  obtain ⟨es', e', hes', he', rfl⟩ := h'
  cases hes.unique hes'
  cases he.symm.trans he'
  rfl

theorem Response.IdWritten.unique {body : String} {token other : List Char}
    (h : IdWritten body token) (h' : IdWritten body other) : token = other := by
  -- There is no comma in a token, so the first comma ends both.
  have hfront {u v : List Char} (hu : ',' ∉ u) : (u ++ ',' :: v).takeWhile (· ≠ ',') = u := by
    rw [List.takeWhile_append_of_pos]
    · simp
    · intro c hc
      exact decide_eq_true fun he => hu (he ▸ hc)
  obtain ⟨htoken, rest, hbody⟩ := h
  obtain ⟨hother, rest', hbody'⟩ := h'
  have heq := List.append_cancel_left (hbody.symm.trans hbody')
  rw [← hfront htoken, heq, hfront hother]

theorem Response.encode_idWritten {r : Response} {n : Number} (h : r.id = some (.number n)) :
    IdWritten r.encode n.chars := by
  refine ⟨n.comma_not_mem_chars, ?_⟩
  have hid : (idJson r.id).chars = n.chars := by
    rw [h, idJson, Id.toJson, Json.chars]
  have hversion : (Json.string Message.version).chars = "\"2.0\"".toList := by
    rw [Json.chars]
    decide
  have hnames : Json.stringChars "jsonrpc" = "\"jsonrpc\"".toList ∧
      Json.stringChars "id" = "\"id\"".toList := by decide
  refine ⟨Json.membersChars [outcomeMember r.outcome] ++ ['\x7d'], ?_⟩
  rw [encode, Json.objectText, members, String.toList_ofList]
  simp only [Json.membersChars, hid, hversion, hnames.1, hnames.2]
  simp

theorem Dialogue.eq_some_of_mem_ite {α : Type} {p : Prop} [Decidable p] {o : Option α} {a : α}
    (h : a ∈ (if p then o else none).toList) : o = some a := by
  rw [Option.mem_toList] at h
  split at h
  · exact h
  · cases h

/-- Every response is about the id that stands in the text it answers. -/
theorem Dialogue.turn_addressed {p : Policies} {s : Session} {text : String} {x : Response}
    (hx : x ∈ (turn p s text).responses) : ∃ id, x.id = some id ∧ Message.idOf text = some id := by
  cases h : Request.decode text with
  | ok r =>
    rw [turn_of_ok h] at hx
    have hids := Verdict.responses_id (s.verdict r) p.unknown s r
    obtain ⟨id, hid, hsome⟩ := List.mem_map.1 (hids ▸ List.mem_map_of_mem hx)
    refine ⟨id, hsome.symm, Request.idOf_of_decode ?_⟩
    rw [h]
    exact eq_some_of_mem_ite hid
  | error m =>
    rw [turn_of_error h] at hx
    obtain ⟨id, hid, rfl⟩ := List.mem_map.1 hx
    refine ⟨id, rfl, Request.idOf_of_decode ?_⟩
    rw [h]
    exact eq_some_of_mem_ite hid

/-- A text with a whole number for an id that is written in a way no whole number comes back in. -/
def Message.rounded : String := "\x7b\"jsonrpc\":\"2.0\",\"id\":1e2,\"method\":\"shutdown\"\x7d"

theorem Message.decode_rounded :
    Request.decode rounded = .ok ⟨some (.number (.real 100)), "shutdown", none⟩ :=
  Json.ok_of_toOption (by decide +kernel)

open Json Json.Reader in
theorem Message.rounded_idWritten : IdWritten rounded "1e2".toList := by
  let item := value rounded.toList.length (maxDepth - 1)
  let version : Entry := ⟨"jsonrpc", "\"2.0\"".toList, .string "2.0"⟩
  let id : Entry := ⟨"id", "1e2".toList, .number (.real 100)⟩
  let method : Entry := ⟨"method", "\"shutdown\"".toList, .string "shutdown"⟩
  have hmethod : Entries item false ",\"method\":\"shutdown\"\x7d".toList [method] [] := by
    refine .entry (u := ":\"shutdown\"\x7d".toList) (x := ['\x7d']) (.later rfl rfl)
      (ok_of_toOption ?_) rfl rfl (ok_of_toOption ?_) (.close rfl)
    · decide +kernel
    · decide +kernel
  have hid : Entries item false ",\"id\":1e2,\"method\":\"shutdown\"\x7d".toList
      [id, method] [] := by
    refine .entry (u := ":1e2,\"method\":\"shutdown\"\x7d".toList) (.later rfl rfl)
      (ok_of_toOption ?_) rfl rfl (ok_of_toOption ?_) hmethod
    · decide +kernel
    · decide +kernel
  have hversion : Entries item true
      "\"jsonrpc\":\"2.0\",\"id\":1e2,\"method\":\"shutdown\"\x7d".toList
      [version, id, method] [] := by
    refine .entry (u := ":\"2.0\",\"id\":1e2,\"method\":\"shutdown\"\x7d".toList) (.first rfl)
      (ok_of_toOption ?_) rfl rfl (ok_of_toOption ?_) hid
    · decide +kernel
    · decide +kernel
  exact ⟨_, id, ⟨_, [], rfl, hversion, rfl⟩, rfl, rfl⟩

namespace Exchange

theorem ofBody_addressed {p : Policies} {s : Session} {text : String} {x : Response}
    (hx : (ofBody p s text).response = some x) :
    ∃ id, x.id = some id ∧ Message.idOf text = some id := by
  apply Dialogue.turn_addressed (p := p) (s := s)
  rw [← (Connection.ofBody_turn p s text).1, hx]
  exact List.mem_singleton_self x

/-- The id comes back as its number is printed. That is the token it was written with if and only
if the token is a whole number of 64 bits in plain digits, or the shortest form of the double that
it is read as. -/
theorem echo_iff {text : String} {r : Request} (hread : Request.decode text = .ok r) {n : Number}
    (hid : r.id = some (.number n)) :
    ∃ token, Message.IdWritten text token ∧
      (∀ other, Message.IdWritten text other → other = token) ∧
      ∀ (p : Policies) (s : Session) (x : Response), (ofBody p s text).response = some x →
        Response.IdWritten x.encode n.chars ∧
          (Response.IdWritten x.encode token ↔
            (∃ w : Whole, token = Number.wholeChars w.value) ∨
              ∃ y, n = .real y ∧ token = Number.realChars y) := by
  have hidOf : Message.idOf text = some (.number n) :=
    Request.idOf_of_decode (by rw [hread]; exact hid)
  obtain ⟨e, es, hes, hmem, hlast, hvalue⟩ := Message.idWritten_of_idOf hidOf
  have hwritten : Message.IdWritten text e.source := ⟨es, e, hes, hlast, rfl⟩
  refine ⟨e.source, hwritten, fun _ => hwritten.unique, ?_⟩
  intro p s x hx
  have hnumber : e.value = .number n := by
    cases hv : e.value <;> rw [hv] at hvalue <;> cases hvalue
    rfl
  obtain ⟨_, _, _, hentries, _⟩ := hes
  obtain ⟨w, rest, hsource, hitem, hends⟩ := hentries.of_mem hmem
  rw [hnumber] at hitem
  rw [← Json.Reader.chars_eq_iff hitem hsource hends]
  -- The response is about the id of the text, so it has the characters of that number.
  obtain ⟨id, hxid, hidOf'⟩ := ofBody_addressed hx
  cases hidOf.symm.trans hidOf'
  have hencode := Response.encode_idWritten hxid
  exact ⟨hencode, hencode.unique, fun h => h ▸ hencode⟩

/-- What this comes to for one text. -/
theorem echo_rounded :
    ∃ token, Message.IdWritten Message.rounded token ∧
      (∀ other, Message.IdWritten Message.rounded other → other = token) ∧
      ∀ (p : Policies) (s : Session) (x : Response),
        (ofBody p s Message.rounded).response = some x →
          Response.IdWritten x.encode (Number.real 100).chars ∧
            (Response.IdWritten x.encode token ↔
              (∃ w : Whole, token = Number.wholeChars w.value) ∨
                ∃ y, Number.real 100 = .real y ∧ token = Number.realChars y) :=
  echo_iff Message.decode_rounded rfl

/-- The same text is answered, but not by the id that stands in it. -/
theorem not_forall_echoed : ¬ ∀ {text : String} {r : Request},
    Request.decode text = .ok r → ∀ {n : Number}, r.id = some (.number n) →
      ∀ {token : List Char}, Message.IdWritten text token →
        ∀ (p : Policies) (s : Session) (x : Response), (ofBody p s text).response = some x →
          Response.IdWritten x.encode token := by
  intro h
  let answer : Response := .success (some (.number (.real 100))) .null
  have hanswer : (ofBody .standard .fresh Message.rounded).response = some answer := by
    rw [ofBody, Message.decode_rounded]
    rfl
  have hechoed := h Message.decode_rounded rfl Message.rounded_idWritten _ _ _ hanswer
  have hwritten : Response.IdWritten answer.encode (Number.real 100).chars :=
    Response.encode_idWritten rfl
  exact absurd (hechoed.unique hwritten) (by decide +kernel)

end Exchange
end HoverServer
