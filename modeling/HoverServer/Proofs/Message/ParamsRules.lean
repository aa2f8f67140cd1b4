import HoverServer.Message.Params
import HoverServer.Proofs.Message.RequestRules

/-! Which values are params of the methods that are asked for. Every record may say what it has to
say by name or in order, whatever the records around it do. -/
namespace HoverServer

/-- A request for a method, with an id and with params as a reader has them. -/
structure Request.Asks (r : Request) (method : String) (id : Id) : Prop where
  method : r.method = method
  id : r.id = some id
  params : ∀ v, r.params = some v → v.Ordered

/-- A request that was read from a text has its params from a reader. -/
theorem Request.asks_of_decode {text : String} {r : Request} (h : Request.decode text = .ok r)
    {id : Id} (hid : r.id = some id) : r.Asks r.method id where
  method := rfl
  id := hid
  params v hv := (((decode_ok h).params v).2 hv).ordered

/-- The value is the given text. -/
def Json.IsString (s : String) (v : Json) : Prop := v = .string s

/-- An integer of 32 bits without a sign. -/
def Json.IsUInt32 (v : Json) (n : UInt32) : Prop :=
  ∃ w : Whole, v = .number (.whole w) ∧ w.value = n.toNat

/-- The value says who a client is. Only an object may do without the version; in an array it is
null. -/
inductive ClientInfo.Shape (c : ClientInfo) : Json → Prop where
  | named {ms : Members} (name : ms.get? "name" = some (.string c.name))
      (version : Json.Maybe Json.IsString (ms.get? "version") c.version) : Shape c (.object ms)
  | listed {last : Json} (version : Json.Maybe Json.IsString (some last) c.version) :
      Shape c (.array [.string c.name, last])

/-- The value names the document by a text, which is a reference like that of any `Uri`. -/
inductive Uri.Shape (u : Uri) : Json → Prop where
  | named {ms : Members} (uri : ms.get? "uri" = some (.string u.text)) : Shape u (.object ms)
  | listed : Shape u (.array [.string u.text])

/-- The value gives both numbers of a position. -/
inductive Position.Shape (p : Position) : Json → Prop where
  | named {ms : Members} {line character : Json} (givesLine : ms.get? "line" = some line)
      (isLine : line.IsUInt32 p.line) (givesCharacter : ms.get? "character" = some character)
      (isCharacter : character.IsUInt32 p.character) : Shape p (.object ms)
  | listed {line character : Json} (isLine : line.IsUInt32 p.line)
      (isCharacter : character.IsUInt32 p.character) : Shape p (.array [line, character])

/-- The value gives a document and a position in it. -/
inductive TextPosition.Shape (p : TextPosition) : Json → Prop where
  | named {ms : Members} {document position : Json}
      (givesDocument : ms.get? "textDocument" = some document) (uri : p.uri.Shape document)
      (givesPosition : ms.get? "position" = some position) (place : p.position.Shape position) :
      Shape p (.object ms)
  | listed {document position : Json} (uri : p.uri.Shape document)
      (place : p.position.Shape position) : Shape p (.array [document, position])

/-- The params give a document and a position in it. Where there are no params, there is none. -/
def Params.Locate (params : Option Json) (p : TextPosition) : Prop :=
  ∃ v, params = some v ∧ p.Shape v

/-- The params introduce the client, or leave it without a name. -/
inductive Params.Introduce : Option Json → Option ClientInfo → Prop where
  | absent : Introduce none none
  | null : Introduce (some .null) none
  | named {ms : Members} {client : Option ClientInfo}
      (given : Json.Maybe ClientInfo.Shape (ms.get? "clientInfo") client) :
      Introduce (some (.object ms)) client
  | listed {items : List Json} {client : Option ClientInfo}
      (given : Json.Maybe ClientInfo.Shape items[0]? client) (short : items.length ≤ 1) :
      Introduce (some (.array items)) client

namespace Json

theorem Decoder.unsigned_iff {v : Json} {n : UInt32} : unsigned v = .ok n ↔ v.IsUInt32 n := by
  constructor
  · intro h
    cases v with
    | number k =>
      cases k with
      | whole w =>
        rw [unsigned] at h
        split at h
        · rename_i hrange
          refine ⟨w, rfl, ?_⟩
          have hlt : w.value.toNat < 2 ^ 32 := by omega
          rw [← Except.ok.inj h, UInt32.toNat_ofNat_of_lt' hlt]
          omega
        · cases h
      | real x => cases h
    | _ => cases h
  · rintro ⟨w, rfl, hw⟩
    have hlt := n.toNat_lt
    rw [unsigned, if_pos (by omega), hw]
    exact congrArg Except.ok UInt32.ofNat_toNat

end Json

/-- A text is taken for a reference if it is well formed, and is kept as it is. -/
theorem Uri.ofString_iff {s : String} {u : Uri} : Uri.ofString s = .ok u ↔ s = u.text := by
  rw [Uri.ofString]
  split
  · constructor
    · intro h
      cases h
      rfl
    · rintro rfl
      rfl
  · rename_i stop hstop
    constructor
    · intro h
      cases h
    · rintro rfl
      cases hstop.symm.trans u.wellFormed

theorem Json.Decoder.uri_iff {v : Json} {u : Uri} :
    Decoder.uri v = .ok u ↔ v = .string u.text := by
  rw [uri, bind_ok_iff]
  constructor
  · rintro ⟨s, hs, h⟩
    cases hu : Uri.ofString s with
    | ok u' =>
      rw [hu] at h
      cases h
      rw [text_iff.1 hs, Uri.ofString_iff.1 hu]
    | error fault =>
      rw [hu] at h
      cases h
  · rintro rfl
    refine ⟨u.text, rfl, ?_⟩
    rw [Uri.ofString_iff.2 rfl]

namespace Params

open Json (Field Maybe)

/-! ### Who the client is -/

theorem clientInfo_null (c : ClientInfo) : clientInfo .null ≠ .ok c := nofun

theorem clientInfo_fields_iff {v : Json} {c : ClientInfo} :
    clientInfo v = .ok c ↔ Json.decodeTwo "ClientInfo" (.required "name" .text)
      (.optional "version" .text) v = .ok (c.name, c.version) := by
  apply Json.bind_ok_iff_fields
  rintro ⟨name, version⟩ ⟨name', version'⟩
  simp [pure, Except.pure]

theorem clientInfo_iff {v : Json} (hv : v.Ordered) {c : ClientInfo} :
    clientInfo v = .ok c ↔ c.Shape v := by
  have hnull (s : String) : Json.Decoder.text .null ≠ .ok s := nofun
  rw [clientInfo_fields_iff]
  cases v with
  | object ms =>
    rw [Json.decodeTwo_object_iff hv.distinct, Field.finds_required_iff,
      Field.finds_optional_iff hnull]
    simp only [Json.Decoder.text_iff]
    constructor
    · rintro ⟨⟨_, hname, rfl⟩, hversion⟩
      exact .named hname hversion
    · intro h
      cases h with
      | named name version => exact ⟨⟨_, name, rfl⟩, version⟩
  | array items =>
    rw [Json.decodeTwo_array_iff, Field.meets_required_iff, Field.meets_optional_iff hnull]
    simp only [Json.Decoder.text_iff]
    constructor
    · rintro ⟨⟨⟨_, hname, rfl⟩, last, hlast, hversion⟩, hlength⟩
      rw [Json.eq_pair hname hlast hlength]
      exact .listed hversion
    · intro h
      cases h with
      | listed version => exact ⟨⟨⟨_, rfl, rfl⟩, _, rfl, version⟩, Nat.le_refl 2⟩
  | _ => exact ⟨nofun, nofun⟩

theorem decode_iff {α : Type} {d : Json.Decoder α} {method : String} {params : Option Json}
    {a : α} : decode d method params = .ok a ↔ d (given params) = .ok a := by
  rw [decode]
  cases d (given params) <;> simp

theorem maybe_clientInfo_iff {v : Option Json} (hv : ∀ w, v = some w → w.Ordered)
    {client : Option ClientInfo} :
    Maybe (fun c v => clientInfo v = .ok c) v client ↔ Maybe ClientInfo.Shape v client :=
  ⟨fun h => h.imp fun _ w hw => (clientInfo_iff (hv w hw)).1,
    fun h => h.imp fun _ w hw => (clientInfo_iff (hv w hw)).2⟩

theorem decode_introduction_iff {params : Option Json} (hparams : ∀ v, params = some v → v.Ordered)
    (method : String) {client : Option ClientInfo} :
    decode introduction method params = .ok client ↔ Introduce params client := by
  rw [decode_iff]
  cases params with
  | none =>
    constructor
    · rintro ⟨⟩
      exact .absent
    · rintro ⟨⟩
      rfl
  | some v =>
    have hv := hparams v rfl
    cases v with
    | object ms =>
      change introduction (.object ms) = .ok client ↔ _
      rw [introduction, Json.decodeOne_object_iff hv.distinct,
        Field.finds_trailing_iff clientInfo_null, maybe_clientInfo_iff fun _ => hv.member]
      constructor
      · exact .named
      · intro h
        cases h with
        | named given => exact given
    | array items =>
      change introduction (.array items) = .ok client ↔ _
      rw [introduction, Json.decodeOne_array_iff,
        Field.meets_trailing_iff clientInfo_null, maybe_clientInfo_iff fun _ => hv.item]
      constructor
      · rintro ⟨hgiven, hshort⟩
        exact .listed hgiven hshort
      · intro h
        cases h with
        | listed given short => exact ⟨given, short⟩
    | null =>
      constructor
      · rintro ⟨⟩
        exact .null
      · rintro ⟨⟩
        rfl
    | _ => exact ⟨nofun, nofun⟩

/-! ### Where in a document -/

theorem document_iff {v : Json} (hv : v.Ordered) {u : Uri} : document v = .ok u ↔ u.Shape v := by
  cases v with
  | object ms =>
    rw [document, Json.decodeOne_object_iff hv.distinct, Field.finds_required_iff]
    simp only [Json.Decoder.uri_iff]
    constructor
    · rintro ⟨_, huri, rfl⟩
      exact .named huri
    · intro h
      cases h with
      | named uri => exact ⟨_, uri, rfl⟩
  | array items =>
    rw [document, Json.decodeOne_array_iff, Field.meets_required_iff]
    simp only [Json.Decoder.uri_iff]
    constructor
    · rintro ⟨⟨_, huri, rfl⟩, hlength⟩
      rw [Json.eq_single huri hlength]
      exact .listed
    · intro h
      cases h with
      | listed => exact ⟨⟨_, rfl, rfl⟩, Nat.le_refl 1⟩
  | _ => exact ⟨nofun, nofun⟩

theorem position_fields_iff {v : Json} {p : Position} :
    position v = .ok p ↔ Json.decodeTwo "Position" (.required "line" .unsigned)
      (.required "character" .unsigned) v = .ok (p.line, p.character) := by
  apply Json.bind_ok_iff_fields
  rintro ⟨line, character⟩ ⟨line', character'⟩
  simp [pure, Except.pure]

theorem position_iff {v : Json} (hv : v.Ordered) {p : Position} :
    position v = .ok p ↔ p.Shape v := by
  rw [position_fields_iff]
  cases v with
  | object ms =>
    rw [Json.decodeTwo_object_iff hv.distinct, Field.finds_required_iff,
      Field.finds_required_iff]
    simp only [Json.Decoder.unsigned_iff]
    constructor
    · rintro ⟨⟨_, hline, isLine⟩, _, hcharacter, isCharacter⟩
      exact .named hline isLine hcharacter isCharacter
    · intro h
      cases h with
      | named givesLine isLine givesCharacter isCharacter =>
        exact ⟨⟨_, givesLine, isLine⟩, _, givesCharacter, isCharacter⟩
  | array items =>
    rw [Json.decodeTwo_array_iff, Field.meets_required_iff, Field.meets_required_iff]
    simp only [Json.Decoder.unsigned_iff]
    constructor
    · rintro ⟨⟨⟨_, hline, isLine⟩, _, hcharacter, isCharacter⟩, hlength⟩
      rw [Json.eq_pair hline hcharacter hlength]
      exact .listed isLine isCharacter
    · intro h
      cases h with
      | listed isLine isCharacter =>
        exact ⟨⟨⟨_, rfl, isLine⟩, _, rfl, isCharacter⟩, Nat.le_refl 2⟩
  | _ => exact ⟨nofun, nofun⟩

theorem textPosition_fields_iff {v : Json} {p : TextPosition} :
    textPosition v = .ok p ↔ Json.decodeTwo "TextDocumentPositionParams"
      (.required "textDocument" document) (.required "position" position) v =
        .ok (p.uri, p.position) := by
  apply Json.bind_ok_iff_fields
  rintro ⟨uri, position⟩ ⟨uri', position'⟩
  simp [pure, Except.pure]

theorem textPosition_iff {v : Json} (hv : v.Ordered) {p : TextPosition} :
    textPosition v = .ok p ↔ p.Shape v := by
  rw [textPosition_fields_iff]
  cases v with
  | object ms =>
    rw [Json.decodeTwo_object_iff hv.distinct, Field.finds_required_iff,
      Field.finds_required_iff]
    constructor
    · rintro ⟨⟨_, hdocument, huri⟩, _, hposition, hplace⟩
      exact .named hdocument ((document_iff (hv.member hdocument)).1 huri) hposition
        ((position_iff (hv.member hposition)).1 hplace)
    · intro h
      cases h with
      | named givesDocument uri givesPosition place =>
        exact ⟨⟨_, givesDocument, (document_iff (hv.member givesDocument)).2 uri⟩, _, givesPosition,
          (position_iff (hv.member givesPosition)).2 place⟩
  | array items =>
    rw [Json.decodeTwo_array_iff, Field.meets_required_iff, Field.meets_required_iff]
    constructor
    · rintro ⟨⟨⟨_, hdocument, huri⟩, _, hposition, hplace⟩, hlength⟩
      have huri := (document_iff (hv.item hdocument)).1 huri
      have hplace := (position_iff (hv.item hposition)).1 hplace
      rw [Json.eq_pair hdocument hposition hlength]
      exact .listed huri hplace
    · intro h
      cases h with
      | @listed document position uri place =>
        have hdocument : [document, position][0]? = some document := rfl
        have hposition : [document, position][1]? = some position := rfl
        exact ⟨⟨⟨_, hdocument, (document_iff (hv.item hdocument)).2 uri⟩, _, hposition,
          (position_iff (hv.item hposition)).2 place⟩, Nat.le_refl 2⟩
  | _ => exact ⟨nofun, nofun⟩

theorem decode_textPosition_iff {params : Option Json} (hparams : ∀ v, params = some v → v.Ordered)
    (method : String) {p : TextPosition} :
    decode textPosition method params = .ok p ↔ Locate params p := by
  rw [decode_iff, Locate]
  cases params with
  | none => exact ⟨nofun, nofun⟩
  | some v =>
    simp only [Option.some.injEq, exists_eq_left']
    cases v with
    | null => exact ⟨nofun, nofun⟩
    | _ => exact textPosition_iff (hparams _ rfl)

end Params

end HoverServer
