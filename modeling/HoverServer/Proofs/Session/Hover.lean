import HoverServer.Proofs.Decimal.Digits
import HoverServer.Proofs.Message.ParamsRules
import HoverServer.Proofs.Session.Precedence

/-! What a hover reports. The document and the two numbers of the position can be read off the
text, so no two positions are reported alike, and a report names the one that was asked for. -/
namespace HoverServer

/-- The result of a hover in full. -/
def TextPosition.report (p : TextPosition) : Json :=
  .object [("contents", .object [("kind", .string "markdown"),
    ("value", .string ("`" ++ p.uri.text ++ "`\n\n**Hover** at line " ++
      toString p.position.line.toNat ++ ", character " ++
      toString p.position.character.toNat))])]

theorem hoverText_toList (p : TextPosition) :
    (hoverText p).toList = (("`".toList ++ p.uri.text.toList ++ "`\n\n**Hover** at line".toList) ++
      ' ' :: Nat.toDigits 10 p.position.line.toNat ++ ", character".toList) ++
        ' ' :: Nat.toDigits 10 p.position.character.toNat := by
  have hnumber (n : Nat) : (toString n).toList = Nat.toDigits 10 n := by
    rw [Nat.toString_eq_ofList_toDigits, String.toList_ofList]
  have hline : "`\n\n**Hover** at line ".toList = "`\n\n**Hover** at line".toList ++ [' '] := rfl
  have hcharacter : ", character ".toList = ", character".toList ++ [' '] := rfl
  simp only [hoverText, String.toList_append, hnumber, hline, hcharacter, List.append_assoc,
    List.singleton_append]

theorem hoverText_injective {p q : TextPosition} (h : hoverText p = hoverText q) : p = q := by
  have htext := congrArg String.toList h
  rw [hoverText_toList, hoverText_toList] at htext
  -- No space is a digit, so the numbers are told apart from the back.
  obtain ⟨hfront, hcharacter⟩ := Decimal.eq_of_trailing_number rfl htext
  obtain ⟨hname, hline⟩ := Decimal.eq_of_trailing_number rfl (List.append_cancel_right hfront)
  have huri := List.append_cancel_left (List.append_cancel_right hname)
  obtain ⟨⟨uri, _⟩, line, character⟩ := p
  obtain ⟨⟨uri', _⟩, line', character'⟩ := q
  cases String.toList_inj.1 huri
  cases UInt32.toNat_inj.1 hline
  cases UInt32.toNat_inj.1 hcharacter
  rfl

theorem TextPosition.report_injective {p q : TextPosition} (h : p.report = q.report) : p = q := by
  simp only [report, Json.object.injEq, List.cons.injEq, Prod.mk.injEq, Json.string.injEq,
    and_true, true_and] at h
  exact hoverText_injective h

theorem Reaction.success_injective {id id' : Option Id} {v w : Json}
    (h : respond (.success id v) = respond (.success id' w)) : v = w := by
  cases h
  rfl

namespace Session

variable {s : Session} {r : Request} {id : Id} {p : TextPosition}

theorem hover_served (hs : s.phase = .initialized) (policy : UnknownMethodPolicy)
    (hr : r.Asks "textDocument/hover" id) (hp : Params.Locate r.params p) :
    (s.handle policy r).reaction = .respond (.success (some id) p.report) ∧
      (s.handle policy r).session = s := by
  have hread := (Params.decode_textPosition_iff hr.params r.method).2 hp
  exact (Answer.hover hr.method hs hread).kept (Or.inr hs) hr.id

theorem hover_refused (hs : s.phase = .initialized) (policy : UnknownMethodPolicy)
    (hr : r.Asks "textDocument/hover" id) (hnone : ∀ p, ¬ Params.Locate r.params p) :
    ∃ why, (s.handle policy r).reaction = .respond (.failure (some id) .invalidParams why) ∧
      (s.handle policy r).session = s := by
  cases hread : Params.decode Params.textPosition r.method r.params with
  | ok p => exact absurd ((Params.decode_textPosition_iff hr.params r.method).1 hread) (hnone p)
  | error e =>
    exact ⟨e.message, (Answer.badPosition hr.method hs hread).kept (Or.inr hs) hr.id⟩

/-- A hover is answered with the report on the position that its params give, whichever way they
give it. Params that give none are invalid, and no number is made to fit. The session stays as it
is. -/
theorem hover_report_iff (hs : s.phase = .initialized) (policy : UnknownMethodPolicy)
    (hr : r.Asks "textDocument/hover" id) :
    (∀ p : TextPosition,
        (s.handle policy r).reaction = .respond (.success (some id) p.report) ↔
          Params.Locate r.params p) ∧
      ((∃ why, (s.handle policy r).reaction = .respond (.failure (some id) .invalidParams why)) ↔
        ∀ p, ¬ Params.Locate r.params p) ∧
      (s.handle policy r).session = s := by
  by_cases hgiven : ∃ q, Params.Locate r.params q
  · obtain ⟨q, hq⟩ := hgiven
    obtain ⟨hsaid, hsame⟩ := hover_served hs policy hr hq
    refine ⟨fun p => ⟨fun h => ?_, fun hp => (hover_served hs policy hr hp).1⟩, ⟨?_, ?_⟩, hsame⟩
    · rw [hsaid] at h
      cases TextPosition.report_injective (Reaction.success_injective h)
      exact hq
    · rw [hsaid]
      rintro ⟨why, ⟨⟩⟩
    · intro hnone
      exact absurd hq (hnone q)
  · rw [not_exists] at hgiven
    obtain ⟨why, hsaid, hsame⟩ := hover_refused hs policy hr hgiven
    refine ⟨fun p => ⟨?_, fun hp => absurd hp (hgiven p)⟩, ⟨fun _ => hgiven, ?_⟩, hsame⟩
    · rw [hsaid]
      rintro ⟨⟩
    · intro _
      exact ⟨why, hsaid⟩

end Session

namespace Request

/-- A hover with the document by name and the position in order, in the last of all columns. -/
def pointed : Request :=
  ⟨some (.string "a"), "textDocument/hover",
    some (.array [.object [("uri", .string "file:///a")],
      .array [.number (.whole ⟨0, by decide, by decide⟩),
        .number (.whole ⟨0xffffffff, by decide, by decide⟩)]])⟩

theorem pointed_asks : pointed.Asks "textDocument/hover" (.string "a") where
  method := rfl
  id := rfl
  params v hv := by
    have hdocument : Json.Exact 1 (.object [("uri", .string "file:///a")]) := .one (.string _)
    rw [← Option.some.inj hv]
    refine .array (List.forall_mem_cons.2 ⟨hdocument.ordered, List.forall_mem_singleton.2 ?_⟩)
    exact .array (List.forall_mem_cons.2 ⟨.number _, List.forall_mem_singleton.2 (.number _)⟩)

end Request

/-- The place that `Request.pointed` means. -/
def TextPosition.pointed : TextPosition :=
  ⟨⟨"file:///a", Json.ok_of_toOption (by decide +kernel)⟩, ⟨0, 0xffffffff⟩⟩

theorem Session.hover_report_pointed :
    (handle .reject ⟨.initialized, none⟩ .pointed).reaction =
      .respond (.success (some (.string "a")) TextPosition.pointed.report) := by
  have hphase : (Session.mk .initialized none).phase = .initialized := rfl
  have hlocate : Params.Locate Request.pointed.params .pointed :=
    ⟨_, rfl, .listed (.named rfl) (.listed ⟨_, rfl, rfl⟩ ⟨_, rfl, rfl⟩)⟩
  exact ((hover_report_iff hphase .reject Request.pointed_asks).1 _).2 hlocate

/-- One column more is too many. -/
example :
    let params := Json.array [.array [.string "file:///a"],
      .array [.number (.whole ⟨0, by decide, by decide⟩),
        .number (.whole ⟨0x100000000, by decide, by decide⟩)]]
    (Session.handle .reject ⟨.initialized, none⟩
        ⟨some (.string "a"), "textDocument/hover", some params⟩).reaction =
      .respond (.failure (some (.string "a")) .invalidParams
        ("invalid params for 'textDocument/hover': " ++
          "invalid value: integer `4294967296`, expected u32")) := by
  decide +kernel

end HoverServer
