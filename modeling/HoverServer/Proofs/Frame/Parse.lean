import HoverServer.Proofs.Frame.Terminator

/-! A stream of frames read in one go. What has been read of a stream stays as it is when more
bytes follow, so a stream may be read in parts as long as the bytes left over are kept. -/
namespace HoverServer.Frame

/-- The length of payload that a header block announces. The whole frame has to be addressable. -/
def payloadLength (header : Bytes) : Except Fault Nat :=
  match contentLength header with
  | .error fault => .error fault
  | .ok n =>
    if wordLimit ≤ header.length + terminator.length + n then .error (.invalidLength (toString n))
    else .ok n

theorem contentLength_of_payloadLength {header : Bytes} {n : Nat}
    (h : payloadLength header = .ok n) : contentLength header = .ok n := by
  rw [payloadLength] at h
  split at h
  · cases h
  · rename_i hcontent
    split at h
    · cases h
    · cases h
      exact hcontent

/-- What stands at the front of a stream. -/
inductive Front where
  | unfinished
  | refused (fault : Fault)
  | whole (f : Frame) (rest : Bytes)

def front (s : Bytes) : Front :=
  match cut s with
  | none => .unfinished
  | some (header, after) =>
    match payloadLength header with
    | .error fault => .refused fault
    | .ok n =>
      if after.length < n then .unfinished else .whole ⟨header, after.take n⟩ (after.drop n)

theorem front_of_none {s : Bytes} (h : cut s = none) : front s = .unfinished := by
  simp only [front, h]

theorem front_of_error {s header after : Bytes} {fault : Fault} (h : cut s = some (header, after))
    (hf : payloadLength header = .error fault) : front s = .refused fault := by
  simp only [front, h, hf]

theorem front_of_ok {s header after : Bytes} {n : Nat} (h : cut s = some (header, after))
    (hn : payloadLength header = .ok n) :
    front s = if after.length < n then .unfinished
      else .whole ⟨header, after.take n⟩ (after.drop n) := by
  simp only [front, h, hn]

theorem cut_of_refused {s : Bytes} {fault : Fault} (h : front s = .refused fault) :
    ∃ header after, cut s = some (header, after) ∧ payloadLength header = .error fault := by
  cases hc : cut s with
  | none =>
    rw [front_of_none hc] at h
    cases h
  | some p =>
    obtain ⟨header, after⟩ := p
    cases hp : payloadLength header with
    | error fault' =>
      rw [front_of_error hc hp] at h
      cases h
      exact ⟨header, after, rfl, hp⟩
    | ok n =>
      rw [front_of_ok hc hp] at h
      split at h <;> cases h

theorem cut_of_whole {s rest : Bytes} {f : Frame} (h : front s = .whole f rest) :
    cut s = some (f.header, f.payload ++ rest) ∧ payloadLength f.header = .ok f.payload.length := by
  cases hc : cut s with
  | none =>
    rw [front_of_none hc] at h
    cases h
  | some p =>
    obtain ⟨header, after⟩ := p
    cases hp : payloadLength header with
    | error fault =>
      rw [front_of_error hc hp] at h
      cases h
    | ok n =>
      rw [front_of_ok hc hp] at h
      split at h
      · cases h
      · cases h
        have hlen : (after.take n).length = n := by
          rw [List.length_take]
          omega
        exact ⟨by rw [List.take_append_drop], by rw [hlen, hp]⟩

theorem front_of_cut {s rest : Bytes} {f : Frame} (h : cut s = some (f.header, f.payload ++ rest))
    (hn : payloadLength f.header = .ok f.payload.length) : front s = .whole f rest := by
  rw [front_of_ok h hn, if_neg (by simp)]
  simp

theorem bytes_of_whole {s rest : Bytes} {f : Frame} (h : front s = .whole f rest) :
    s = f.bytes ++ rest := by
  rw [eq_of_cut (cut_of_whole h).1]
  simp [bytes]

theorem bytes_length (f : Frame) : f.bytes.length = f.size := by
  simp [bytes, size]
  omega

theorem cut_bytes {s rest : Bytes} {f : Frame} (h : front s = .whole f rest) :
    cut f.bytes = some (f.header, f.payload) := by
  rw [bytes, List.append_assoc]
  exact cut_header (cut_of_whole h).1 f.payload

theorem front_length {s rest : Bytes} {f : Frame} (h : front s = .whole f rest) :
    rest.length < s.length := by
  rw [bytes_of_whole h, List.length_append, bytes_length, size]
  omega

theorem front_append_whole {s rest : Bytes} {f : Frame} (h : front s = .whole f rest) (t : Bytes) :
    front (s ++ t) = .whole f (rest ++ t) := by
  obtain ⟨hc, hn⟩ := cut_of_whole h
  apply front_of_cut _ hn
  rw [cut_append hc t, List.append_assoc]

theorem front_append_refused {s : Bytes} {fault : Fault} (h : front s = .refused fault)
    (t : Bytes) : front (s ++ t) = .refused fault := by
  obtain ⟨header, after, hc, hf⟩ := cut_of_refused h
  exact front_of_error (cut_append hc t) hf

/-- A frame that later bytes complete reaches beyond those that were there before. -/
theorem size_of_unfinished {s t rest : Bytes} {f : Frame} (h : front s = .unfinished)
    (hw : front (s ++ t) = .whole f rest) : s.length < f.size := by
  obtain ⟨hc, hn⟩ := cut_of_whole hw
  cases hs : cut s with
  | none =>
    have := length_lt_of_cut_append hs hc
    rw [size]
    omega
  | some p =>
    obtain ⟨header, after⟩ := p
    have hlen := length_of_cut hs
    rw [cut_append hs t] at hc
    simp only [Option.some.injEq, Prod.mk.injEq] at hc
    rw [front_of_ok hs (hc.1 ▸ hn)] at h
    split at h
    · rw [hlen, hc.1, size]
      omega
    · cases h

/-- So does a header block that is refused. -/
theorem length_of_unfinished {s t header after : Bytes} {fault : Fault}
    (h : front s = .unfinished) (hr : front (s ++ t) = .refused fault)
    (hc : cut (s ++ t) = some (header, after)) : s.length < header.length + 4 := by
  cases hs : cut s with
  | none => exact length_lt_of_cut_append hs hc
  | some p =>
    obtain ⟨header', after'⟩ := p
    obtain ⟨header'', after'', hc', hf⟩ := cut_of_refused hr
    rw [cut_append hs t] at hc'
    simp only [Option.some.injEq, Prod.mk.injEq] at hc'
    rw [front_of_error hs (hc'.1 ▸ hf)] at h
    cases h

/-- The frames of a stream, the fault it ends with if there is one, and the bytes that are left
behind the last frame. -/
structure Parse where
  frames : List Frame
  fault : Option Fault
  left : Bytes
  deriving DecidableEq

def parse (s : Bytes) : Parse :=
  match h : front s with
  | .unfinished => ⟨[], none, s⟩
  | .refused fault => ⟨[], some fault, s⟩
  | .whole f rest =>
    have := front_length h
    let more := parse rest
    ⟨f :: more.frames, more.fault, more.left⟩
termination_by s.length

theorem parse_unfinished {s : Bytes} (h : front s = .unfinished) : parse s = ⟨[], none, s⟩ := by
  rw [parse]
  split <;> simp_all

theorem parse_refused {s : Bytes} {fault : Fault} (h : front s = .refused fault) :
    parse s = ⟨[], some fault, s⟩ := by
  rw [parse]
  split <;> simp_all

theorem parse_whole {s rest : Bytes} {f : Frame} (h : front s = .whole f rest) :
    parse s = ⟨f :: (parse rest).frames, (parse rest).fault, (parse rest).left⟩ := by
  rw [parse]
  split <;> simp_all

/-- A stream that is still open goes on with the bytes it had left. -/
theorem parse_append {s : Bytes} (h : (parse s).fault = none) (t : Bytes) :
    parse (s ++ t) =
      ⟨(parse s).frames ++ (parse ((parse s).left ++ t)).frames,
        (parse ((parse s).left ++ t)).fault, (parse ((parse s).left ++ t)).left⟩ := by
  induction s using parse.induct with
  | case1 s hs => simp [parse_unfinished hs]
  | case2 s fault hs => simp [parse_refused hs] at h
  | case3 s f rest hs _ ih =>
    rw [parse_whole hs] at h ⊢
    rw [parse_whole (front_append_whole hs t), ih h]
    rfl

theorem parse_append_refused {s : Bytes} {fault : Fault} (h : (parse s).fault = some fault)
    (t : Bytes) : parse (s ++ t) = ⟨(parse s).frames, some fault, (parse s).left ++ t⟩ := by
  induction s using parse.induct with
  | case1 s hs => simp [parse_unfinished hs] at h
  | case2 s fault' hs =>
    rw [parse_refused hs] at h ⊢
    rw [parse_refused (front_append_refused hs t)]
    simp_all
  | case3 s f rest hs _ ih =>
    rw [parse_whole hs] at h ⊢
    rw [parse_whole (front_append_whole hs t), ih h]

theorem fault_of_append {s t : Bytes} (h : (parse (s ++ t)).fault = none) :
    (parse s).fault = none := by
  cases he : (parse s).fault with
  | none => rfl
  | some fault =>
    rw [parse_append_refused he] at h
    cases h

/-- Nothing more is to be had from the bytes that are left. -/
theorem front_left (s : Bytes) :
    front (parse s).left = match (parse s).fault with
      | none => .unfinished
      | some fault => .refused fault := by
  induction s using parse.induct with
  | case1 s hs => simp [parse_unfinished hs, hs]
  | case2 s fault hs => simp [parse_refused hs, hs]
  | case3 s f rest hs _ ih =>
    rw [parse_whole hs]
    exact ih

theorem bytes_of_parse (s : Bytes) : s = (parse s).frames.flatMap bytes ++ (parse s).left := by
  induction s using parse.induct with
  | case1 s hs => simp [parse_unfinished hs]
  | case2 s fault hs => simp [parse_refused hs]
  | case3 s f rest hs _ ih =>
    rw [parse_whole hs, List.flatMap_cons, List.append_assoc, ← ih]
    exact bytes_of_whole hs

theorem length_of_parse (s : Bytes) :
    s.length = ((parse s).frames.flatMap bytes).length + (parse s).left.length := by
  have h := congrArg List.length (bytes_of_parse s)
  rwa [List.length_append] at h

/-- A stream fails as soon as it holds the whole header block that is refused. -/
theorem fault_eq_none_iff {u v header after : Bytes} {fault : Fault}
    (hf : (parse (u ++ v)).fault = some fault)
    (hc : cut (parse (u ++ v)).left = some (header, after)) :
    (parse u).fault = none ↔
      u.length < ((parse (u ++ v)).frames.flatMap bytes).length + (header.length + 4) := by
  have hu := length_of_parse u
  cases he : (parse u).fault with
  | some fault' =>
    obtain ⟨header', after', hc', _⟩ : ∃ header after,
        cut (parse u).left = some (header, after) ∧ payloadLength header = .error fault' :=
      cut_of_refused (by rw [front_left, he])
    rw [parse_append_refused he v, cut_append hc' v] at hc
    simp only [Option.some.injEq, Prod.mk.injEq] at hc
    have hlen := length_of_cut hc'
    rw [parse_append_refused he v]
    simp only [reduceCtorEq, false_iff]
    rw [← hc.1]
    omega
  | none =>
    have hopen : front (parse u).left = .unfinished := by rw [front_left, he]
    rw [parse_append he v] at hf hc ⊢
    simp only [List.flatMap_append, List.length_append, true_iff]
    cases hv : front ((parse u).left ++ v) with
    | unfinished =>
      rw [parse_unfinished hv] at hf
      cases hf
    | refused fault' =>
      rw [parse_refused hv] at hc ⊢
      have := length_of_unfinished hopen hv hc
      simp only [List.flatMap_nil, List.length_nil]
      omega
    | whole f rest =>
      have := size_of_unfinished hopen hv
      rw [parse_whole hv]
      simp only [List.flatMap_cons, List.length_append, bytes_length]
      omega

/-- The frames that lie within the first `n` bytes of a stream. -/
def within (n : Nat) : List Frame → List Frame
  | [] => []
  | f :: r => if f.size ≤ n then f :: within (n - f.size) r else []

theorem within_eq_take (n : Nat) (frames : List Frame) :
    within n frames = frames.take (within n frames).length := by
  induction frames generalizing n with
  | nil => rfl
  | cons f r ih =>
    rw [within]
    split
    · rw [List.length_cons, List.take_succ_cons, ← ih]
    · rfl

theorem within_zero (frames : List Frame) : within 0 frames = [] := by
  cases frames with
  | nil => rfl
  | cons f r => rw [within, if_neg (by rw [size]; omega)]

theorem within_of_unfinished {s : Bytes} (h : front s = .unfinished) (t : Bytes) :
    within s.length (parse (s ++ t)).frames = [] := by
  cases ht : front (s ++ t) with
  | unfinished => rw [parse_unfinished ht, within]
  | refused fault => rw [parse_refused ht, within]
  | whole f rest =>
    have := size_of_unfinished h ht
    rw [parse_whole ht, within, if_neg (by omega)]

/-- The frames within the first bytes of a stream are those of the first bytes. -/
theorem within_parse {s : Bytes} (h : (parse s).fault = none) (t : Bytes) :
    within s.length (parse (s ++ t)).frames = (parse s).frames := by
  induction s using parse.induct with
  | case1 s hs => rw [within_of_unfinished hs t, parse_unfinished hs]
  | case2 s fault hs => simp [parse_refused hs] at h
  | case3 s f rest hs _ ih =>
    rw [parse_whole hs] at h ⊢
    have hlen : s.length = f.size + rest.length := by
      rw [bytes_of_whole hs, List.length_append, bytes_length]
    rw [parse_whole (front_append_whole hs t), within, if_pos (by omega), hlen,
      Nat.add_sub_cancel_left, ih h]

/-! ### Bytes that never become a frame -/

/-- Nothing that follows makes a frame of the bytes. -/
def Stuck (s : Bytes) : Prop := ∀ t, (parse (s ++ t)).frames = []

theorem stuck_of_refused {s : Bytes} {fault : Fault} (h : front s = .refused fault) : Stuck s := by
  intro t
  rw [parse_refused (front_append_refused h t)]

theorem Stuck.append {s : Bytes} (h : Stuck s) (t : Bytes) : Stuck (s ++ t) := by
  intro u
  rw [List.append_assoc]
  exact h (t ++ u)

theorem Stuck.left {s : Bytes} (h : Stuck s) (t : Bytes) : (parse (s ++ t)).left = s ++ t := by
  have hbytes := bytes_of_parse (s ++ t)
  rw [h t] at hbytes
  exact hbytes.symm

/-- A frame needs no more than its own bytes. -/
theorem parse_bytes {s rest : Bytes} {f : Frame} (h : front s = .whole f rest) :
    parse f.bytes = ⟨[f], none, []⟩ := by
  have hfront : front f.bytes = .whole f [] := by
    apply front_of_cut _ (cut_of_whole h).2
    rw [List.append_nil]
    exact cut_bytes h
  rw [parse_whole hfront, parse_unfinished rfl]

/-- Where a frame can be completed, there are bytes that complete it and no more. -/
theorem exists_completion {s : Bytes} (h : front s = .unfinished) (hs : ¬ Stuck s) :
    ∃ t f, parse (s ++ t) = ⟨[f], none, []⟩ := by
  obtain ⟨t, ht⟩ := Classical.not_forall.1 hs
  cases hf : front (s ++ t) with
  | unfinished => exact absurd (by rw [parse_unfinished hf]) ht
  | refused fault => exact absurd (by rw [parse_refused hf]) ht
  | whole f rest =>
    have hshort : s.length ≤ f.bytes.length := by
      rw [bytes_length]
      exact Nat.le_of_lt (size_of_unfinished h hf)
    have hbegins : s <+: f.bytes :=
      List.prefix_of_prefix_length_le (List.prefix_append s t)
        (by rw [bytes_of_whole hf]; exact List.prefix_append _ _) hshort
    obtain ⟨u, hu⟩ := hbegins
    refine ⟨u, f, ?_⟩
    rw [hu]
    exact parse_bytes hf

end HoverServer.Frame
