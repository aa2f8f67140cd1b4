import HoverServer.Stream.Basic

/-! Both ends of a connection when nothing goes wrong for good: a sink that never fails, however
little it takes at a time, and reads that bring all their bytes, whatever interrupts them. -/
namespace HoverServer
namespace Sink

/-- A sink that takes any number of bytes, in calls of any size, and any number of flushes. -/
structure Tireless (s : Sink) : Prop where
  room : s.room = none
  flushes : s.flushes = none

theorem tireless_perfect : perfect.Tireless := ⟨rfl, rfl⟩

/-- The sink after some more bytes. -/
def took (s : Sink) (bs : Bytes) : Sink := { s with accepted := s.accepted ++ bs }

theorem Tireless.took {s : Sink} (h : s.Tireless) (bs : Bytes) : (s.took bs).Tireless :=
  ⟨h.room, h.flushes⟩

theorem took_nil (s : Sink) : s.took [] = s := by
  simp [Sink.took]

theorem took_append (s : Sink) (u v : Bytes) : s.took (u ++ v) = (s.took u).took v := by
  simp [Sink.took, List.append_assoc]

theorem perfect_took (bs : Bytes) : (perfect.took bs).accepted = bs := rfl

theorem took_inj {s : Sink} {u v : Bytes} : s.took u = s.took v ↔ u = v := by
  simp [Sink.took]

theorem Tireless.free {s : Sink} (h : s.Tireless) (n : Nat) : s.free n = n := by
  simp only [Sink.free, h.room]

theorem Tireless.write {s : Sink} (h : s.Tireless) {bs : Bytes} (hne : bs ≠ []) :
    ∃ n, s.write bs = (.ok (n + 1), s.took (bs.take (n + 1))) := by
  have hpos : 0 < bs.length := List.length_pos_iff.2 hne
  refine ⟨min bs.length (s.most s.accepted.length + 1) - 1, ?_⟩
  have hn : min bs.length (s.most s.accepted.length + 1) - 1 + 1 =
      min bs.length (s.most s.accepted.length + 1) := by omega
  simp only [hn, Sink.write, h.free]
  rw [if_neg (by omega)]
  rfl

theorem Tireless.writeAll {s : Sink} (h : s.Tireless) (bs : Bytes) :
    s.writeAll bs = (none, s.took bs) := by
  induction hk : bs.length using Nat.strongRecOn generalizing s bs with
  | _ k ih =>
    rw [Sink.writeAll]
    by_cases hne : bs = []
    · rw [dif_pos hne, hne, took_nil]
    · obtain ⟨n, hw⟩ := h.write hne
      have hpos : 0 < bs.length := List.length_pos_iff.2 hne
      rw [dif_neg hne, hw]
      simp only
      rw [ih (bs.drop (n + 1)).length (by rw [List.length_drop]; omega) (h.took _) _ rfl,
        ← took_append, List.take_append_drop]

theorem Tireless.send {s : Sink} (h : s.Tireless) (bs : Bytes) :
    s.send bs = (none, s.took bs) := by
  rw [Sink.send, h.writeAll]
  simp only [flush, (h.took bs).flushes]

end Sink

namespace Bytes

theorem flatten_pieces (n : Nat) (bs : Bytes) : (pieces n bs).flatten = bs := by
  induction bs using pieces.induct n with
  | case1 => simp [pieces]
  | case2 b r ih => rw [pieces, List.flatten_cons, ih, List.cons_append, List.take_append_drop]

theorem ne_nil_of_mem_pieces {n : Nat} {bs piece : Bytes} (h : piece ∈ pieces n bs) :
    piece ≠ [] := by
  induction bs using pieces.induct n with
  | case1 => simp [pieces] at h
  | case2 b r ih =>
    rw [pieces] at h
    rcases List.mem_cons.1 h with rfl | h
    · simp
    · exact ih h

theorem pieces_of_length_le {n : Nat} {bs : Bytes} (hne : bs ≠ []) (h : bs.length ≤ n + 1) :
    pieces n bs = [bs] := by
  obtain ⟨b, r, rfl⟩ := List.exists_cons_of_ne_nil hne
  have hr : r.length ≤ n := Nat.le_of_succ_le_succ h
  rw [pieces, List.take_of_length_le hr, List.drop_of_length_le hr, pieces]

end Bytes

namespace Read

/-- Some bytes, or a call that has to be made again. -/
def Steady : Read → Prop
  | .bytes bs => bs ≠ []
  | .failure e => e.kind = .interrupted

instance : DecidablePred Steady
  | .bytes bs => inferInstanceAs (Decidable (bs ≠ []))
  | .failure e => inferInstanceAs (Decidable (e.kind = .interrupted))

def bytes? : Read → Option Bytes
  | .bytes bs => some bs
  | .failure _ => none

/-- The reads bring exactly these bytes before the input ends. -/
structure Delivers (reads : List Read) (s : Bytes) : Prop where
  steady : ∀ r ∈ reads, r.Steady
  content : (reads.filterMap bytes?).flatten = s

instance (reads : List Read) (s : Bytes) : Decidable (Delivers reads s) :=
  decidable_of_iff ((∀ r ∈ reads, r.Steady) ∧ (reads.filterMap bytes?).flatten = s)
    ⟨fun h => ⟨h.1, h.2⟩, fun h => ⟨h.steady, h.content⟩⟩

theorem delivers_single {s : Bytes} (h : s ≠ []) : Delivers [.bytes s] s where
  steady _ hr := List.mem_singleton.1 hr ▸ h
  content := List.append_nil s

/-- The chunks that the server gets from its reads. -/
def arrivals (reads : List Read) : List Bytes := (reads.flatMap chunks).filterMap bytes?

theorem arrivals_bytes {bs : Bytes} (hne : bs ≠ []) (h : bs.length ≤ chunkSize) (r : List Read) :
    arrivals (.bytes bs :: r) = bs :: arrivals r := by
  have hpieces : Bytes.pieces (chunkSize - 1) bs = [bs] := Bytes.pieces_of_length_le hne h
  rw [arrivals, List.flatMap_cons, chunks, hpieces]
  · rfl
  · exact hne

theorem chunks_of_steady {r : Read} (h : r.Steady) :
    (∀ x ∈ r.chunks, x.Steady) ∧ (r.chunks.filterMap bytes?).flatten = r.bytes?.getD [] := by
  cases r with
  | failure e => exact ⟨fun x hx => List.mem_singleton.1 hx ▸ h, rfl⟩
  | bytes bs =>
    cases bs with
    | nil => exact absurd rfl h
    | cons b bs =>
      rw [chunks]
      constructor
      · intro x hx
        obtain ⟨piece, hp, rfl⟩ := List.mem_map.1 hx
        exact Bytes.ne_nil_of_mem_pieces hp
      · rw [List.filterMap_map]
        have hsome : (Read.bytes? ∘ Read.bytes) = some := rfl
        rw [hsome, List.filterMap_some, Bytes.flatten_pieces]
        rfl
      · simp

/-- Cutting long reads changes nothing of what they deliver. -/
theorem Delivers.chunks {reads : List Read} {s : Bytes} (h : Delivers reads s) :
    (∀ x ∈ reads.flatMap chunks, x.Steady) ∧ (arrivals reads).flatten = s := by
  constructor
  · intro x hx
    obtain ⟨r, hr, hx⟩ := List.mem_flatMap.1 hx
    exact (chunks_of_steady (h.steady r hr)).1 x hx
  · rw [← h.content, arrivals]
    have hs := h.steady
    clear h
    induction reads with
    | nil => rfl
    | cons r more ih =>
      have hr := (chunks_of_steady (hs r (by simp))).2
      have hmore := ih fun x hx => hs x (List.mem_cons_of_mem r hx)
      rw [List.flatMap_cons, List.filterMap_append, List.flatten_append, hr, hmore,
        List.filterMap_cons]
      cases r <;> rfl

end Read
end HoverServer
