import HoverServer.Proofs.Frame.Header
import HoverServer.Proofs.Frame.Loop

/-! Where the bytes of a stream are. Each is in one of the frames that have been taken off, or held
back still, also when feeds have failed in between. A frame has at least twenty bytes, so the loop
of a feed comes to an end after as many frames as there is room for. -/
namespace HoverServer.Frame

/-- A frame as a stream may hold it. Its first terminator is the one behind the header block. -/
structure WellFormed (f : Frame) : Prop where
  block : FirstAt f.bytes f.header.length
  length : Reads f.header (.ok f.payload.length)
  size : 20 ≤ f.bytes.length

theorem wellFormed_of_whole {s rest : Bytes} {f : Frame} (h : front s = .whole f rest) :
    f.WellFormed := by
  have hlength : Reads f.header (.ok f.payload.length) :=
    contentLength_eq_iff.1 (contentLength_of_payloadLength (cut_of_whole h).2)
  have hheader := hlength.length_le
  exact ⟨firstAt_of_cut (cut_bytes h), hlength, by rw [bytes_length, Frame.size]; omega⟩

namespace Decoder

/-- The frames that some chunks take off, with those of the feeds that fail. -/
def taken (d : Decoder) : List Bytes → List Frame
  | [] => []
  | chunk :: r => (d.feed chunk).frames ++ (d.feed chunk).decoder.taken r

/-- The bytes of a stream: those of the frames that have been taken off it, in order, and behind
them those that are held back. -/
structure Accounted (stream : Bytes) (frames : List Frame) (d : Decoder) : Prop where
  conserved : stream = frames.flatMap bytes ++ d.buffer
  wellFormed : ∀ f ∈ frames, f.WellFormed

variable {stream : Bytes} {frames more : List Frame} {d e : Decoder} {f : Frame}

theorem Accounted.empty : Accounted [] [] empty where
  conserved := rfl
  wellFormed := List.forall_mem_nil _

theorem Accounted.append (h : Accounted stream frames d) (chunk : Bytes) :
    Accounted (stream ++ chunk) frames ⟨d.buffer ++ chunk, d.scanned⟩ where
  conserved := by rw [h.conserved, List.append_assoc]
  wellFormed := h.wellFormed

theorem Accounted.take (h : Accounted stream frames d) (hd : d.Scanned)
    (ht : d.next = .take f e) : Accounted stream (frames ++ [f]) e := by
  have hfront := (hd.next_take ht).1
  constructor
  · rw [h.conserved, bytes_of_whole hfront, List.flatMap_append, List.flatMap_singleton,
      List.append_assoc]
  · exact List.forall_mem_append.2
      ⟨h.wellFormed, List.forall_mem_singleton.2 (wellFormed_of_whole hfront)⟩

theorem Accounted.takes (h : Accounted stream frames d) (hd : d.Scanned) (ht : Takes d more e) :
    Accounted stream (frames ++ more) e := by
  induction ht generalizing frames with
  | none d => rwa [List.append_nil]
  | @frame d e last f more next rest ih =>
    have hmore := ih (h.take hd next) (hd.next_take next).2
    rwa [List.append_assoc] at hmore

theorem Accounted.feed (h : Accounted stream frames d) (hd : d.Scanned) (chunk : Bytes) :
    Accounted (stream ++ chunk) (frames ++ (d.feed chunk).frames) (d.feed chunk).decoder := by
  obtain ⟨last, htakes, hstops⟩ := exists_stops ⟨d.buffer ++ chunk, d.scanned⟩
  have hlast := (h.append chunk).takes (hd.append chunk) htakes
  have hbuffer := ((hd.append chunk).takes htakes).stops_buffer hstops
  exact ⟨by rw [Decoder.feed, hbuffer]; exact hlast.conserved, hlast.wellFormed⟩

theorem Accounted.fed (h : Accounted stream frames d) (hd : d.Scanned) (chunks : List Bytes) :
    Accounted (stream ++ chunks.flatten) (frames ++ d.taken chunks) (d.fed chunks) := by
  induction chunks generalizing stream frames d with
  | nil => simpa [taken, Decoder.fed] using h
  | cons chunk r ih =>
    have hrest := ih (h.feed hd chunk) (hd.feed_scanned chunk)
    rwa [List.append_assoc, List.append_assoc, ← List.flatten_cons] at hrest

/-! ### The end of the loop -/

theorem Scanned.next_shrinks (h : d.Scanned) (ht : d.next = .take f e) :
    e.buffer.length + 20 ≤ d.buffer.length := by
  have hfront := (h.next_take ht).1
  have hsize := (wellFormed_of_whole hfront).size
  rw [bytes_of_whole hfront, List.length_append]
  omega

theorem Scanned.takes_length (h : d.Scanned) (ht : Takes d frames e) :
    e.buffer.length + 20 * frames.length ≤ d.buffer.length := by
  induction ht with
  | none d => exact Nat.le_refl _
  | frame next rest ih =>
    have hmore := ih (h.next_take next).2
    have hfirst := h.next_shrinks next
    rw [List.length_cons]
    omega

theorem Feed.length_bodies {fed : Feed} {bodies : List String} (h : fed.bodies = .ok bodies) :
    bodies.length = fed.frames.length := by
  rw [Feed.bodies] at h
  split at h
  · cases h
    exact List.length_map _
  · cases h

/-- However a decoder has been fed, no byte of the stream is lost and none is read twice, neither
between two feeds nor in the loop of one. The loop takes a frame off each time around and ends
with the frames of the feed, so a feed hands on no more than one body for each twenty bytes. -/
theorem feed_conserves (past : List Bytes) (chunk : Bytes) :
    let d := empty.fed past
    let start : Decoder := ⟨d.buffer ++ chunk, d.scanned⟩
    Accounted past.flatten (empty.taken past) d ∧
      (∃ last, Takes start (d.feed chunk).frames last ∧
        Stops last (d.feed chunk).fault (d.feed chunk).decoder) ∧
      (∀ frames e, Takes start frames e →
        Accounted (past.flatten ++ chunk) (empty.taken past ++ frames) e ∧
          frames <+: (d.feed chunk).frames ∧
          ∀ f rest, e.next = .take f rest → rest.buffer.length + 20 ≤ e.buffer.length) ∧
      (d.feed chunk).frames.length ≤ (d.buffer.length + chunk.length) / 20 ∧
      ∀ bodies, (d.feed chunk).bodies = .ok bodies →
        bodies.length ≤ (d.buffer.length + chunk.length) / 20 := by
  intro d start
  have hd : d.Scanned := Scanned.fed (.fresh []) past
  have hpast : Accounted past.flatten (empty.taken past) d :=
    Accounted.empty.fed (.fresh []) past
  obtain ⟨last, hlast, hstops⟩ : ∃ last, Takes start (d.feed chunk).frames last ∧
      Stops last (d.feed chunk).fault (d.feed chunk).decoder := exists_stops start
  have hcount : (d.feed chunk).frames.length ≤ (d.buffer.length + chunk.length) / 20 := by
    have hlength := (hd.append chunk).takes_length hlast
    rw [List.length_append] at hlength
    rw [Nat.le_div_iff_mul_le (by decide)]
    omega
  refine ⟨hpast, ⟨last, hlast, hstops⟩, fun frames e htakes => ⟨?_, ?_, ?_⟩, hcount, ?_⟩
  · exact (hpast.append chunk).takes (hd.append chunk) htakes
  · rw [Decoder.feed, htakes.drain]
    exact List.prefix_append _ _
  · intro f rest htake
    exact ((hd.append chunk).takes htakes).next_shrinks htake
  · intro bodies hbodies
    rwa [Feed.length_bodies hbodies]

/-- Two of the smallest frames, the first one in two parts: forty bytes, and a body for each
twenty of them. -/
theorem feed_conserves_smallest :
    let f : Frame := ⟨Bytes.ofString "Content-Length:0", []⟩
    let past := [f.bytes.take 10]
    let chunk := f.bytes.drop 10 ++ f.bytes
    let d := empty.fed past
    let later : Decoder := ⟨f.bytes, 0⟩
    Takes ⟨d.buffer ++ chunk, d.scanned⟩ [f] later ∧ later.next = .take f empty ∧
      (d.feed chunk).bodies = .ok ["", ""] ∧ d.buffer.length + chunk.length = 40 ∧
      Accounted (past.flatten ++ chunk) (empty.taken past ++ [f]) later ∧
      [f] <+: (d.feed chunk).frames ∧ empty.buffer.length + 20 ≤ later.buffer.length ∧
      ["", ""].length ≤ (d.buffer.length + chunk.length) / 20 := by
  intro f past chunk d later
  have hd : d = ⟨f.bytes.take 10, 10⟩ := by
    have hfirst : empty.feed (f.bytes.take 10) = ⟨[], none, ⟨f.bytes.take 10, 10⟩⟩ := drain_wait rfl
    simp only [d, past, Decoder.fed, hfirst]
  have hstart : Takes ⟨d.buffer ++ chunk, d.scanned⟩ [f] later := by
    rw [hd]
    exact .frame rfl (.none _)
  have hlater : later.next = .take f empty := rfl
  have hbodies : (d.feed chunk).bodies = .ok ["", ""] := by
    have hempty : empty.drain = ⟨[], none, empty⟩ := drain_wait rfl
    have hdrain := hstart.drain
    rw [drain_take hlater, hempty] at hdrain
    rw [Decoder.feed, hdrain]
    rfl
  obtain ⟨_, _, hloop, _, hcount⟩ := feed_conserves past chunk
  obtain ⟨haccounted, hfront, hshrinks⟩ := hloop [f] later hstart
  refine ⟨hstart, hlater, hbodies, ?_, haccounted, hfront, hshrinks f empty hlater,
    hcount _ hbodies⟩
  rw [hd]
  rfl

end Decoder
end HoverServer.Frame
