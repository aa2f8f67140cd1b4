import HoverServer.Program
import HoverServer.Proofs.Connection.Calls

/-! The log against the protocol. A program writes its log beside its output, and however it is
told to log, the output and the exit code are those of the connection it serves. The connection in
turn is the dialogue with its client, in which there is no log at all. -/
namespace HoverServer
open HoverServer.Frame (Decoder)

/-- The dialogue with the client behind some input. -/
def Dialogue.ofInput (p : Policies) (input : List Read) : Dialogue :=
  ofFeeds p .fresh (Decoder.empty.feeds (Read.arriving (input.flatMap Read.chunks)))

/-- What a finished program shows of the connection that it served. -/
structure Finish.Shows (f : Finish) (served : Served) : Prop where
  output : f.output = served.connection.sink.accepted
  success : f.exitCode = 0 ↔
    served.outcome = .ok .shutdown ∨ served.outcome = .ok .endOfInput
  failure : f.exitCode = 1 ↔
    served.outcome = .ok (.exit false) ∨ ∃ e, served.outcome = .error e

theorem serve_ofInput (p : Policies) (input : List Read) :
    (serve p input .perfect).Had .perfect (Dialogue.ofInput p input)
      (Read.stop (input.flatMap Read.chunks)) := by
  have htireless : (Connection.start p .perfect).sink.Tireless := Sink.tireless_perfect
  obtain ⟨hsink, hwhole, _⟩ := Connection.run_relays (c := .start p .perfect)
    Session.fresh_isOpen.ne_exited (input.flatMap Read.chunks)
  rw [htireless.sendAll, Dialogue.flatten_messages] at hsink
  rw [htireless.sendAll] at hwhole
  exact ⟨hwhole rfl, hsink⟩

/-- A served connection never ends with a call to exit that was announced: it is over as soon as
the announcement has been answered. -/
theorem serve_outcome_ne (p : Policies) (input : List Read) (sink : Sink) :
    (serve p input sink).outcome ≠ .ok (.exit true) := by
  intro h
  obtain h | h | h := Connection.run_ok Session.fresh_isOpen h <;> cases h

theorem Served.exitCode_eq_zero_iff {s : Served} (h : s.outcome ≠ .ok (.exit true)) :
    s.exitCode = 0 ↔ s.outcome = .ok .shutdown ∨ s.outcome = .ok .endOfInput := by
  rw [exitCode]
  generalize s.outcome = outcome at h
  cases outcome with
  | error e => simp
  | ok t =>
    cases t with
    | exit graceful => cases graceful <;> simp_all [Termination.exitCode]
    | _ => simp [Termination.exitCode]

theorem Served.exitCode_eq_one_iff (s : Served) :
    s.exitCode = 1 ↔ s.outcome = .ok (.exit false) ∨ ∃ e, s.outcome = .error e := by
  rw [exitCode]
  generalize s.outcome = outcome
  cases outcome with
  | error e => simp
  | ok t =>
    cases t with
    | exit graceful => cases graceful <;> simp [Termination.exitCode]
    | _ => simp [Termination.exitCode]

namespace Launch

variable {l : Launch} {s : Settings} {log : Logger}

theorem servedFinish_eq (l : Launch) (log : Logger) (stamps : Nat → String) (served : Served) :
    (l.servedFinish log stamps served).output = served.connection.sink.accepted ∧
      (l.servedFinish log stamps served).exitCode = served.exitCode := by
  rw [servedFinish]
  split <;> exact ⟨rfl, rfl⟩

theorem run_served (h : l.start = .ok (s, log)) (stamps : Nat → String) :
    (l.run stamps).output = (serve s.policies l.input .perfect).connection.sink.accepted ∧
      (l.run stamps).exitCode = (serve s.policies l.input .perfect).exitCode := by
  rw [run, h]
  exact servedFinish_eq l log stamps (s.run l.input .perfect)

theorem run_shows (h : l.start = .ok (s, log)) (stamps : Nat → String) :
    (l.run stamps).Shows (serve s.policies l.input .perfect) := by
  obtain ⟨houtput, hcode⟩ := run_served h stamps
  refine ⟨houtput, ?_, ?_⟩
  · rw [hcode, Served.exitCode_eq_zero_iff (serve_outcome_ne s.policies l.input .perfect)]
  · rw [hcode, Served.exitCode_eq_one_iff]

/-- Two programs that serve the same input by the same policies write the same output and finish
with the same code, wherever and however they log. -/
theorem run_unlogged {m : Launch} {t : Settings} {other : Logger} (hl : l.start = .ok (s, log))
    (hm : m.start = .ok (t, other)) (hinput : l.input = m.input)
    (hpolicies : s.policies = t.policies) (stamps times : Nat → String) :
    (l.run stamps).output = (m.run times).output ∧
      (l.run stamps).exitCode = (m.run times).exitCode ∧
      (l.run stamps).Shows (serve s.policies l.input .perfect) ∧
      (l.run stamps).output = (Dialogue.ofInput s.policies l.input).bytes := by
  obtain ⟨houtput, hcode⟩ := run_served hl stamps
  obtain ⟨houtput', hcode'⟩ := run_served hm times
  rw [← hinput, ← hpolicies] at houtput' hcode'
  have hbytes : (serve s.policies l.input .perfect).connection.sink.accepted =
      (Dialogue.ofInput s.policies l.input).bytes := by
    rw [(serve_ofInput s.policies l.input).sink]
    rfl
  exact ⟨houtput.trans houtput'.symm, hcode.trans hcode'.symm, run_shows hl stamps,
    houtput.trans hbytes⟩

/-- A place for logs, on a system where programs start at another one. -/
def logPlace : Directories := ⟨[["home"], ["var"], ["var", "log"]], ["home"]⟩

/-- A call to shut down, given to a program with these arguments. -/
def shutsDown (files : Files) (arguments : List String) : Launch :=
  ⟨arguments.map Bytes.ofString, fun _ => none,
    [.bytes ([Bytes.ofString Request.farewell.encode].flatMap Frame.encode)], files,
    logPlace.locate files⟩

/-- One program logs a little to the error output, the other one everything to a file. -/
theorem run_unlogged_shutsDown :
    let stamps : Nat → String := fun n => toString n
    let plain := (shutsDown [] ["lumend"]).run stamps
    let noisy := (shutsDown [] ["lumend", "--log-format=json", "--log-filter=trace",
      "--log-file=/var/log/run.log"]).run stamps
    plain.output = noisy.output ∧ plain.exitCode = noisy.exitCode ∧ plain.exitCode = 0 ∧
      plain.output =
        Frame.encode (Bytes.ofString (Response.encode ⟨Request.farewell.id, .result .null⟩)) := by
  intro stamps plain noisy
  have hplain : (shutsDown [] ["lumend"]).start =
      .ok (.standard, ⟨.plain, [⟨none, .upTo .info, false⟩], none⟩) :=
    Json.ok_of_toOption (by decide +kernel)
  have hnoisy : (shutsDown [] ["lumend", "--log-format=json", "--log-filter=trace",
      "--log-file=/var/log/run.log"]).start =
      .ok (⟨some "/var/log/run.log", "trace", .json, .standard⟩,
        ⟨.json, [⟨none, .upTo .trace, false⟩], some "/var/log/run.log"⟩) :=
    Json.ok_of_toOption (by decide +kernel)
  have hhad := serve_farewell Sink.tireless_perfect .standard (Read.delivers_single (by decide))
  obtain ⟨houtput, hcode, hshows, _⟩ := run_unlogged hplain hnoisy rfl rfl stamps stamps
  refine ⟨houtput, hcode, hshows.success.2 (Or.inl hhad.outcome), ?_⟩
  rw [hshows.output]
  exact (congrArg Sink.accepted hhad.sink).trans rfl

end Launch
end HoverServer
