import HoverServer.Proofs.CommandLine.Added
import HoverServer.Proofs.Program.Deeds
import HoverServer.Proofs.Program.Unlogged

/-! The log in a file against the log in the error output. A log file that is named besides changes
where the lines go and nothing else: it is made anew before the first line, and what follows is the
same deeds in the same order. -/
namespace HoverServer
open CommandLine (readSettings)

/-- The same deed, where complaints go to a file. -/
def Deed.moved (name : String) : Deed → Deed
  | .complain text => .append name text
  | d => d

/-- The same program with a log file that is named besides. -/
structure Launch.LogsTo (l : Launch) (path : String) (m : Launch) : Prop where
  named : CommandLine.LogsTo path l.arguments l.environment m.arguments m.environment
  input : m.input = l.input
  files : m.files = l.files
  locate : m.locate = l.locate

theorem Logger.deed_moved {log : Logger} (h : log.file = none) (name line : String) :
    ({ log with file := some name } : Logger).deed line = (log.deed line).moved name := by
  rw [deed, deed, h]
  rfl

namespace Launch

variable {l m : Launch} {s : Settings} {filter : Log.Filter} {path name : String}

theorem start_toErrors (hread : readSettings l.arguments l.environment = .ok s)
    (hfile : s.logFile = none) (hfilter : Log.Filter.read s.logFilter = .ok filter) :
    l.start = .ok (s, ⟨s.logFormat, filter, none⟩) := by
  simp only [start, hread, Logger.ofSettings, hfilter, hfile]

theorem start_toFile (hread : readSettings l.arguments l.environment = .ok s)
    (hfile : s.logFile = some path) (hfilter : Log.Filter.read s.logFilter = .ok filter)
    (hname : l.locate path = .ok name) :
    l.start = .ok (s, ⟨s.logFormat, filter, some name⟩) := by
  simp only [start, hread, Logger.ofSettings, hfilter, hfile, hname]

theorem run_started {log : Logger} (h : l.start = .ok (s, log)) (stamps : Nat → String) :
    l.run stamps = l.servedFinish log stamps (s.run l.input .perfect) := by
  rw [run, h]

/-- The deeds of a program whose log is moved, beside those of the program whose log is not. -/
theorem deeds_moved {log : Logger} {t : Settings} (hl : l.start = .ok (s, log))
    (hlog : log.file = none) (hm : m.start = .ok (t, { log with file := some name }))
    (hinput : m.input = l.input) (hrun : t.run = s.run) (times : Nat → String) :
    m.deeds times = .create name :: (l.deeds times).map (Deed.moved name) := by
  rw [deeds_served hl, deeds_served hm, hinput, hrun]
  simp only [Logger.first, hlog, Option.toList_none, Option.toList_some, List.map_nil,
    List.map_cons, List.nil_append, List.map_append, List.map_map, List.cons_append]
  congr 3
  funext line
  exact Logger.deed_moved hlog name line

/-- A log file that is named besides only moves the log: into a file that has nothing else in it,
while nothing is left for the error output. -/
theorem run_moved (hread : readSettings l.arguments l.environment = .ok s)
    (hfile : s.logFile = none) (hfilter : Log.Filter.read s.logFilter = .ok filter)
    (hm : l.LogsTo path m) (hname : l.locate path = .ok name) (stamps times : Nat → String) :
    (m.run times).output = (l.run stamps).output ∧
      (m.run times).exitCode = (l.run stamps).exitCode ∧
      (m.run times).errors = [] ∧
      (m.run times).files.contents? name = some (l.run times).errors ∧
      (∀ other ≠ name, (m.run times).files.contents? other = l.files.contents? other) ∧
      (l.run stamps).files = l.files ∧
      m.deeds times = .create name :: (l.deeds times).map (Deed.moved name) := by
  have hl := start_toErrors hread hfile hfilter
  have hmoved :
      m.start = .ok ({ s with logFile := some path }, ⟨s.logFormat, filter, some name⟩) :=
    start_toFile (hm.named.readSettings hread hfile) rfl hfilter (hm.locate ▸ hname)
  have hrun : ({ s with logFile := some path } : Settings).run = s.run := rfl
  obtain ⟨houtput, hcode, _, _⟩ := run_unlogged hmoved hl hm.input rfl times stamps
  refine ⟨houtput, hcode, ?_, ?_, fun other hother => ?_, ?_,
    deeds_moved hl rfl hmoved hm.input hrun times⟩
  · rw [run_started hmoved]
    rfl
  · rw [run_started hmoved, run_started hl, hm.input, hrun]
    exact Files.contents?_put _ _
  · rw [run_started hmoved, ← hm.files]
    exact Files.contents?_put_ne _ _ hother
  · rw [run_started hl]
    rfl

/-- A file with something in it, named between the words of a command line. -/
theorem run_moved_shutsDown :
    let older : Files := [("/var/log/run.log", Bytes.ofString "an older log")]
    let l := shutsDown older ["lumend", "--log-format=compact"]
    let m := shutsDown older
      ["lumend", "--log-file", "../var/log/run.log", "--log-format=compact"]
    let stamps : Nat → String := fun n => toString n
    l.LogsTo "../var/log/run.log" m ∧ (m.run stamps).output = (l.run stamps).output ∧
      (m.run stamps).errors = [] ∧
      (m.run stamps).files.contents? "/var/log/run.log" = some (l.run stamps).errors := by
  intro older l m stamps
  have hread : readSettings l.arguments l.environment = .ok ⟨none, "info", .compact, .standard⟩ :=
    Json.ok_of_toOption (by decide +kernel)
  have hfilter : Log.Filter.read "info" = .ok [⟨none, .upTo .info, false⟩] :=
    Json.ok_of_toOption (by decide +kernel)
  have hname : l.locate "../var/log/run.log" = .ok "/var/log/run.log" :=
    Json.ok_of_toOption (by decide +kernel)
  have halone : readSettings [Bytes.ofString "lumend"] (fun _ => none) = .ok .standard :=
    Json.ok_of_toOption (by decide +kernel)
  have hnamed : CommandLine.LogsTo "../var/log/run.log" l.arguments l.environment m.arguments
      m.environment :=
    @CommandLine.LogsTo.byOption _ _ _ _ [Bytes.ofString "--log-format=compact"] _ false rfl
      (by decide) (by decide) halone (fun _ => by decide)
  have hm : l.LogsTo "../var/log/run.log" m := ⟨hnamed, rfl, rfl, rfl⟩
  obtain ⟨houtput, _, herrors, hcontents, _⟩ := run_moved hread rfl hfilter hm hname stamps stamps
  exact ⟨hm, houtput, herrors, hcontents⟩

end Launch
end HoverServer
