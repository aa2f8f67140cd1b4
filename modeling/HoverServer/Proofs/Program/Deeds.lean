import HoverServer.Program
import HoverServer.Proofs.Log.Lines

/-! The program as it acts. What has been done to the world stays done when the program ends early,
so it matters that everything that can fail at the start comes before the log file is made. The
deeds, one after the other, leave behind what the whole run is said to leave behind. -/
namespace HoverServer

/-- What a program shows to the world around it. -/
structure World where
  output : Bytes
  errors : Bytes
  files : Files
  deriving DecidableEq

inductive Deed where
  /-- An empty file, whatever was in it before. -/
  | create (name : String)
  | append (name : String) (text : Bytes)
  | write (text : Bytes)
  | complain (text : Bytes)
  deriving DecidableEq

def Deed.perform (w : World) : Deed → World
  | .create name => { w with files := w.files.put name [] }
  | .append name text =>
    { w with files := w.files.put name ((w.files.contents? name).getD [] ++ text) }
  | .write text => { w with output := w.output ++ text }
  | .complain text => { w with errors := w.errors ++ text }

def World.after (w : World) (deeds : List Deed) : World := deeds.foldl Deed.perform w

/-- Something that may end early, with the deeds that were done up to then. -/
abbrev Doing (ε α : Type) := ExceptT ε (StateM (List Deed)) α

namespace Doing

variable {ε α : Type}

def deed (d : Deed) : Doing ε Unit := ExceptT.lift (modify (· ++ [d]))

/-- Something that does nothing to the world. -/
def look (a : Except ε α) : Doing ε α := ExceptT.mk (pure a)

/-- How it ends, and all deeds, when some were done before. -/
def after (done : List Deed) (x : Doing ε α) : Except ε α × List Deed := x.run.run done

end Doing

open Doing

def Logger.opened (locate : String → Except CreateFault String) (s : Settings) :
    Doing LogFault Logger := do
  let filter ← look ((Log.Filter.read s.logFilter).mapError .filter)
  match s.logFile with
  | none => return ⟨s.logFormat, filter, none⟩
  | some path =>
    let name ← look ((locate path).mapError (.file path))
    deed (.create name)
    return ⟨s.logFormat, filter, some name⟩

/-- What a log needs before its first line. -/
def Logger.first (log : Logger) : List Deed := log.file.toList.map .create

/-- A line goes where the log is. -/
def Logger.deed (log : Logger) (line : String) : Deed :=
  let text := Bytes.ofString (line ++ "\n")
  match log.file with
  | none => .complain text
  | some name => .append name text

namespace Launch

def opened (l : Launch) : Doing StartFault (Settings × Logger) := do
  let s ← look ((CommandLine.readSettings l.arguments l.environment).mapError .settings)
  let log ← (Logger.opened l.locate s).adapt .log
  return (s, log)

def fault (l : Launch) : StartFault → Deed
  | .settings h =>
    let text := Bytes.ofString (h.text .stream l.name l.environment)
    if h.isInformational then .write text else .complain text
  | .log fault =>
    let message := (StartFault.log fault).message l.name l.environment
    .complain (Bytes.ofString (CommandLine.programName ++ ": " ++ message ++ "\n"))

/-- The whole program, up to the code that it ends with. The log of a connection and what it writes
go to different places, so it is not told here how they take turns. -/
def act (l : Launch) (stamps : Nat → String) : StateM (List Deed) UInt8 := do
  match ← l.opened.run with
  | .error fault =>
    modify (· ++ [l.fault fault])
    match fault with
    | .settings h => return h.exitCode
    | .log _ => return 1
  | .ok (s, log) =>
    let served := s.run l.input .perfect
    modify (· ++ (Log.lines log.format log.filter stamps served.events).map log.deed ++
      [.write served.connection.sink.accepted])
    return served.exitCode

def code (l : Launch) (stamps : Nat → String) : UInt8 := ((l.act stamps).run []).1

/-- Everything that the program does. -/
def deeds (l : Launch) (stamps : Nat → String) : List Deed := ((l.act stamps).run []).2

end Launch

/-! ### Files and lines -/

namespace Files

variable (fs : Files) {name other : String} (a b : Bytes)

theorem contents?_put : (fs.put name a).contents? name = some a := by
  simp [put, contents?]

theorem contents?_put_ne (h : other ≠ name) :
    (fs.put name a).contents? other = fs.contents? other := by
  have hfirst : (other == name) = false := by simpa using h
  rw [put, contents?, contents?, List.lookup_cons, hfirst]
  show List.lookup other (fs.filter _) = _
  induction fs with
  | nil => rfl
  | cons file r ih =>
    by_cases hname : file.1 = name
    · have hfile : (other == file.1) = false := by simpa [hname] using h
      rw [List.lookup_cons, hfile, List.filter_cons_of_neg (by simpa using hname)]
      exact ih
    · rw [List.filter_cons_of_pos (by simpa using hname), List.lookup_cons, List.lookup_cons]
      split
      · rfl
      · exact ih

end Files

namespace World

end World

/-! ### The start -/

namespace Doing

variable {ε ε' α β : Type}

theorem after_bind (x : Doing ε α) (f : α → Doing ε β) (done : List Deed) :
    after done (x >>= f) =
      match after done x with
      | (.error e, deeds) => (.error e, deeds)
      | (.ok a, deeds) => after deeds (f a) := by
  simp only [after, ExceptT.run_bind, StateT.run_bind]
  generalize StateT.run (ExceptT.run x) done = ended
  obtain ⟨_ | a, deeds⟩ := ended <;> rfl

theorem after_look_bind (a : Except ε α) (g : ε → ε') (f : α → Doing ε' β) (done : List Deed) :
    after done (look (a.mapError g) >>= f) =
      match a with
      | .error e => (.error (g e), done)
      | .ok a => after done (f a) := by
  cases a <;> rfl

theorem after_adapt (x : Doing ε α) (f : ε → ε') (done : List Deed) :
    after done (x.adapt f : ExceptT _ _ _) = ((after done x).1.mapError f, (after done x).2) := by
  rfl

end Doing

theorem Logger.after_opened (locate : String → Except CreateFault String) (s : Settings)
    (done : List Deed) :
    after done (Logger.opened locate s) =
      match Logger.ofSettings locate s with
      | .error fault => (.error fault, done)
      | .ok log => (.ok log, done ++ log.first) := by
  rw [opened, ofSettings, after_look_bind]
  cases Log.Filter.read s.logFilter with
  | error fault => rfl
  | ok filter =>
    cases s.logFile with
    | none => exact congrArg (Prod.mk _) (List.append_nil done).symm
    | some path =>
      dsimp only
      refine (after_look_bind _ _ _ _).trans ?_
      cases locate path <;> rfl

namespace Launch

variable {l : Launch} {s : Settings} {log : Logger} {fault : StartFault}

theorem after_opened (l : Launch) (done : List Deed) :
    after done l.opened =
      match l.start with
      | .error fault => (.error fault, done)
      | .ok (s, log) => (.ok (s, log), done ++ log.first) := by
  rw [opened, start, after_look_bind]
  cases CommandLine.readSettings l.arguments l.environment with
  | error h => rfl
  | ok s =>
    dsimp only
    rw [after_bind, after_adapt, Logger.after_opened]
    cases Logger.ofSettings l.locate s <;> rfl

theorem act_served (h : l.start = .ok (s, log)) (stamps : Nat → String) :
    let served := s.run l.input .perfect
    (l.act stamps).run [] = (served.exitCode,
      log.first ++ (Log.lines log.format log.filter stamps served.events).map log.deed ++
        [.write served.connection.sink.accepted]) := by
  have hopened := l.after_opened []
  rw [h, after] at hopened
  rw [act, StateT.run_bind, hopened]
  rfl

theorem deeds_served (h : l.start = .ok (s, log)) (stamps : Nat → String) :
    let served := s.run l.input .perfect
    l.deeds stamps =
      log.first ++ (Log.lines log.format log.filter stamps served.events).map log.deed ++
        [.write served.connection.sink.accepted] :=
  congrArg Prod.snd (act_served h stamps)

end Launch
end HoverServer
