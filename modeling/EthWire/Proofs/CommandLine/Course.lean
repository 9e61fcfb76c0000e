import EthWire.CommandLine.Run
import EthWire.Proofs.Result

/-!
# The course of a run

An invocation is run in three stages: its configuration is loaded, its log is started, and its
command is performed. The first and the last report what goes wrong, unless it is a misuse; the
one between them does not.
-/

namespace EthWire.CommandLine

variable {i : Invocation} {s : Surroundings} {config : Config} {logger : Logging.Logger}
  {ready : Files}

/-- An invocation that has its configuration and its log, with the files as they are then. -/
structure Started (i : Invocation) (files : Files) (config : Config) (logger : Logging.Logger)
    (ready : Files) : Prop where
  load : loadConfig i files = .ok config
  start : Logging.Logger.start (logSettings i config) files = .ok (logger, ready)

theorem exists_started {files : Files} (hload : loadConfig i files = .ok config)
    (hstart : (Logging.Logger.start (logSettings i config) files).isOk = true) :
    ∃ logger ready, Started i files config logger ready := by
  cases hstarted : Logging.Logger.start (logSettings i config) files with
  | error failure =>
    rw [hstarted] at hstart
    cases hstart
  | ok started => exact ⟨started.1, started.2, hload, hstarted⟩

/-- No command has a part in it. -/
theorem Started.withCommand (h : Started i s.files config logger ready) (command : Command) :
    Started { i with command } s.files config logger ready := ⟨h.load, h.start⟩

/-- A run that sees some files and nothing else. -/
def Surroundings.ofFiles (files : Files) : Surroundings :=
  { files, input := [], moment := ⟨[], 0, 0, 0⟩, host := ⟨[], 0, 0⟩,
    freshKey := ⟨1, by decide, by decide⟩ }

/-- What is logged of notes. -/
def logged (logger : Logging.Logger) (s : Surroundings) (notes : List Note) : List Text :=
  logger.lines (entriesOf s notes)

/-- The failures that have no report. -/
theorem report?_eq_none {f : Failure} : report? f = none ↔ ∃ m, f = .fault (.misuse m) := by
  constructor
  · intro h
    unfold report? at h
    split at h
    · exact ⟨_, rfl⟩
    · cases h
    · cases h
  · rintro ⟨m, rfl⟩
    rfl

namespace Invocation

/-- How an invocation may end, with what led to it. -/
inductive Course (i : Invocation) (s : Surroundings) : Ending → Prop
  /-- the configuration is refused -/
  | unconfigured {failure message} (hload : loadConfig i s.files = .error failure)
      (hreport : report? failure = some message) :
      Course i s (.finished 1 [] (errorLine message) s.files)
  /-- the configuration cannot be loaded, and there is no report of it -/
  | unloadable {failure} (hload : loadConfig i s.files = .error failure)
      (hreport : report? failure = none) : Course i s (.broken failure)
  /-- the log cannot be started -/
  | unlogged {config failure} (hload : loadConfig i s.files = .ok config)
      (hstart : Logging.Logger.start (logSettings i config) s.files = .error failure) :
      Course i s (.broken failure)
  /-- the command is performed -/
  | done {config logger ready achieved} (hstarted : Started i s.files config logger ready)
      (hperform : perform s config ready i = .ok achieved) :
      Course i s (.finished 0 (unlines achieved.output) (logged logger s achieved.notes).flatten
        (logger.record (logged logger s achieved.notes) achieved.files))
  /-- the command fails -/
  | failed {config logger ready failure message}
      (hstarted : Started i s.files config logger ready)
      (hperform : perform s config ready i = .error failure)
      (hreport : report? failure = some message) :
      Course i s (.finished 1 []
        ((logged logger s (failureNotes i failure)).flatten ++ errorLine message)
        (logger.record (logged logger s (failureNotes i failure)) ready))
  /-- the command fails, and there is no report of it -/
  | escaped {config logger ready failure} (hstarted : Started i s.files config logger ready)
      (hperform : perform s config ready i = .error failure)
      (hreport : report? failure = none) : Course i s (.broken failure)

theorem course (i : Invocation) (s : Surroundings) : Course i s (i.run s) := by
  unfold run
  split
  next failure hload =>
    split
    next message hreport => exact .unconfigured hload hreport
    next hreport => exact .unloadable hload hreport
  next config hload =>
    split
    next failure hstart => exact .unlogged hload hstart
    next logger ready hstart =>
      split
      next achieved hperform => exact .done ⟨hload, hstart⟩ hperform
      next failure hperform =>
        split
        next hreport => exact .escaped ⟨hload, hstart⟩ hperform hreport
        next message hreport => exact .failed ⟨hload, hstart⟩ hperform hreport

/-- Nothing else can happen: the stages decide the ending. -/
theorem Course.eq_run {e : Ending} (h : Course i s e) : i.run s = e := by
  cases h with
  | unconfigured hload hreport => simp [run, hload, hreport]
  | unloadable hload hreport => simp [run, hload, hreport]
  | unlogged hload hstart => simp [run, hload, hstart]
  | done hstarted hperform => simp [run, hstarted.load, hstarted.start, hperform, logged]
  | failed hstarted hperform hreport =>
    simp [run, hstarted.load, hstarted.start, hperform, hreport, logged]
  | escaped hstarted hperform hreport =>
    simp [run, hstarted.load, hstarted.start, hperform, hreport]

/-- A command that logs nothing leaves no trace but its output. -/
theorem run_silent {lines : List Text} (h : Started i s.files config logger ready)
    (hperform : perform s config ready i = .ok ⟨lines, [], ready⟩) :
    i.run s = .finished 0 (unlines lines) [] ready := by
  have hnone : logged logger s [] = [] := rfl
  have hfiles : logger.record [] ready = ready := by
    rw [Logging.Logger.record]
    split
    · rfl
    · rfl
  rw [(Course.done h hperform).eq_run, hnone, hfiles]
  rfl

end Invocation

theorem run_of_read {args : List Text} (h : Invocation.read args = .ok i) :
    run args s = i.run s := by
  rw [run, h]

/-- Any command can stand behind global options that lead to a configuration and a log. -/
theorem run_of_perform {args : List Text} {command : Command} {lines : List Text}
    (hread : Invocation.read args = .ok { i with command })
    (hstarted : Started i s.files config logger ready)
    (hperform : perform s config ready { i with command } = .ok ⟨lines, [], ready⟩) :
    run args s = .finished 0 (unlines lines) [] ready := by
  rw [run_of_read hread]
  exact Invocation.run_silent (hstarted.withCommand command) hperform

end EthWire.CommandLine
