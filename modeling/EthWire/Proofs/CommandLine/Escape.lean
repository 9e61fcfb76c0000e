import EthWire.Proofs.CommandLine.Course
import EthWire.Proofs.CommandLine.Misuse

/-!
# Failures that escape

An invocation ends with its output, with a report of what went wrong, or without any report. The
last ones are misuses of the configuration or of the command, and whatever keeps the log from
starting, which nobody reports.
-/

namespace EthWire.CommandLine

variable {s : Surroundings} {i : Invocation} {files : Files}

/-! ## The log -/

open Logging (Logger)

/-- What keeps the log from starting. -/
inductive LogEscape (settings : Config.LogSection) (files : Files) : Failure → Prop
  /-- its path, which no file can have -/
  | path {path f} (hpath : Logger.pathOf settings.file = some path)
      (hencode : Files.encodePath path = .error f) : LogEscape settings files f
  /-- its file, which cannot be opened -/
  | file {file problem} (hfile : Logger.fileOf settings files = .ok (some file))
      (hcreate : file.create files = .error problem) :
      LogEscape settings files (.file (Text.ofFileName file.path) problem)
  /-- its format, which has no field -/
  | format {file ready} (hfile : Logger.fileOf settings files = .ok file)
      (hopen : Logger.openFile file files = .ok ready)
      (hformat : Logging.hasField (Logger.formatOf settings.format) = false) :
      LogEscape settings files (.fault (.misuse .badLogging))
  /-- its level, which has a reserved name -/
  | level {file ready m} (hfile : Logger.fileOf settings files = .ok file)
      (hopen : Logger.openFile file files = .ok ready)
      (hformat : Logging.hasField (Logger.formatOf settings.format) = true)
      (hlevel : Logging.thresholdOf (Logger.levelOf settings.level) = .error m) :
      LogEscape settings files (.fault (.misuse m))

theorem fileOf_eq_error {settings : Config.LogSection} {f : Failure} :
    Logger.fileOf settings files = .error f ↔
      ∃ path, Logger.pathOf settings.file = some path ∧ Files.encodePath path = .error f := by
  unfold Logger.fileOf
  split
  next hpath => simp [hpath]
  next path hpath =>
    rw [bind_eq_error]
    simp [hpath]

theorem openFile_eq_error {file : Option Logging.LogFile} {f : Failure} :
    Logger.openFile file files = .error f ↔
      ∃ opened problem, file = some opened ∧ opened.create files = .error problem ∧
        f = .file (Text.ofFileName opened.path) problem := by
  unfold Logger.openFile
  cases file with
  | none => simp
  | some opened =>
    cases hcreate : opened.create files with
    | ok ready => simp [Except.mapError, hcreate]
    | error problem => simp [Except.mapError, hcreate, eq_comm]

theorem start_eq_error {settings : Config.LogSection} {f : Failure} :
    Logger.start settings files = .error f ↔ LogEscape settings files f := by
  constructor
  · intro h
    rcases bind_eq_error.mp h with hfile | ⟨file, hfile, h⟩
    · obtain ⟨path, hpath, hencode⟩ := fileOf_eq_error.mp hfile
      exact .path hpath hencode
    rcases bind_eq_error.mp h with hopen | ⟨ready, hopen, h⟩
    · obtain ⟨opened, problem, rfl, hcreate, rfl⟩ := openFile_eq_error.mp hopen
      exact .file hfile hcreate
    dsimp only at h
    cases hformat : Logging.hasField (Logger.formatOf settings.format) with
    | false =>
      rw [hformat] at h
      cases h
      exact .format hfile hopen hformat
    | true =>
      rw [hformat] at h
      cases hlevel : Logging.thresholdOf (Logger.levelOf settings.level) with
      | ok threshold =>
        rw [hlevel] at h
        cases h
      | error m =>
        rw [hlevel] at h
        cases h
        exact .level hfile hopen hformat hlevel
  · intro h
    cases h with
    | path hpath hencode =>
      exact bind_eq_error.mpr (.inl (fileOf_eq_error.mpr ⟨_, hpath, hencode⟩))
    | file hfile hcreate =>
      refine bind_eq_error.mpr (.inr ⟨_, hfile, ?_⟩)
      exact bind_eq_error.mpr (.inl (openFile_eq_error.mpr ⟨_, _, rfl, hcreate, rfl⟩))
    | format hfile hopen hformat =>
      rw [Logger.start, hfile, ok_bind, hopen, ok_bind]
      simp [hformat]
    | level hfile hopen hformat hlevel =>
      rw [Logger.start, hfile, ok_bind, hopen, ok_bind]
      simp [hformat, hlevel, Except.mapError]

/-! ## Runs -/

/-- The failures of an invocation that no report tells of. -/
inductive Escape (i : Invocation) (s : Surroundings) : Failure → Prop
  /-- the configuration has a path that no file can have -/
  | configPath {path m} (hpath : filled i.config = some path)
      (hencode : Files.encodePath path = .error (.fault (.misuse m))) :
      Escape i s (.fault (.misuse m))
  /-- the configuration nests too deep to be read -/
  | configDepth {path content text} (hpath : filled i.config = some path)
      (hread : s.files.read path = .ok content) (htext : Text.ofUtf8? content = some text)
      (hdepth : Json.read text = .error .tooDeep) : Escape i s (.fault (.misuse .nesting))
  /-- the log cannot be started, for whatever reason -/
  | log {config failure} (hload : loadConfig i s.files = .ok config)
      (hlog : LogEscape (logSettings i config) s.files failure) : Escape i s failure
  /-- the command comes to a misuse -/
  | command {config logger ready m} (hstarted : Started i s.files config logger ready)
      (hcommand : CommandEscape s config ready (resolveChainId i config) i.command m) :
      Escape i s (.fault (.misuse m))

/-- An ending that the user is told of: the output, or one line with the error and no output.
What is logged may stand in front of the line. -/
inductive Ending.IsTold : Ending → Prop
  | done {output errors files} : IsTold (.finished 0 output errors files)
  | failed {logged message files} : IsTold (.finished 1 [] (logged ++ errorLine message) files)

theorem Invocation.isTold_or_broken (i : Invocation) (s : Surroundings) :
    (i.run s).IsTold ∨ ∃ failure, i.run s = .broken failure := by
  have hcourse := i.course s
  generalize i.run s = ending at hcourse ⊢
  cases hcourse with
  | unconfigured _ _ => exact .inl (@Ending.IsTold.failed [] _ _)
  | unloadable _ _ => exact .inr ⟨_, rfl⟩
  | unlogged _ _ => exact .inr ⟨_, rfl⟩
  | done _ _ => exact .inl .done
  | failed _ _ _ => exact .inl .failed
  | escaped _ _ _ => exact .inr ⟨_, rfl⟩

theorem isWritten_of_loadConfig {config : Config} (h : loadConfig i files = .ok config) :
    config.IsWritten := by
  unfold loadConfig at h
  split at h
  next path _ =>
    obtain ⟨content, -, hload⟩ := bind_eq_ok.mp h
    exact Config.isWritten_of_load (mapError_eq_ok.mp hload)
  next =>
    cases h
    exact Config.isWritten_mainnet

theorem isWritten_resolveChainId {config : Config} (hconfig : config.IsWritten)
    (hchain : ∀ g, i.chainId = some g → g.IsWritten) :
    (resolveChainId i config).isWritten = true := by
  unfold resolveChainId
  split
  · simp [Value.isWritten]
  · split
    next g hg => exact GivenNumber.isWritten_toValue (hchain g hg)
    next => exact hconfig _ (by simp [Config.settings])

/-- An invocation without a number that is too long to be written. -/
structure Invocation.IsWritten (i : Invocation) : Prop where
  request : ∀ request, i.command = .sign request → request.IsWritten
  chainId : ∀ g, i.chainId = some g → g.IsWritten

/-- What a command line spells can be written. -/
theorem Invocation.isWritten_of_read {args : List Text} (hread : Invocation.read args = .ok i) :
    i.IsWritten where
  request request hcommand := by
    obtain ⟨front, rest, x, nonce, -, -, hnonce, rfl, -⟩ := read_sign hread hcommand
    exact Given.isWritten_signingRequest hnonce
  chainId g hg := by
    obtain ⟨x, word, rest, reader, -, -, -, -, -, hi⟩ := read_eq_ok.mp hread
    rw [hi] at hg
    exact Given.isWritten_of_number? hg

theorem Invocation.run_eq_broken {failure : Failure} (hwritten : i.IsWritten) :
    i.run s = .broken failure ↔ Escape i s failure := by
  have hperform : ∀ {config logger ready m}, Started i s.files config logger ready →
      (perform s config ready i = .error (.fault (.misuse m)) ↔
        CommandEscape s config ready (resolveChainId i config) i.command m) := by
    intro config logger ready m hstarted
    exact perform_eq_misuse hwritten.request <|
      isWritten_resolveChainId (isWritten_of_loadConfig hstarted.load) hwritten.chainId
  constructor
  · intro h
    have hcourse := i.course s
    rw [h] at hcourse
    cases hcourse with
    | unloadable hload hreport =>
      obtain ⟨m, rfl⟩ := report?_eq_none.mp hreport
      obtain ⟨path, hpath, hencode | ⟨content, text, hread, htext, hdepth, rfl⟩⟩ :=
        loadConfig_eq_misuse.mp hload
      · exact .configPath hpath hencode
      · exact .configDepth hpath hread htext hdepth
    | unlogged hload hstart => exact .log hload (start_eq_error.mp hstart)
    | escaped hstarted hfailed hreport =>
      obtain ⟨m, rfl⟩ := report?_eq_none.mp hreport
      exact .command hstarted ((hperform hstarted).mp hfailed)
  · intro h
    cases h with
    | configPath hpath hencode =>
      exact (Course.unloadable (loadConfig_eq_misuse.mpr ⟨_, hpath, .inl hencode⟩) rfl).eq_run
    | configDepth hpath hread htext hdepth =>
      exact (Course.unloadable (loadConfig_eq_misuse.mpr
        ⟨_, hpath, .inr ⟨_, _, hread, htext, hdepth, rfl⟩⟩) rfl).eq_run
    | log hload hlog => exact (Course.unlogged hload (start_eq_error.mpr hlog)).eq_run
    | command hstarted hcommand =>
      exact (Course.escaped hstarted ((hperform hstarted).mpr hcommand) rfl).eq_run

/-- Whatever command is asked for, the user is told how the run ended, unless the run escapes
in one of the ways above; and each of these does escape. -/
theorem run_told_or_escapes {args : List Text} (hread : Invocation.read args = .ok i) :
    ((run args s).IsTold ∨ ∃ failure, run args s = .broken failure) ∧
      ∀ failure, run args s = .broken failure ↔ Escape i s failure := by
  rw [run_of_read hread]
  refine ⟨i.isTold_or_broken s, fun failure => ?_⟩
  exact Invocation.run_eq_broken (Invocation.isWritten_of_read hread)

/-- Without a key there is none to show the address of. The user is told, and nothing escapes. -/
theorem run_told_or_escapes_noKey :
    let args : List Text := ["address"]
    let i : Invocation :=
      { config := none, chainId := none, legacy := false, logLevel := none,
        command := .address ⟨none, none⟩ }
    let s : Surroundings := .ofFiles ⟨[], []⟩
    Invocation.read args = .ok i ∧ (run args s).IsTold ∧ ∀ failure, ¬Escape i s failure := by
  intro args i s
  have hread : Invocation.read args = .ok i := by decide +kernel
  have hcheck : (match run args s with
      | .finished code _ _ _ => code == 1
      | _ => false) = true := by decide +kernel
  have hfinished : ∀ failure, run args s ≠ .broken failure := by
    intro failure hbroken
    split at hcheck
    next code output errors files h =>
      rw [h] at hbroken
      cases hbroken
    next => cases hcheck
  obtain ⟨htold, hescape⟩ := run_told_or_escapes (s := s) hread
  refine ⟨hread, ?_, fun failure h => hfinished failure ((hescape failure).mpr h)⟩
  rcases htold with htold | ⟨failure, hbroken⟩
  · exact htold
  · exact absurd hbroken (hfinished failure)

/-- The configuration names a log file in a directory that is not there. The run breaks, though
a file that is missing is reported elsewhere. -/
theorem run_missingLogDirectory :
    let args : List Text := ["--config", "c.json", "address", "--key", "46"]
    let path : Text := "/missing/x.log"
    let content : Text := "\x7b\"log\":\x7b\"file\":\"/missing/x.log\"\x7d\x7d"
    let s : Surroundings := .ofFiles ⟨[], [([Text.toUtf8 "c.json"], .file content.toUtf8)]⟩
    (∃ i, Invocation.read args = .ok i) ∧ run args s = .broken (.file path .missing) ∧
      ¬(run args s).IsTold := by
  intro args path content s
  have hread : ∃ i, Invocation.read args = .ok i := ⟨_, rfl⟩
  have hcheck : (match run args s with
      | .broken (.file at_ problem) => at_ == path && problem == .missing
      | _ => false) = true := by decide +kernel
  have hbroken : run args s = .broken (.file path .missing) := by
    split at hcheck
    next name problem h =>
      rw [Bool.and_eq_true, beq_iff_eq, beq_iff_eq] at hcheck
      rw [h, hcheck.1, hcheck.2]
    next => cases hcheck
  refine ⟨hread, hbroken, ?_⟩
  rw [hbroken]
  intro h
  cases h

end EthWire.CommandLine
