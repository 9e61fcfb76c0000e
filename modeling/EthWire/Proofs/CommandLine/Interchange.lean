import EthWire.Proofs.CommandLine.Misuse
import EthWire.Proofs.CommandLine.Signing
import EthWire.Proofs.Record.Canonical
import EthWire.Proofs.Record.JsonRoundTrip

/-!
# From bytes to JSON and back on the command line

A record is shown as JSON in the layout of a configuration, and what is shown is turned back into
the bytes that were given, with any other options. The one layout that cannot be shown is an
indent beyond the greatest one.
-/

namespace EthWire

/-! ## Documents as arguments -/

/-- A text between braces. -/
def IsBraced (t : Text) : Prop :=
  ∃ body, t = CodePoint.ofChar '\x7b' :: (body ++ [CodePoint.ofChar '\x7d'])

theorem Json.isBraced_write_obj (layout : Layout) (members : List (Text × Json)) :
    IsBraced ((Json.obj members).write layout) := by
  rw [write, writeAt]
  cases (arrange layout (writeMembers layout (0 + 1) members)).map fun m =>
      writeString m.1 ++ keySeparator layout ++ m.2 with
  | nil => exact ⟨[], rfl⟩
  | cons part parts => exact ⟨_, enclose_nonempty '\x7b' '\x7d' part parts⟩

theorem Record.isBraced_write (r : Record) (layout : Json.Layout) :
    IsBraced (r.toJson.write layout) := by
  obtain ⟨members, hmembers⟩ := r.toJson_eq_obj
  rw [hmembers]
  exact Json.isBraced_write_obj layout members

namespace CommandLine

/-- How a printed line is passed on: as an argument, with or without its line break, or as the
input if a dash stands for it. -/
inductive Passes (s : Surroundings) (line : Text) : Text → Prop
  | bare : Passes s line line
  | broken : Passes s line (unlines [line])
  | piped (h : s.input = unlines [line]) : Passes s line [dash]

section Passes

variable {s : Surroundings} {line raw : Text}

theorem Passes.isPlain (hline : IsBraced line) (h : Passes s line raw) : IsPlain raw := by
  obtain ⟨body, rfl⟩ := hline
  intro rest hraw
  cases h with
  | bare => exact absurd (List.cons.inj hraw).1 (by decide)
  | broken => exact absurd (List.cons.inj hraw).1 (by decide)
  | piped _ => exact (List.cons.inj hraw).2.symm

theorem Passes.readData (hline : IsBraced line) (h : Passes s line raw) :
    readData s (some raw) = .ok line := by
  obtain ⟨body, rfl⟩ := hline
  have hlast : (CodePoint.ofChar '\x7b' :: (body ++ [CodePoint.ofChar '\x7d'])).getLast?
      = some (CodePoint.ofChar '\x7d') := by
    rw [← List.cons_append, List.getLast?_concat]
  have hstrip : ∀ tail : Text, (∀ c ∈ tail, c.isBlank = true) →
      Text.strip CodePoint.isBlank
          ((CodePoint.ofChar '\x7b' :: (body ++ [CodePoint.ofChar '\x7d'])) ++ tail)
        = CodePoint.ofChar '\x7b' :: (body ++ [CodePoint.ofChar '\x7d']) := by
    refine fun tail htail => Text.strip_append (fun c hc => ?_) (fun c hc => ?_) htail
    · obtain rfl := Option.some.inj hc
      decide
    · rw [hlast] at hc
      obtain rfl := Option.some.inj hc
      decide
  have hwhole := hstrip [] (by simp)
  rw [List.append_nil] at hwhole
  have hbroken : unlines [CodePoint.ofChar '\x7b' :: (body ++ [CodePoint.ofChar '\x7d'])]
      = (CodePoint.ofChar '\x7b' :: (body ++ [CodePoint.ofChar '\x7d']))
        ++ [CodePoint.ofChar '\n'] := by
    simp [unlines]
  have hnewline : ∀ c ∈ [CodePoint.ofChar '\n'], c.isBlank = true :=
    List.forall_mem_singleton.mpr rfl
  have hopen : ∀ rest : Text, CodePoint.ofChar '\x7b' :: rest ≠ [dash] := by
    intro rest hdash
    exact absurd (List.cons.inj hdash).1 (by decide)
  cases h with
  | bare => rw [CommandLine.readData, if_neg (hopen _), hwhole]
  | broken =>
    rw [hbroken, CommandLine.readData, List.cons_append, if_neg (hopen _), ← List.cons_append,
      hstrip _ hnewline]
  | piped h => rw [CommandLine.readData, if_pos rfl, h, hbroken, hstrip _ hnewline]

end Passes

/-! ## Records in both forms -/

section Record

variable {config : Config} {line : Text} {b : Bytes}

theorem describe_recode {α : Type} [WireRecord α] {r : α}
    (hitem : ∀ item, WireRecord.ofItem item = .ok r → WireRecord.toItem r = item)
    (hjson : ∀ layout, decodeJson ((JsonRecord.toJson r).write layout) = .ok r)
    (hshown : encodeJson r (layoutOf config) = .ok line) (hread : decodeRlp b = .ok r) :
    describe α config b = .ok line ∧ recode α line = .ok (Bytes.hexMarked b) := by
  have hencode : encodeRlp r = b := (encodedAs_of_decodeRlp hitem hread).encode_eq
  constructor
  · rw [describe, hread, ok_bind, hshown]
  · rw [recode, Json.dump_eq_ok hshown, hjson, ok_bind, hencode]
    rfl

/-- What is accepted as a record of a kind is shown as JSON, and recoded as what it was. -/
theorem describeKind_recodeKind {kind : WireKind} {r : Record}
    (hshown : r.encodeJson (layoutOf config) = .ok line)
    (hread : Record.decodeRlp kind.recordKind b = .ok r) :
    describeKind kind config b = .ok line ∧
      recodeKind kind line = .ok (Bytes.hexMarked b) := by
  cases kind with
  | header =>
    obtain ⟨h, hh, rfl⟩ := map_eq_ok.mp hread
    exact describe_recode (fun _ => Header.toItem_of_ofItem) h.decodeJson_write hshown hh
  | block =>
    obtain ⟨k, hk, rfl⟩ := map_eq_ok.mp hread
    exact describe_recode (fun _ => Block.toItem_of_ofItem) k.decodeJson_write hshown hk
  | transaction =>
    obtain ⟨t, ht, rfl⟩ := map_eq_ok.mp hread
    exact describe_recode (fun _ => Transaction.toItem_of_ofItem) t.decodeJson_write hshown ht
  | receipt =>
    obtain ⟨p, hp, rfl⟩ := map_eq_ok.mp hread
    exact describe_recode (fun _ => Receipt.toItem_of_ofItem) p.decodeJson_write hshown hp
  | log =>
    obtain ⟨l, hl, rfl⟩ := map_eq_ok.mp hread
    exact describe_recode (fun _ => Log.toItem_of_ofItem) l.decodeJson_write hshown hl

end Record

/-! ## Runs -/

section Runs

variable {i : Invocation} {s : Surroundings} {config : Config} {logger : Logging.Logger}
  {ready : Files} {kind : WireKind} {args : List Text} {raw line : Text} {fromJson : Bool}

/-- What the command to decode answers is printed, and there is no other trace of it. -/
theorem run_decode
    (hread : Invocation.read args = .ok { i with command := .decode kind (some raw) fromJson })
    (hstarted : Started i s.files config logger ready)
    (hdecode : runDecode s config kind (some raw) fromJson = .ok line) :
    run args s = .finished 0 (unlines [line]) [] ready := by
  have hperform : perform s config ready { i with command := .decode kind (some raw) fromJson }
      = .ok ⟨[line], [], ready⟩ := by
    show (runDecode s config kind (some raw) fromJson >>= fun shown =>
      pure (Achievement.mk [shown] [] ready)) = _
    rw [hdecode]
    rfl
  exact run_of_perform hread hstarted hperform

variable {front : List Text} {b : Bytes} {r : Record}

/-- Whatever is accepted as a record of a kind is shown as JSON in the layout of the configuration,
and under any global options what is shown is turned back into the bytes that were given. Only an
indent beyond the greatest one breaks the run. -/
theorem decode_interchange (hfront : GlobalOptions front i)
    (hstarted : Started i s.files config logger ready)
    (hrecord : Record.decodeRlp kind.recordKind b = .ok r)
    (hgiven : Hands s (Bytes.hexMarked b) raw) :
    (¬WideIndent config → ∃ line, r.encodeJson (layoutOf config) = .ok line ∧
      run (front ++ [Text.ofString "decode", kind.name, raw]) s
        = .finished 0 (unlines [line]) [] ready ∧
      ∀ {front' i' s' config' logger' ready' raw'}, GlobalOptions front' i' →
        Started i' s'.files config' logger' ready' → Passes s' line raw' →
        run (front' ++ [Text.ofString "decode", kind.name, Text.ofString "--from-json", raw']) s'
          = .finished 0 (unlines [Bytes.hexMarked b]) [] ready') ∧
    (WideIndent config →
      run (front ++ [Text.ofString "decode", kind.name, raw]) s
        = .broken (.fault (.misuse .overflow))) := by
  have hread := hfront.read_decode kind hgiven.isPlain
  constructor
  · intro hwide
    have hshown := Record.encodeJson_of_fits (fits_layoutOf.mpr hwide) r
    obtain ⟨hdescribe, hrecode⟩ := describeKind_recodeKind hshown hrecord
    refine ⟨_, hshown, run_decode hread hstarted ?_, ?_⟩
    · rw [runDecode, hgiven.readData, ok_bind, if_neg (by simp), decodeHex_hexMarked, ok_bind,
        hdescribe]
      rfl
    · intro front' i' s' config' logger' ready' raw' hfront' hstarted' hpassed
      have hbraced := r.isBraced_write (layoutOf config)
      refine run_decode (hfront'.read_decodeJson kind (hpassed.isPlain hbraced)) hstarted' ?_
      rw [runDecode, hpassed.readData hbraced, ok_bind, if_pos rfl, hrecode]
      rfl
  · intro hwide
    have hescape : CommandEscape s config ready (resolveChainId i config)
        (.decode kind (some raw) false) .overflow :=
      .decodeIndent hgiven.readData (decodeHex_hexMarked b _) hrecord hwide
    have hdecode := runDecode_eq_misuse.mpr hescape
    have hperform : perform s config ready { i with command := .decode kind (some raw) false }
        = .error (.fault (.misuse .overflow)) := by
      show (runDecode s config kind (some raw) false >>= _) = _
      rw [hdecode]
      rfl
    rw [run_of_read hread]
    exact (Invocation.Course.escaped (hstarted.withCommand _) hperform rfl).eq_run

end Runs

theorem decodeRlp_emptyTransaction :
    decodeRlp [0xc9, 0x80, 0x80, 0x80, 0x80, 0x80, 0x80, 0x80, 0x80, 0x80]
      = .ok ({} : Transaction) := by
  have hb : encodeRlp ({} : Transaction)
      = [0xc9, 0x80, 0x80, 0x80, 0x80, 0x80, 0x80, 0x80, 0x80, 0x80] := by decide +kernel
  have hread := @decodeRlp_encodeRlp_transaction {} (by rw [hb]; decide)
  rwa [hb] at hread

/-- Whether a configuration is read that can lay out JSON, and its log starts. -/
def isReady (i : Invocation) (files : Files) : Bool :=
  match loadConfig i files with
  | .error _ => false
  | .ok config =>
      decide (layoutOf config).Fits && (Logging.Logger.start (logSettings i config) files).isOk

theorem exists_started_of_isReady {i : Invocation} {files : Files} (h : isReady i files = true) :
    ∃ config logger ready, Started i files config logger ready ∧ ¬WideIndent config := by
  unfold isReady at h
  split at h
  · cases h
  next config hload =>
    obtain ⟨hfits, hstart⟩ := Bool.and_eq_true_iff.mp h
    obtain ⟨logger, ready, hstarted⟩ := exists_started hload hstart
    exact ⟨config, logger, ready, hstarted, fits_layoutOf.mp (of_decide_eq_true hfits)⟩

/-- The empty transaction, shown in sorted lines and turned back. -/
theorem decode_interchange_sorted :
    let b : Bytes := [0xc9, 0x80, 0x80, 0x80, 0x80, 0x80, 0x80, 0x80, 0x80, 0x80]
    let content : Text := "\x7b\"codec\":\x7b\"json_indent\":2,\"json_sort_keys\":true\x7d\x7d"
    let s : Surroundings := .ofFiles ⟨[], [([Text.toUtf8 "c.json"], .file content.toUtf8)]⟩
    ∃ line ready,
      run ["--config", "c.json", "decode", "transaction", Bytes.hexMarked b] s
        = .finished 0 (unlines [line]) [] ready ∧
      run ["--config", "c.json", "decode", "transaction", "--from-json", line] s
        = .finished 0 (unlines [Bytes.hexMarked b]) [] ready := by
  intro b content s
  let i : Invocation :=
    { config := some "c.json", chainId := none, legacy := false, logLevel := none,
      command := .sender none }
  have hcheck : isReady i s.files = true := by decide +kernel
  have hfront : GlobalOptions ["--config", "c.json"] i := ⟨_, "decode", [], rfl, rfl, rfl, rfl⟩
  have hrecord : Record.decodeRlp WireKind.transaction.recordKind b = .ok (.transaction {}) := by
    show (decodeRlp b).map Record.transaction = _
    rw [decodeRlp_emptyTransaction]
    rfl
  obtain ⟨config, logger, ready, hready, hwide⟩ := exists_started_of_isReady hcheck
  have hinterchange := decode_interchange hfront hready hrecord .direct
  obtain ⟨line, -, hshown, hrecoded⟩ := hinterchange.1 hwide
  exact ⟨_, _, hshown, hrecoded hfront hready .bare⟩

/-- Whether a run breaks because a number is too great. -/
def Ending.isOverflow : Ending → Bool
  | .broken (.fault (.misuse .overflow)) => true
  | _ => false

/-- An indent that no line can have is configured without complaint, and breaks the run. -/
theorem decode_wideIndent :
    let b : Bytes := [0xc9, 0x80, 0x80, 0x80, 0x80, 0x80, 0x80, 0x80, 0x80, 0x80]
    let content : Text := "\x7b\"codec\":\x7b\"json_indent\":9223372036854775808\x7d\x7d"
    let s : Surroundings := .ofFiles ⟨[], [([Text.toUtf8 "c.json"], .file content.toUtf8)]⟩
    let args : List Text := ["--config", "c.json", "decode", "transaction", Bytes.hexMarked b]
    (∃ t : Transaction, decodeRlp b = .ok t) ∧
      run args s = .broken (.fault (.misuse .overflow)) ∧
      ∀ output errors files, run args s ≠ .finished 0 output errors files := by
  intro b content s args
  have hcheck : (run args s).isOverflow = true := by decide +kernel
  have hbroken : run args s = .broken (.fault (.misuse .overflow)) := by
    unfold Ending.isOverflow at hcheck
    split at hcheck
    next h => exact h
    next => cases hcheck
  refine ⟨⟨_, decodeRlp_emptyTransaction⟩, hbroken, fun output errors files hfinished => ?_⟩
  rw [hbroken] at hfinished
  cases hfinished

end CommandLine

end EthWire
