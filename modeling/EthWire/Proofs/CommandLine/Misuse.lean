import EthWire.Proofs.CommandLine.Report
import EthWire.Proofs.Config.Load
import EthWire.Proofs.Record.Document
import EthWire.Record.Read

/-!
# Misuses

The ways in which the configuration, a key or a command comes to a misuse, each of them told by
the step that comes to it: paths that no file can have, files that are no text or nest too deep,
values that a separator took away, and numbers beyond what is written. There are no other ones.
-/

namespace EthWire

variable {m : Misuse}

/-! ## Files -/

namespace Files

variable {files : Files} {path : Text}

/-- A file that cannot be opened is reported. -/
theorem mapError_file_ne {α : Type} {x : Except FileProblem α} {f : Fault} :
    x.mapError (Failure.file path) ≠ .error (.fault f) := by
  cases x with
  | ok a =>
    intro h
    cases h
  | error problem =>
    intro h
    cases h

/-- So a misuse lies with the path. -/
theorem bind_encodePath_eq_misuse {α : Type} {step : Bytes → Except FileProblem α} :
    (encodePath path >>= fun bytes => (step bytes).mapError (.file path))
        = .error (.fault (.misuse m)) ↔
      encodePath path = .error (.fault (.misuse m)) := by
  rw [bind_eq_error]
  constructor
  · rintro (h | ⟨bytes, -, h⟩)
    · exact h
    · exact absurd h mapError_file_ne
  · exact .inl

theorem read_eq_misuse :
    files.read path = .error (.fault (.misuse m)) ↔
      encodePath path = .error (.fault (.misuse m)) := by
  rw [read]
  exact bind_encodePath_eq_misuse

theorem write_eq_misuse {content : Bytes} :
    files.write path content = .error (.fault (.misuse m)) ↔
      encodePath path = .error (.fault (.misuse m)) := by
  rw [write]
  exact bind_encodePath_eq_misuse

theorem readText_eq_misuse :
    files.readText path = .error (.fault (.misuse m)) ↔
      encodePath path = .error (.fault (.misuse m)) ∨
        ∃ content, files.read path = .ok content ∧ Text.ofUtf8? content = none ∧ m = .notText := by
  rw [readText, bind_eq_error, read_eq_misuse]
  apply or_congr_right
  constructor
  · rintro ⟨content, hread, h⟩
    split at h
    · cases h
    next htext =>
      cases h
      exact ⟨content, hread, htext, rfl⟩
  · rintro ⟨content, hread, htext, rfl⟩
    refine ⟨content, hread, ?_⟩
    rw [htext]

end Files

/-! ## Configurations -/

namespace CommandLine

variable {s : Surroundings} {i : Invocation} {config : Config} {files : Files}

/-- The configuration comes to a misuse by its path or by its depth. -/
theorem loadConfig_eq_misuse :
    loadConfig i files = .error (.fault (.misuse m)) ↔
      ∃ path, filled i.config = some path ∧
        (Files.encodePath path = .error (.fault (.misuse m)) ∨
          ∃ content text, files.read path = .ok content ∧ Text.ofUtf8? content = some text ∧
            Json.read text = .error .tooDeep ∧ m = .nesting) := by
  unfold loadConfig
  cases filled i.config with
  | none => simp
  | some path =>
    simp only [Option.some.injEq, exists_eq_left']
    rw [bind_eq_error, Files.read_eq_misuse]
    apply or_congr_right
    constructor
    · rintro ⟨content, hread, h⟩
      obtain ⟨⟨text, htext, hnesting⟩, hm⟩ := Config.load_eq_misuse.mp (orFail_eq_misuse.mp h)
      exact ⟨content, text, hread, htext, hnesting, hm⟩
    · rintro ⟨content, text, hread, htext, hnesting, hm⟩
      exact ⟨content, hread,
        orFail_eq_misuse.mpr (Config.load_eq_misuse.mpr ⟨⟨text, htext, hnesting⟩, hm⟩)⟩

/-! ## Keys -/

/-- The file that a key is read from where none is given. -/
def keyfile? (source : KeySource) (config : Config) : Option Text :=
  (filled source.keyfile).or (match config.keyfile with
    | .text t => filled (some t)
    | _ => none)

theorem loadKey_eq (source : KeySource) :
    loadKey source config files = match filled source.key with
      | some key => orFail (PrivateKey.ofHex key)
      | none => match keyfile? source config with
        | some path => files.readText path >>= fun t => orFail (PrivateKey.ofHex t)
        | none => .error (.fault (.argument "key" .noKey)) := by
  rfl

/-- How a key comes to a misuse. -/
inductive KeyEscape (source : KeySource) (config : Config) (files : Files) : Misuse → Prop
  /-- by the path of its file -/
  | path {path m} (hkey : filled source.key = none) (hpath : keyfile? source config = some path)
      (hencode : Files.encodePath path = .error (.fault (.misuse m))) :
      KeyEscape source config files m
  /-- by a file that is not in UTF-8 -/
  | content {path content} (hkey : filled source.key = none)
      (hpath : keyfile? source config = some path) (hread : files.read path = .ok content)
      (htext : Text.ofUtf8? content = none) : KeyEscape source config files .notText

theorem loadKey_eq_misuse {source : KeySource} :
    loadKey source config files = .error (.fault (.misuse m)) ↔
      KeyEscape source config files m := by
  have hfile : ∀ {path}, (files.readText path >>= fun t => orFail (PrivateKey.ofHex t))
      = .error (.fault (.misuse m)) ↔ files.readText path = .error (.fault (.misuse m)) := by
    intro path
    rw [bind_eq_error]
    constructor
    · rintro (h | ⟨t, -, h⟩)
      · exact h
      · exact absurd (orFail_eq_misuse.mp h) (PrivateKey.reports_ofHex t m)
    · exact .inl
  rw [loadKey_eq]
  constructor
  · intro h
    split at h
    next key hkey => exact absurd (orFail_eq_misuse.mp h) (PrivateKey.reports_ofHex key m)
    next hkey =>
      split at h
      next path hpath =>
        rcases Files.readText_eq_misuse.mp (hfile.mp h) with hencode | ⟨content, hread, htext, rfl⟩
        · exact .path hkey hpath hencode
        · exact .content hkey hpath hread htext
      next => cases h
  · intro h
    cases h with
    | path hkey hpath hencode =>
      rw [hkey, hpath]
      exact hfile.mpr (Files.readText_eq_misuse.mpr (.inl hencode))
    | content hkey hpath hread htext =>
      rw [hkey, hpath]
      exact hfile.mpr (Files.readText_eq_misuse.mpr (.inr ⟨_, hread, htext, rfl⟩))

/-! ## Layouts -/

/-- An indent that no line can have. -/
def WideIndent (config : Config) : Prop :=
  ∃ n, config.codec.jsonIndent = .int n ∧ (Json.maxIndent : Int) < n

theorem fits_layoutOf : (layoutOf config).Fits ↔ ¬WideIndent config := by
  unfold Json.Layout.Fits layoutOf WideIndent
  dsimp only
  split
  next n hn =>
    simp only [hn, Option.all_some, decide_eq_true_eq, Value.int.injEq, exists_eq_left', not_lt]
    omega
  next hother =>
    simp only [Option.all_none, true_iff]
    rintro ⟨n, hn, -⟩
    exact hother n hn

/-- The JSON of a record is an object, and is written unless it is to be indented too far. -/
theorem encodeJson_eq_misuse {α : Type} [JsonRecord α] {record : α}
    (hobject : ∃ ms, JsonRecord.toJson record = .obj ms) :
    encodeJson record (layoutOf config) = .error (.misuse m) ↔
      WideIndent config ∧ m = .overflow := by
  obtain ⟨ms, hms⟩ := hobject
  rw [encodeJson, hms]
  by_cases hwide : WideIndent config
  · rw [Json.dump_obj_of_not_fits (mt fits_layoutOf.mp (not_not_intro hwide))]
    simp [hwide, eq_comm]
  · rw [Json.dump_of_fits (fits_layoutOf.mpr hwide)]
    simp [hwide]

/-! ## Commands -/

/-- The kind among the kinds of all records. -/
def WireKind.recordKind : WireKind → RecordKind
  | .header => .header
  | .block => .block
  | .transaction => .transaction
  | .receipt => .receipt
  | .log => .log

theorem readData_eq_error {data : Option Text} {f : Failure} :
    readData s data = .error f ↔ data = none ∧ f = .fault (.misuse .noOperation) := by
  unfold readData
  cases data with
  | none =>
    simp only [Except.error.injEq, true_and]
    exact eq_comm
  | some t => simp

theorem reports_recodeKind (kind : WireKind) (text : Text) : Reports (recodeKind kind text) := by
  cases kind with
  | header => simp [recodeKind, recode, reports_decodeJson Header.refuses_ofJson]
  | block => simp [recodeKind, recode, reports_decodeJson Block.refuses_ofJson]
  | transaction => simp [recodeKind, recode, reports_decodeJson Transaction.refuses_ofJson]
  | receipt => simp [recodeKind, recode, reports_decodeJson Receipt.refuses_ofJson]
  | log => simp [recodeKind, recode, reports_decodeJson Log.refuses_ofJson]

theorem describe_eq_misuse {α : Type} [WireRecord α]
    (h : ∀ item, Refuses .rlp (fun _ => False) (WireRecord.ofItem item : Except Fault α))
    (hobject : ∀ r : α, ∃ ms, JsonRecord.toJson r = .obj ms) (wrap : α → Record) {data : Bytes} :
    describe α config data = .error (.misuse m) ↔
      (∃ r, (decodeRlp data : Except Fault α).map wrap = .ok r) ∧ WideIndent config ∧
        m = .overflow := by
  rw [describe, (reports_decodeRlp h data).bind_eq_misuse]
  simp only [encodeJson_eq_misuse (hobject _), map_eq_ok]
  constructor
  · rintro ⟨record, hrecord, hwide⟩
    exact ⟨⟨_, record, hrecord, rfl⟩, hwide⟩
  · rintro ⟨⟨_, record, hrecord, -⟩, hwide⟩
    exact ⟨record, hrecord, hwide⟩

theorem describeKind_eq_misuse {kind : WireKind} {data : Bytes} :
    describeKind kind config data = .error (.misuse m) ↔
      (∃ r, Record.decodeRlp kind.recordKind data = .ok r) ∧ WideIndent config ∧
        m = .overflow := by
  cases kind with
  | header => exact describe_eq_misuse Header.refuses_ofItem (fun _ => ⟨_, rfl⟩) .header
  | block => exact describe_eq_misuse Block.refuses_ofItem (fun _ => ⟨_, rfl⟩) .block
  | transaction => exact describe_eq_misuse Transaction.refuses_ofItem (fun _ => ⟨_, rfl⟩) .transaction
  | receipt => exact describe_eq_misuse Receipt.refuses_ofItem (fun _ => ⟨_, rfl⟩) .receipt
  | log => exact describe_eq_misuse Log.refuses_ofItem (fun _ => ⟨_, rfl⟩) .log

/-- How a command comes to a misuse. -/
inductive CommandEscape (s : Surroundings) (config : Config) (files : Files) (chainId : Value) :
    Command → Misuse → Prop
  /-- a new key is to go under a path that no file can have -/
  | output {output path m} (hpath : filled output = some path)
      (hencode : Files.encodePath path = .error (.fault (.misuse m))) :
      CommandEscape s config files chainId (.keygen output) m
  | addressKey {source m} (h : KeyEscape source config files m) :
      CommandEscape s config files chainId (.address source) m
  /-- only a separator stands for the data -/
  | decodeOperand {kind fromJson} :
      CommandEscape s config files chainId (.decode kind none fromJson) .noOperation
  /-- a record is read, and its JSON is to be indented too far -/
  | decodeIndent {kind shown text data r} (hread : readData s (some shown) = .ok text)
      (hdata : decodeHex text "data" = .ok data)
      (hrecord : Record.decodeRlp kind.recordKind data = .ok r) (hwide : WideIndent config) :
      CommandEscape s config files chainId (.decode kind (some shown) false) .overflow
  | signKey {request m} (h : KeyEscape request.source config files m) :
      CommandEscape s config files chainId (.sign request) m
  /-- only a separator stands for the data of a transaction -/
  | signData {request key recipient} (hkey : loadKey request.source config files = .ok key)
      (hrecipient : recipientOf request.recipient = .ok recipient)
      (hdata : request.data = none) :
      CommandEscape s config files chainId (.sign request) .wrongType
  /-- a transaction is signed for a chain of so many digits that the recovery value has more of
  them than are written -/
  | signChain {request key t signer signature x}
      (hkey : loadKey request.source config files = .ok key) (ht : requested request = .ok t)
      (hsigner : Signer.forChain chainId = .ok signer)
      (hsignature : Secp256k1.sign key (signer.digest t).bytes = .ok signature)
      (hsplit : Secp256k1.split signature = .ok x)
      (hlong : Nat.pow 10 Text.decimalLimit ≤ x.recoveryId + signer.baseValue) :
      CommandEscape s config files chainId (.sign request) .longNumeral
  /-- a transaction is signed, and its JSON is to be indented too far -/
  | signIndent {request key t} (hkey : loadKey request.source config files = .ok key)
      (hsigned : signRequested request key chainId = .ok t) (hjson : request.asJson = true)
      (hwide : WideIndent config) :
      CommandEscape s config files chainId (.sign request) .overflow
  /-- only a separator stands for the transaction -/
  | senderOperand : CommandEscape s config files chainId (.sender none) .noOperation

section Perform

variable {chainId : Value} {request : SigningRequest} {key : PrivateKey}

theorem signRequested_eq_misuse (hwritten : request.IsWritten)
    (hchain : chainId.isWritten = true) :
    signRequested request key chainId = .error (.misuse m) ↔
      ((∃ recipient, recipientOf request.recipient = .ok recipient) ∧ request.data = none ∧
        m = .wrongType) ∨
      ∃ t signer signature x, requested request = .ok t ∧ Signer.forChain chainId = .ok signer ∧
        Secp256k1.sign key (signer.digest t).bytes = .ok signature ∧
        Secp256k1.split signature = .ok x ∧
        Nat.pow 10 Text.decimalLimit ≤ x.recoveryId + signer.baseValue ∧ m = .longNumeral := by
  rw [signRequested, bind_eq_error, requested_eq_misuse hwritten]
  apply or_congr_right
  constructor
  · rintro ⟨t, ht, h⟩
    obtain ⟨signer, hsigner, h⟩ := (Signer.reports_forChain hchain).bind_eq_misuse.mp h
    obtain ⟨signature, x, hsignature, hsplit, hlong, hm⟩ := Signer.sign_eq_misuse.mp h
    exact ⟨t, signer, signature, x, ht, hsigner, hsignature, hsplit, hlong, hm⟩
  · rintro ⟨t, signer, signature, x, ht, hsigner, hsignature, hsplit, hlong, hm⟩
    refine ⟨t, ht, (Signer.reports_forChain hchain).bind_eq_misuse.mpr ⟨signer, hsigner, ?_⟩⟩
    exact Signer.sign_eq_misuse.mpr ⟨signature, x, hsignature, hsplit, hlong, hm⟩

theorem runSign_eq_misuse (hwritten : request.IsWritten) (hchain : chainId.isWritten = true) :
    runSign config files chainId request = .error (.fault (.misuse m)) ↔
      CommandEscape s config files chainId (.sign request) m := by
  rw [runSign_eq_error]
  constructor
  · rintro (hkey | ⟨hkey, hsigned⟩ | ⟨hkey, hsigned, hjson, hshown⟩)
    · exact .signKey (loadKey_eq_misuse.mp hkey)
    · rcases (signRequested_eq_misuse hwritten hchain).mp hsigned with
        ⟨⟨recipient, hrecipient⟩, hdata, rfl⟩ |
        ⟨t, signer, signature, x, ht, hsigner, hsignature, hsplit, hlong, rfl⟩
      · exact .signData hkey hrecipient hdata
      · exact .signChain hkey ht hsigner hsignature hsplit hlong
    · obtain ⟨hwide, rfl⟩ := (encodeJson_eq_misuse ⟨_, rfl⟩).mp hshown
      exact .signIndent hkey hsigned hjson hwide
  · intro h
    cases h with
    | signKey h => exact .key (loadKey_eq_misuse.mpr h)
    | signData hkey hrecipient hdata =>
      apply RequestFailure.signing hkey
      exact (signRequested_eq_misuse hwritten hchain).mpr (.inl ⟨⟨_, hrecipient⟩, hdata, rfl⟩)
    | signChain hkey ht hsigner hsignature hsplit hlong =>
      apply RequestFailure.signing hkey
      exact (signRequested_eq_misuse hwritten hchain).mpr
        (.inr ⟨_, _, _, _, ht, hsigner, hsignature, hsplit, hlong, rfl⟩)
    | signIndent hkey hsigned hjson hwide =>
      exact .json hkey hsigned hjson ((encodeJson_eq_misuse ⟨_, rfl⟩).mpr ⟨hwide, rfl⟩)

theorem runDecode_eq_misuse {kind : WireKind} {data : Option Text} {fromJson : Bool} :
    runDecode s config kind data fromJson = .error (.fault (.misuse m)) ↔
      CommandEscape s config files chainId (.decode kind data fromJson) m := by
  constructor
  · intro h
    rcases bind_eq_error.mp h with hread | ⟨text, hread, h⟩
    · obtain ⟨rfl, hm⟩ := readData_eq_error.mp hread
      cases hm
      exact .decodeOperand
    · cases fromJson with
      | true => exact absurd (orFail_eq_misuse.mp h) (reports_recodeKind kind text m)
      | false =>
        obtain ⟨b, hdata, h⟩ := (reports_decodeHex text "data").bind_eq_misuse.mp
          (orFail_eq_misuse.mp h)
        obtain ⟨⟨r, hrecord⟩, hwide, rfl⟩ := describeKind_eq_misuse.mp h
        cases data with
        | none => cases hread
        | some shown => exact .decodeIndent hread hdata hrecord hwide
  · intro h
    cases h with
    | decodeOperand => rfl
    | decodeIndent hread hdata hrecord hwide =>
      have hdescribe := describeKind_eq_misuse.mpr ⟨⟨_, hrecord⟩, hwide, rfl⟩
      rw [runDecode, hread, ok_bind, if_neg (by simp), hdata, ok_bind, hdescribe]
      rfl

theorem runSender_eq_misuse (hchain : chainId.isWritten = true) {raw : Option Text} :
    runSender s chainId raw = .error (.fault (.misuse m)) ↔
      CommandEscape s config files chainId (.sender raw) m := by
  constructor
  · intro h
    rcases bind_eq_error.mp h with hread | ⟨text, -, h⟩
    · obtain ⟨rfl, hm⟩ := readData_eq_error.mp hread
      cases hm
      exact .senderOperand
    · have hreports : Reports (do
          let t : Transaction ← decodeRlp (← decodeHex text "raw")
          let signer ← Signer.forChain chainId
          pure (← signer.sender t).checksumHex) := by
        simp only [reports_bind, reports_decodeHex, reports_decodeRlp Transaction.refuses_ofItem,
          Signer.reports_forChain hchain, true_and]
        intro data _ t _ signer hsigner
        exact ⟨Signer.reports_sender (Signer.isWritten_of_forChain hchain hsigner) t,
          fun address _ => reports_ok _⟩
      exact absurd (orFail_eq_misuse.mp h) (hreports m)
  · intro h
    cases h with
    | senderOperand => rfl

theorem runKeygen_eq_misuse {output : Option Text} :
    runKeygen s files output = .error (.fault (.misuse m)) ↔
      CommandEscape s config files chainId (.keygen output) m := by
  constructor
  · intro h
    unfold runKeygen at h
    dsimp only at h
    split at h
    next path hpath =>
      rcases bind_eq_error.mp h with hwrite | ⟨files', -, h⟩
      · exact .output hpath (Files.write_eq_misuse.mp hwrite)
      · cases h
    next => cases h
  · intro h
    cases h with
    | output hpath hencode =>
      unfold runKeygen
      dsimp only
      rw [hpath]
      exact bind_eq_error.mpr (.inl (Files.write_eq_misuse.mpr hencode))

end Perform

/-- A performed command comes to a misuse in these ways, and in no other ones. -/
theorem perform_eq_misuse
    (hwritten : ∀ request, i.command = .sign request → request.IsWritten)
    (hchain : (resolveChainId i config).isWritten = true) :
    perform s config files i = .error (.fault (.misuse m)) ↔
      CommandEscape s config files (resolveChainId i config) i.command m := by
  have hlast : ∀ {α : Type} {x : Except Failure α} {finish : α → Achievement},
      (x >>= fun a => pure (finish a)) = .error (.fault (.misuse m)) ↔
        x = .error (.fault (.misuse m)) := by
    intro α x finish
    rw [bind_eq_error]
    simp
  unfold perform
  cases hcommand : i.command with
  | keygen output => exact runKeygen_eq_misuse
  | address source =>
    refine hlast.trans (loadKey_eq_misuse.trans ?_)
    constructor
    · exact .addressKey
    · rintro ⟨⟩
      assumption
  | decode kind data fromJson => exact hlast.trans runDecode_eq_misuse
  | sign request => exact runSign_eq_misuse (hwritten request hcommand) hchain
  | sender raw => exact hlast.trans (runSender_eq_misuse hchain)

end CommandLine

end EthWire
