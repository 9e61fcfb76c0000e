import EthWire.Config.File
import EthWire.Proofs.Json.Field
import EthWire.Proofs.Json.Rereading
import EthWire.Proofs.Text.Utf8

/-!
# Loading a configuration

Whatever a file holds, loading it ends with a configuration that has no problems or with a
report of what is wrong. The one exception is a text that nests too deep: the reader gives up on
it, and nothing turns that into a report.
-/

namespace EthWire

/-! ## Depth -/

namespace Json

/-- The reader gives up at the first bracket too many, whatever follows. -/
theorem value_brackets {levels n : Nat} (h : levels < n) (rest : Text) :
    value levels (List.replicate n (CodePoint.ofChar '[') ++ rest) = .error .tooDeep := by
  induction levels generalizing n with
  | zero =>
    obtain ⟨n, rfl⟩ := Nat.exists_eq_add_one_of_ne_zero (Nat.ne_of_gt h)
    rw [List.replicate_succ, List.cons_append, value.eq_def]
    rfl
  | succ levels ih =>
    obtain ⟨n, rfl⟩ := Nat.exists_eq_add_one_of_ne_zero (Nat.ne_of_gt (Nat.zero_lt_of_lt h))
    have hn : levels < n := Nat.lt_of_succ_lt_succ h
    have hinside := ih hn
    obtain ⟨n, rfl⟩ := Nat.exists_eq_add_one_of_ne_zero (Nat.ne_of_gt (Nat.zero_lt_of_lt hn))
    rw [List.replicate_succ, List.cons_append] at hinside
    rw [List.replicate_succ, List.cons_append, value_array rfl, List.replicate_succ,
      List.cons_append, array, skipSpace_cons rfl]
    dsimp only
    rw [if_neg (by decide), elements, hinside]
    rfl

theorem read_brackets {n : Nat} (h : nestingLimit < n) (rest : Text) :
    read (List.replicate n (CodePoint.ofChar '[') ++ rest) = .error .tooDeep := by
  have hvalue := value_brackets h rest
  obtain ⟨n, rfl⟩ := Nat.exists_eq_add_one_of_ne_zero (Nat.ne_of_gt (Nat.zero_lt_of_lt h))
  rw [List.replicate_succ, List.cons_append] at hvalue ⊢
  rw [read, document, if_neg (by decide), document.read, skipSpace_cons rfl, hvalue]
  rfl

end Json

/-! ## Numerals -/

namespace Value

theorem isWritten_ofJson_arr {js : List Json} :
    (ofJson (.arr js)).isWritten = true ↔ ∀ j ∈ js, (ofJson j).isWritten = true := by
  rw [ofJson, isWritten]
  induction js with
  | nil => simp [ofJsonList, areWritten]
  | cons j js ih => rw [ofJsonList, areWritten, Bool.and_eq_true, ih, List.forall_mem_cons]

theorem isWritten_ofJson_obj {ms : List (Text × Json)} :
    (ofJson (.obj ms)).isWritten = true ↔ ∀ m ∈ ms, (ofJson m.2).isWritten = true := by
  rw [ofJson, isWritten]
  induction ms with
  | nil => simp [ofJsonMembers, entriesWritten]
  | cons m ms ih => rw [ofJsonMembers, entriesWritten, Bool.and_eq_true, ih, List.forall_mem_cons]

/-- What is read from a document has no integer that is too long to be written. -/
theorem isWritten_of_legible {levels : Nat} {j : Json} (h : Json.Legible levels j) :
    (ofJson j).isWritten = true := by
  induction h with
  | null => simp [ofJson, isWritten]
  | bool b => simp [ofJson, isWritten]
  | int _ hwritten => rwa [ofJson, isWritten]
  | float _ => simp [ofJson, isWritten]
  | str _ => simp [ofJson, isWritten]
  | arr _ ih => exact isWritten_ofJson_arr.mpr ih
  | obj _ _ _ ih => exact isWritten_ofJson_obj.mpr ih

end Value

namespace Config

variable {α β : Type} {path : Text} {content : Bytes} {members settings : List (Text × Json)}
  {name key : String} {known : List Text} {c d : Config} {default : Value} {m : Misuse}

/-! ## Members -/

theorem unknownKeys_eq_nil_iff :
    unknownKeys known members = [] ↔ ∀ m ∈ members, m.1 ∈ known := by
  have hsort : ∀ ts : List Text, Text.sort ts = [] ↔ ts = [] := by
    intro ts
    have hlength : (Text.sort ts).length = ts.length := List.length_mergeSort ts
    rw [← List.length_eq_zero_iff, hlength, List.length_eq_zero_iff]
  rw [unknownKeys, hsort, List.filter_eq_nil_iff, List.forall_mem_map]
  simp

theorem checkKeys_eq_ok :
    checkKeys known path members = .ok () ↔ ∀ m ∈ members, m.1 ∈ known := by
  rw [← unknownKeys_eq_nil_iff, checkKeys]
  split
  next hnil => simp [hnil]
  next hunknown =>
    constructor
    · intro h
      cases h
    · intro h
      exact absurd h hunknown

theorem sectionMembers_eq_ok : sectionMembers name known members = .ok settings ↔
    (members.lookup (Text.ofString name) = none ∧ settings = []) ∨
    (members.lookup (Text.ofString name) = some (.obj settings) ∧
      ∀ m ∈ settings, m.1 ∈ known) := by
  unfold sectionMembers
  split
  next hnone => simp [hnone, eq_comm]
  next ms hms =>
    rw [bind_eq_ok, hms]
    constructor
    · intro h
      obtain ⟨u, hkeys, hsettings⟩ := h
      obtain rfl := Except.ok.inj hsettings
      exact .inr ⟨rfl, checkKeys_eq_ok.mp hkeys⟩
    · intro h
      obtain ⟨hnone, -⟩ | ⟨hsome, hkeys⟩ := h
      · cases hnone
      · obtain rfl := Json.obj.inj (Option.some.inj hsome)
        exact ⟨(), checkKeys_eq_ok.mpr hkeys, rfl⟩
  next j hother hj =>
    constructor
    · intro h
      cases h
    · intro h
      obtain ⟨hnone, -⟩ | ⟨hsome, -⟩ := h
      · rw [hj] at hnone
        cases hnone
      · rw [hj] at hsome
        obtain rfl := Option.some.inj hsome
        exact absurd rfl (hother settings)

/-- The configuration of the members of the three sections and of the whole. -/
def ofSections (signer codec log members : List (Text × Json)) : Config where
  signer := { chainId := setting signer "chain_id" mainnet.signer.chainId }
  codec :=
    { jsonIndent := setting codec "json_indent" mainnet.codec.jsonIndent
      jsonSortKeys := setting codec "json_sort_keys" mainnet.codec.jsonSortKeys }
  log :=
    { level := setting log "level" mainnet.log.level
      file := setting log "file" mainnet.log.file
      format := setting log "format" mainnet.log.format
      maxSizeMb := setting log "max_size_mb" mainnet.log.maxSizeMb
      backupCount := setting log "backup_count" mainnet.log.backupCount }
  keyfile := setting members "keyfile" mainnet.keyfile

theorem ofMembers_eq_ok : ofMembers members = .ok c ↔
    (∀ m ∈ members, m.1 ∈ (["keyfile", "signer", "codec", "log"] : List Text)) ∧
    ∃ signer codec log,
      sectionMembers "signer" ["chain_id"] members = .ok signer ∧
      sectionMembers "codec" ["json_indent", "json_sort_keys"] members = .ok codec ∧
      sectionMembers "log" ["level", "file", "format", "max_size_mb", "backup_count"] members
        = .ok log ∧
      ofSections signer codec log members = c := by
  unfold ofMembers
  simp only [bind_eq_ok, pure_eq_ok, Except.ok.injEq]
  constructor
  · intro h
    obtain ⟨u, hkeys, signer, hsigner, codec, hcodec, log, hlog, hc⟩ := h
    exact ⟨checkKeys_eq_ok.mp hkeys, signer, codec, log, hsigner, hcodec, hlog, hc⟩
  · intro h
    obtain ⟨hkeys, signer, codec, log, hsigner, hcodec, hlog, hc⟩ := h
    exact ⟨(), checkKeys_eq_ok.mpr hkeys, signer, hsigner, codec, hcodec, log, hlog, hc⟩

/-! ## Settings that can be shown -/

/-- No setting has an integer that is too long to be written. -/
def IsWritten (c : Config) : Prop := ∀ v ∈ c.settings, v.isWritten = true

/-- Members without an integer that is too long to be written. -/
def MembersWritten (members : List (Text × Json)) : Prop :=
  ∀ m ∈ members, (Value.ofJson m.2).isWritten = true

theorem isWritten_setting (h : MembersWritten members) (hdefault : default.isWritten = true) :
    (setting members key default).isWritten = true := by
  unfold setting
  split
  next j hj => exact h _ (Json.mem_of_lookup hj)
  next => exact hdefault

theorem membersWritten_section (h : MembersWritten members)
    (hsection : sectionMembers name known members = .ok settings) : MembersWritten settings := by
  obtain ⟨-, rfl⟩ | ⟨hlookup, -⟩ := sectionMembers_eq_ok.mp hsection
  · exact List.forall_mem_nil _
  · exact Value.isWritten_ofJson_obj.mp (h _ (Json.mem_of_lookup hlookup))

theorem isWritten_mainnet : mainnet.IsWritten := by
  have hint : ∀ k : Nat, k < Nat.pow 2 256 → (Value.int k).isWritten = true := by
    intro k hk
    rw [Value.isWritten]
    exact Text.isWritten_of_lt_word hk
  have hnull : Value.null.isWritten = true := by simp [Value.isWritten]
  have hbool : (Value.bool false).isWritten = true := by simp [Value.isWritten]
  have htext : ∀ t : Text, (Value.text t).isWritten = true := by simp [Value.isWritten]
  simp only [IsWritten, settings, List.forall_mem_cons]
  exact ⟨hnull, hint 1 (by decide), hnull, hbool, htext _, hnull, htext _, hint 100 (by decide),
    hint 5 (by decide), List.forall_mem_nil _⟩

theorem isWritten_of_ofMembers (hmembers : MembersWritten members) (h : ofMembers members = .ok c) :
    c.IsWritten := by
  obtain ⟨-, signer, codec, log, hsigner, hcodec, hlog, rfl⟩ := ofMembers_eq_ok.mp h
  have hsigner := membersWritten_section hmembers hsigner
  have hcodec := membersWritten_section hmembers hcodec
  have hlog := membersWritten_section hmembers hlog
  have hbase := isWritten_mainnet
  simp only [IsWritten, settings, List.forall_mem_cons, ofSections] at hbase ⊢
  obtain ⟨bkeyfile, bchain, bindent, bsort, blevel, bfile, bformat, bsize, bcount, -⟩ := hbase
  exact ⟨isWritten_setting hmembers bkeyfile, isWritten_setting hsigner bchain,
    isWritten_setting hcodec bindent, isWritten_setting hcodec bsort,
    isWritten_setting hlog blevel, isWritten_setting hlog bfile,
    isWritten_setting hlog bformat, isWritten_setting hlog bsize,
    isWritten_setting hlog bcount, List.forall_mem_nil _⟩

/-! ## Checks -/

theorem isWritten_of_mem_checks (h : c.IsWritten) : ∀ check ∈ c.checks, check.isWritten = true := by
  simp only [IsWritten, settings, List.forall_mem_cons] at h
  obtain ⟨hkeyfile, hchain, hindent, hsort, hlevel, hfile, hformat, -, -, -⟩ := h
  simp only [checks, List.forall_mem_cons]
  exact ⟨hchain, hindent, hsort, hlevel, hformat, hfile, trivial, trivial, hkeyfile, List.forall_mem_nil _⟩

theorem Check.report_of_isWritten {check : Check} (h : check.isWritten = true) :
    check.report = .ok check.problem :=
  if_pos h

/-- If every setting can be shown, the problems of the checks that do not pass are reported. -/
theorem validate_of_isWritten (h : c.IsWritten) :
    c.validate = .ok ((c.checks.filter fun check => !check.passes).map Check.problem) := by
  rw [validate, mapM_eq_ok, List.forall₂_map_right_iff, List.forall₂_same]
  intro check hcheck
  exact Check.report_of_isWritten (isWritten_of_mem_checks h check (List.mem_of_mem_filter hcheck))

theorem validate_eq_ok_nil :
    c.validate = .ok [] ↔ ∀ check ∈ c.checks, check.passes = true := by
  rw [validate, mapM_eq_ok, List.forall₂_nil_right_iff, List.filter_eq_nil_iff]
  simp

/-! ## Reports -/

/-- A computation that ends with a value or with a report of at least one problem. -/
def Tells (x : Except Fault α) : Prop :=
  ∀ f, x = .error f → ∃ problems, problems ≠ [] ∧ f = .config problems

theorem Tells.ne_misuse {x : Except Fault α} (h : Tells x) : x ≠ .error (.misuse m) := by
  intro hx
  obtain ⟨problems, -, hm⟩ := h _ hx
  cases hm

theorem tells_ok (a : α) : Tells (.ok a) := by
  intro f hf
  cases hf

theorem Tells.bind {x : Except Fault α} {f : α → Except Fault β} (h : Tells x)
    (hrest : ∀ a, x = .ok a → Tells (f a)) : Tells (x >>= f) := by
  intro e he
  rcases bind_eq_error.mp he with hx | ⟨a, hok, ha⟩
  · exact h e hx
  · exact hrest a hok e ha

theorem tells_refuse {problems : List Text} (h : problems ≠ []) :
    Tells (refuse problems : Except Fault α) := by
  intro f hf
  obtain rfl := Except.error.inj hf
  exact ⟨problems, h, rfl⟩

theorem tells_checkKeys (known : List Text) (path : Text) (members : List (Text × Json)) :
    Tells (checkKeys known path members) := by
  unfold checkKeys
  split
  · exact tells_ok ()
  next hunknown =>
    apply tells_refuse
    intro hnil
    exact hunknown (List.map_eq_nil_iff.mp hnil)

theorem tells_sectionMembers (name : String) (known : List Text) (members : List (Text × Json)) :
    Tells (sectionMembers name known members) := by
  unfold sectionMembers
  split
  · exact tells_ok []
  · exact (tells_checkKeys _ _ _).bind fun _ _ => tells_ok _
  · exact tells_refuse (List.cons_ne_nil _ _)

theorem tells_ofMembers (members : List (Text × Json)) : Tells (ofMembers members) := by
  refine (tells_checkKeys _ _ _).bind fun _ _ => ?_
  refine (tells_sectionMembers _ _ _).bind fun signer _ => ?_
  refine (tells_sectionMembers _ _ _).bind fun codec _ => ?_
  exact (tells_sectionMembers _ _ _).bind fun log _ => tells_ok _

theorem checked_eq_ok : checked c = .ok d ↔ d = c ∧ c.validate = .ok [] := by
  rw [checked, bind_eq_ok]
  constructor
  · intro h
    obtain ⟨problems, hvalidate, h⟩ := h
    split at h
    next => exact ⟨(Except.ok.inj h).symm, hvalidate⟩
    next => cases h
  · intro h
    exact ⟨[], h.2, h.1 ▸ rfl⟩

theorem tells_checked (h : c.IsWritten) : Tells (checked c) := by
  rw [checked, validate_of_isWritten h, ok_bind]
  split
  next => exact tells_ok c
  next hsome => exact tells_refuse hsome

/-! ## Outcomes -/

/-- The content is a text in which brackets nest deeper than they are read. -/
def NestsTooDeep (content : Bytes) : Prop :=
  ∃ text, Text.ofUtf8? content = some text ∧ Json.read text = .error .tooDeep

theorem load_of_nestsTooDeep (h : NestsTooDeep content) :
    load path content = .error (.misuse .nesting) := by
  obtain ⟨text, htext, hread⟩ := h
  rw [load, htext]
  dsimp only
  rw [hread]

/-- Numerals that are too long to be written are not read either. -/
theorem membersWritten_of_read {text : Text} (htext : Text.ofUtf8? content = some text)
    (hread : Json.read text = .ok (.obj members)) : MembersWritten members :=
  Value.isWritten_ofJson_obj.mp <| Value.isWritten_of_legible <|
    Json.legible_of_read (Text.scalar_of_ofUtf8? htext) hread

theorem tells_load (h : ¬NestsTooDeep content) : Tells (load path content) := by
  unfold load
  split
  next => exact tells_refuse (List.cons_ne_nil _ _)
  next text htext =>
    split
    next hread => exact absurd ⟨text, htext, hread⟩ h
    next => exact tells_refuse (List.cons_ne_nil _ _)
    next members hread =>
      have hwritten := membersWritten_of_read htext hread
      refine (tells_ofMembers members).bind fun c hc => ?_
      exact tells_checked (isWritten_of_ofMembers hwritten hc)
    next => exact tells_refuse (List.cons_ne_nil _ _)

theorem load_eq_misuse :
    load path content = .error (.misuse m) ↔ NestsTooDeep content ∧ m = .nesting := by
  constructor
  · intro h
    by_cases hdeep : NestsTooDeep content
    · rw [load_of_nestsTooDeep hdeep] at h
      cases h
      exact ⟨hdeep, rfl⟩
    · exact absurd h (tells_load hdeep).ne_misuse
  · intro h
    rw [h.2]
    exact load_of_nestsTooDeep h.1

/-- What a loaded configuration is read from. -/
theorem load_eq_ok : load path content = .ok c ↔ ∃ text members,
    Text.ofUtf8? content = some text ∧ Json.read text = .ok (.obj members) ∧
      ofMembers members = .ok c ∧ c.validate = .ok [] := by
  constructor
  · intro h
    unfold load at h
    split at h
    next => cases h
    next text htext =>
      split at h
      next => cases h
      next => cases h
      next members hread =>
        obtain ⟨d, hd, h⟩ := bind_eq_ok.mp h
        obtain ⟨rfl, hvalid⟩ := checked_eq_ok.mp h
        exact ⟨text, members, htext, hread, hd, hvalid⟩
      next => cases h
  · intro h
    obtain ⟨text, members, htext, hread, hmembers, hvalid⟩ := h
    rw [load, htext]
    dsimp only
    rw [hread]
    dsimp only
    rw [hmembers, ok_bind, checked_eq_ok]
    exact ⟨rfl, hvalid⟩

theorem isWritten_of_load (h : load path content = .ok c) : c.IsWritten := by
  obtain ⟨text, members, htext, hread, hmembers, -⟩ := load_eq_ok.mp h
  exact isWritten_of_ofMembers (membersWritten_of_read htext hread) hmembers

/-- Loading ends with a configuration without problems or with a report of problems, unless the
text nests too deep: then the reader gives up, and that is no report. -/
theorem load_outcomes (path : Text) (content : Bytes) :
    (¬NestsTooDeep content ∧
      ((∃ c, load path content = .ok c ∧ c.validate = .ok []) ∨
        ∃ problems, problems ≠ [] ∧ load path content = .error (.config problems))) ∨
    (NestsTooDeep content ∧ load path content = .error (.misuse .nesting)) := by
  by_cases hdeep : NestsTooDeep content
  · exact .inr ⟨hdeep, load_of_nestsTooDeep hdeep⟩
  · refine .inl ⟨hdeep, ?_⟩
    cases hload : load path content with
    | ok c =>
      obtain ⟨-, -, -, -, -, hvalid⟩ := load_eq_ok.mp hload
      exact .inl ⟨c, rfl, hvalid⟩
    | error f =>
      obtain ⟨problems, hne, rfl⟩ := tells_load hdeep f hload
      exact .inr ⟨problems, hne, rfl⟩

theorem nestsTooDeep_brackets {n : Nat} (h : Json.nestingLimit < n) :
    NestsTooDeep (List.replicate n 0x5b) := by
  have hbytes : Text.toUtf8 (List.replicate n (CodePoint.ofChar '[')) = List.replicate n 0x5b := by
    rw [Text.toUtf8, List.flatMap_replicate]
    exact List.flatten_replicate_singleton
  have hscalar : Text.Scalar (List.replicate n (CodePoint.ofChar '[')) := by
    intro c hc
    rw [List.eq_of_mem_replicate hc]
    rfl
  have hread := Json.read_brackets h []
  rw [List.append_nil] at hread
  refine ⟨_, ?_, hread⟩
  rw [← hbytes, hscalar.ofUtf8?_toUtf8]

/-- Four thousand opening brackets are neither loaded nor reported. -/
theorem load_openBrackets :
    let content : Bytes := List.replicate 4000 0x5b
    load "config.json" content = .error (.misuse .nesting) ∧
      (∀ c, load "config.json" content ≠ .ok c) ∧
      ∀ problems, load "config.json" content ≠ .error (.config problems) := by
  intro content
  have hload : load "config.json" content = .error (.misuse .nesting) :=
    load_of_nestsTooDeep (nestsTooDeep_brackets (by decide))
  rw [hload]
  exact ⟨rfl, nofun, nofun⟩

end Config

end EthWire
