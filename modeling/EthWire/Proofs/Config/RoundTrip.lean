import EthWire.Proofs.Config.Load
import EthWire.Proofs.Json.Ascii
import EthWire.Proofs.Json.Rereading
import EthWire.Proofs.Record.Document
import EthWire.Signer

/-!
# Loaded configurations

A configuration without problems has settings of types that a file can hold, and those of a loaded
one come from a document that can be written again. So a loaded configuration is loaded again from
what is saved of it. Its chain has a signer, because the check and the signer agree on which values
are chains.
-/

namespace EthWire.Config

open Json (Legible StringReads)

variable {path : Text} {content : Bytes} {members settings : List (Text × Json)} {name : String}
  {known : List Text} {c : Config} {v : Value} {levels : Nat}

/-! ## Settings -/

/-- A value of a type that a file can hold and that a setting may have. -/
def isScalar : Value → Bool
  | .null => true
  | .bool _ => true
  | .int _ => true
  | .text _ => true
  | _ => false

theorem isScalar_of_isText (h : isText v = true) : isScalar v = true := by
  cases v with
  | text t => rfl
  | _ => cases h

theorem isScalar_of_isBool (h : isBool v = true) : isScalar v = true := by
  cases v with
  | bool b => rfl
  | _ => cases h

theorem isScalar_of_isIntegerFrom {least : Int} (h : isIntegerFrom least v = true) :
    isScalar v = true := by
  cases v with
  | int n => rfl
  | _ => cases h

theorem isScalar_of_isLevel (h : isLevel v = true) : isScalar v = true := by
  cases v with
  | text t => rfl
  | _ => cases h

theorem isScalar_of_isNullOr {check : Value → Bool} (hcheck : check v = true → isScalar v = true)
    (h : isNullOr check v = true) : isScalar v = true := by
  cases v with
  | null => rfl
  | _ => exact hcheck h

/-- Every setting of a configuration without problems is of such a type. -/
theorem isScalar_of_validate (h : c.validate = .ok []) : ∀ v ∈ c.settings, isScalar v = true := by
  rw [validate_eq_ok_nil] at h
  simp only [checks, Check.showing, List.forall_mem_cons] at h
  obtain ⟨hchain, hindent, hsort, hlevel, hformat, hfile, hsize, hcount, hkeyfile, -⟩ := h
  simp only [settings, List.forall_mem_cons]
  exact ⟨isScalar_of_isNullOr isScalar_of_isText hkeyfile,
    isScalar_of_isNullOr isScalar_of_isIntegerFrom hchain,
    isScalar_of_isNullOr isScalar_of_isIntegerFrom hindent, isScalar_of_isBool hsort,
    isScalar_of_isLevel hlevel, isScalar_of_isNullOr isScalar_of_isText hfile,
    isScalar_of_isText hformat, isScalar_of_isIntegerFrom hsize,
    isScalar_of_isIntegerFrom hcount, List.forall_mem_nil _⟩

theorem ofJson_settingJson (h : isScalar v = true) : Value.ofJson (settingJson v) = v := by
  cases v with
  | null | bool | int | text => simp [settingJson, Value.ofJson]
  | _ => cases h

theorem settingJson_ofJson {j : Json} (h : isScalar (.ofJson j) = true) :
    settingJson (.ofJson j) = j := by
  cases j with
  | null | bool | int | str => simp [settingJson, Value.ofJson]
  | _ =>
    rw [Value.ofJson] at h
    cases h

theorem agrees_self_of_isScalar (h : isScalar v = true) : v.agrees v = true := by
  cases v with
  | null => rw [Value.agrees]
  | bool b | int n | text t => simp [Value.agrees, Value.agreeNumbers, Value.integer?]
  | _ => cases h

theorem agreeAll_self {vs : List Value} (h : ∀ v ∈ vs, isScalar v = true) :
    Value.agreeAll vs vs = true := by
  induction vs with
  | nil => rw [Value.agreeAll]
  | cons v vs ih =>
    obtain ⟨hv, hvs⟩ := List.forall_mem_cons.mp h
    rw [Value.agreeAll, agrees_self_of_isScalar hv, ih hvs]
    rfl

/-! ## Writing -/

/-- A setting whose JSON form can be written and read again. -/
def Writable (levels : Nat) (v : Value) : Prop := Legible levels (settingJson v)

theorem writable_mainnet : ∀ v ∈ mainnet.settings, Writable levels v := by
  have hint : ∀ n : Nat, n < Nat.pow 2 256 → Writable levels (.int n) :=
    fun n hn => Json.legible_int (Text.isWritten_of_lt_word hn)
  have htext : ∀ t : Text, t.all Json.isPlain = true → Writable levels (.text t) :=
    fun t ht => .str (Json.stringReads_plain ht)
  have hnull : Writable levels .null := .null
  simp only [settings, List.forall_mem_cons]
  exact ⟨hnull, hint 1 (by decide), hnull, .bool false, htext _ (by decide), hnull,
    htext _ (by decide), hint 100 (by decide), hint 5 (by decide), List.forall_mem_nil _⟩

/-- A setting comes from a member that was read or is the one of the main network. -/
theorem writable_setting {key : String} {default : Value} (hdefault : Writable levels default)
    (hsettings : ∀ m ∈ settings, Legible levels m.2)
    (hscalar : isScalar (setting settings key default) = true) :
    Writable levels (setting settings key default) := by
  unfold setting at hscalar ⊢
  split
  next j hj =>
    rw [hj] at hscalar
    rw [Writable, settingJson_ofJson hscalar]
    exact hsettings _ (Json.mem_of_lookup hj)
  next => exact hdefault

/-- The members of a section are read with one level less. -/
theorem legible_sectionMembers (hmembers : Legible (levels + 2) (.obj members))
    (h : sectionMembers name known members = .ok settings) :
    ∀ m ∈ settings, Legible levels m.2 := by
  obtain ⟨-, rfl⟩ | ⟨hlookup, -⟩ := sectionMembers_eq_ok.mp h
  · exact List.forall_mem_nil _
  · cases hmembers with
    | obj _ _ hvalues =>
      cases hvalues _ (Json.mem_of_lookup hlookup) with
      | obj _ _ hsettings => exact hsettings

/-- The settings in the sections; the key file stands outside. -/
def sectionSettings (c : Config) : List Value := c.settings.tail

/-- The settings of a configuration without problems that was read can be written. -/
theorem writable_of_ofMembers (hmembers : Legible (levels + 2) (.obj members))
    (h : ofMembers members = .ok c) (hscalar : ∀ v ∈ c.settings, isScalar v = true) :
    Writable (levels + 1) c.keyfile ∧ ∀ v ∈ c.sectionSettings, Writable levels v := by
  obtain ⟨-, signer, codec, log, hsigner, hcodec, hlog, rfl⟩ := ofMembers_eq_ok.mp h
  have hsigner := legible_sectionMembers hmembers hsigner
  have hcodec := legible_sectionMembers hmembers hcodec
  have hlog := legible_sectionMembers hmembers hlog
  have houter : ∀ m ∈ members, Legible (levels + 1) m.2 := by
    cases hmembers with
    | obj _ _ hvalues => exact hvalues
  have hbase := @writable_mainnet levels
  have hbaseOuter := @writable_mainnet (levels + 1)
  simp only [sectionSettings, settings, List.tail_cons, List.forall_mem_cons, ofSections]
    at hscalar hbase hbaseOuter ⊢
  obtain ⟨skeyfile, schain, sindent, ssort, slevel, sfile, sformat, ssize, scount, -⟩ := hscalar
  obtain ⟨-, bchain, bindent, bsort, blevel, bfile, bformat, bsize, bcount, -⟩ := hbase
  exact ⟨writable_setting hbaseOuter.1 houter skeyfile,
    writable_setting bchain hsigner schain, writable_setting bindent hcodec sindent,
    writable_setting bsort hcodec ssort, writable_setting blevel hlog slevel,
    writable_setting bfile hlog sfile, writable_setting bformat hlog sformat,
    writable_setting bsize hlog ssize, writable_setting bcount hlog scount,
    List.forall_mem_nil _⟩

/-! ## Saved files -/

def signerMembers (c : Config) : List (Text × Json) :=
  [("chain_id", settingJson c.signer.chainId)]

def codecMembers (c : Config) : List (Text × Json) :=
  [("json_indent", settingJson c.codec.jsonIndent),
   ("json_sort_keys", settingJson c.codec.jsonSortKeys)]

def logMembers (c : Config) : List (Text × Json) :=
  [("level", settingJson c.log.level), ("file", settingJson c.log.file),
   ("format", settingJson c.log.format), ("max_size_mb", settingJson c.log.maxSizeMb),
   ("backup_count", settingJson c.log.backupCount)]

/-- The members of the object that is saved. -/
def savedMembers (c : Config) : List (Text × Json) :=
  [("keyfile", settingJson c.keyfile), ("signer", .obj c.signerMembers),
   ("codec", .obj c.codecMembers), ("log", .obj c.logMembers)]

theorem toJson_eq (c : Config) : c.toJson = .obj c.savedMembers := rfl

/-- Different keys of plain letters. -/
def PlainKeys (keys : List Text) : Prop :=
  keys.Nodup ∧ ∀ k ∈ keys, k.all Json.isPlain = true

instance : DecidablePred PlainKeys := fun _ => instDecidableAnd

theorem legible_obj {keys : List Text} (hplain : PlainKeys keys)
    (hkeys : members.map Prod.fst = keys) (hvalues : ∀ m ∈ members, Legible levels m.2) :
    Legible (levels + 1) (.obj members) := by
  subst hkeys
  refine .obj hplain.1 (fun m hm => ?_) hvalues
  exact Json.stringReads_plain (hplain.2 m.1 (List.mem_map_of_mem hm))

theorem legible_toJson (hkeyfile : Writable (levels + 1) c.keyfile)
    (hsettings : ∀ v ∈ c.sectionSettings, Writable levels v) :
    Legible (levels + 2) c.toJson := by
  simp only [sectionSettings, settings, List.tail_cons, List.forall_mem_cons] at hsettings
  obtain ⟨hchain, hindent, hsort, hlevel, hfile, hformat, hsize, hcount, -⟩ := hsettings
  have hsigner : Legible (levels + 1) (.obj c.signerMembers) := by
    refine legible_obj (by decide : PlainKeys ["chain_id"]) rfl ?_
    simp only [signerMembers, List.forall_mem_cons]
    exact ⟨hchain, List.forall_mem_nil _⟩
  have hcodec : Legible (levels + 1) (.obj c.codecMembers) := by
    refine legible_obj (by decide : PlainKeys ["json_indent", "json_sort_keys"]) rfl ?_
    simp only [codecMembers, List.forall_mem_cons]
    exact ⟨hindent, hsort, List.forall_mem_nil _⟩
  have hlog : Legible (levels + 1) (.obj c.logMembers) := by
    refine legible_obj
      (by decide : PlainKeys ["level", "file", "format", "max_size_mb", "backup_count"]) rfl ?_
    simp only [logMembers, List.forall_mem_cons]
    exact ⟨hlevel, hfile, hformat, hsize, hcount, List.forall_mem_nil _⟩
  rw [toJson_eq]
  refine legible_obj (by decide : PlainKeys ["keyfile", "signer", "codec", "log"]) rfl ?_
  simp only [savedMembers, List.forall_mem_cons]
  exact ⟨hkeyfile, hsigner, hcodec, hlog, List.forall_mem_nil _⟩

theorem ofSections_saved (h : ∀ v ∈ c.settings, isScalar v = true) :
    ofSections c.signerMembers c.codecMembers c.logMembers c.savedMembers = c := by
  simp only [settings, List.forall_mem_cons] at h
  obtain ⟨hkeyfile, hchain, hindent, hsort, hlevel, hfile, hformat, hsize, hcount, -⟩ := h
  simp [ofSections, setting, signerMembers, codecMembers, logMembers, savedMembers,
    ofJson_settingJson, hkeyfile, hchain, hindent, hsort, hlevel, hfile, hformat, hsize, hcount]

theorem ofMembers_saved (h : ∀ v ∈ c.settings, isScalar v = true) :
    ofMembers c.savedMembers = .ok c := by
  have hsigner : sectionMembers "signer" ["chain_id"] c.savedMembers = .ok c.signerMembers :=
    sectionMembers_eq_ok.mpr (.inr ⟨by simp [savedMembers], by simp [signerMembers]⟩)
  have hcodec : sectionMembers "codec" ["json_indent", "json_sort_keys"] c.savedMembers
      = .ok c.codecMembers :=
    sectionMembers_eq_ok.mpr (.inr ⟨by simp [savedMembers], by simp [codecMembers]⟩)
  have hlog : sectionMembers "log" ["level", "file", "format", "max_size_mb", "backup_count"]
      c.savedMembers = .ok c.logMembers :=
    sectionMembers_eq_ok.mpr (.inr ⟨by simp [savedMembers], by simp [logMembers]⟩)
  exact ofMembers_eq_ok.mpr ⟨by simp [savedMembers], c.signerMembers, c.codecMembers, c.logMembers,
    hsigner, hcodec, hlog, ofSections_saved h⟩

/-- A configuration without problems whose settings can be written is loaded from its file. -/
theorem load_of_writable (hvalid : c.validate = .ok []) (hlegible : Legible Json.nestingLimit c.toJson)
    (path : Text) : load path c.save.toUtf8 = .ok c := by
  have hread : Json.read c.save = .ok c.toJson := Json.read_write_self hlegible rfl
  exact load_eq_ok.mpr ⟨c.save, c.savedMembers, Json.ofUtf8?_write _ _, hread,
    ofMembers_saved (isScalar_of_validate hvalid), hvalid⟩

theorem load_saved (h : load path content = .ok c) (other : Text) :
    load other c.save.toUtf8 = .ok c := by
  obtain ⟨text, members, htext, hread, hmembers, hvalid⟩ := load_eq_ok.mp h
  have hlegible : Legible (958 + 2) (.obj members) :=
    Json.legible_of_read (Text.scalar_of_ofUtf8? htext) hread
  obtain ⟨hkeyfile, hsettings⟩ :=
    writable_of_ofMembers hlegible hmembers (isScalar_of_validate hvalid)
  exact load_of_writable hvalid (legible_toJson hkeyfile hsettings) other

/-! ## Chains -/

/-- Reports of settings whose names start with different letters are different. -/
theorem invalid_ne {what other : String} {w : Value} {first second : CodePoint}
    (hwhat : (Text.ofString what).head? = some first)
    (hother : (Text.ofString other).head? = some second) (hne : first ≠ second) :
    invalid what v ≠ invalid other w := by
  intro h
  simp only [invalid, List.append_assoc, List.append_cancel_left_eq] at h
  have hfirst := congrArg List.head? h
  rw [List.head?_append, hwhat, Option.some_or, List.head?_append, hother, Option.some_or]
    at hfirst
  exact hne (Option.some.inj hfirst)

theorem invalid_ne_of_head {what : String} {t : Text} {first : CodePoint}
    (ht : t.head? = some first) (hne : first ≠ CodePoint.ofChar 'I') : t ≠ invalid what v := by
  intro h
  have hfirst : some first = some (CodePoint.ofChar 'I') := ht.symm.trans (congrArg List.head? h)
  exact hne (Option.some.inj hfirst)

/-- What is reported are the problems of the checks that do not pass. -/
theorem mem_of_validate {problems : List Text} {problem : Text} (h : c.validate = .ok problems) :
    problem ∈ problems ↔
      ∃ check ∈ c.checks, check.passes = false ∧ check.problem = problem := by
  have hall := mapM_eq_ok.mp h
  have hreports : ∀ (check : Check) (p : Text), check.report = .ok p → check.problem = p := by
    intro check p hp
    rw [Check.report] at hp
    split_ifs at hp
    exact Except.ok.inj hp
  constructor
  · intro hmem
    obtain ⟨check, hcheck, hreport⟩ := exists_of_mem_right hall hmem
    rw [List.mem_filter, Bool.not_eq_true'] at hcheck
    exact ⟨check, hcheck.1, hcheck.2, hreports check problem hreport⟩
  · rintro ⟨check, hcheck, hfails, rfl⟩
    obtain ⟨p, hp, hreport⟩ :=
      exists_of_mem_right hall.flip (List.mem_filter.mpr ⟨hcheck, by rw [hfails]; rfl⟩)
    rwa [hreports check p hreport]

/-- The chain is reported if and only if it is neither missing nor a positive integer. -/
theorem chainReport_mem {problems : List Text} (h : c.validate = .ok problems) :
    invalid "chain id" c.signer.chainId ∈ problems ↔
      isNullOr (isIntegerFrom 1) c.signer.chainId = false := by
  have hother : ∀ {other : String} {w : Value} {second : CodePoint},
      (Text.ofString other).head? = some second → CodePoint.ofChar 'c' ≠ second →
      invalid other w ≠ invalid "chain id" c.signer.chainId :=
    fun hsecond hne => (invalid_ne rfl hsecond hne).symm
  rw [mem_of_validate h]
  constructor
  · rintro ⟨check, hcheck, hfails, hproblem⟩
    simp only [checks, List.mem_cons, List.not_mem_nil, or_false] at hcheck
    rcases hcheck with rfl | rfl | rfl | rfl | rfl | rfl | rfl | rfl | rfl
    · exact hfails
    · exact absurd hproblem (hother rfl (by decide))
    · exact absurd hproblem (hother rfl (by decide))
    · exact absurd hproblem (hother rfl (by decide))
    · exact absurd hproblem (hother rfl (by decide))
    · exact absurd hproblem (hother rfl (by decide))
    · exact absurd hproblem (invalid_ne_of_head rfl (by decide))
    · exact absurd hproblem (invalid_ne_of_head rfl (by decide))
    · exact absurd hproblem (hother rfl (by decide))
  · intro h
    exact ⟨_, List.mem_cons_self, h, rfl⟩

/-- If the other settings can be reported, there is a report unless the chain is refused and cannot
be shown. -/
theorem validate_isOk_iff {rest : List Text}
    (hrest : Config.validate { c with signer := {} } = .ok rest) :
    (∃ problems, c.validate = .ok problems) ↔
      (isNullOr (isIntegerFrom 1) c.signer.chainId = false → c.signer.chainId.isWritten = true) := by
  have hothers : ∀ check ∈ c.checks.tail.filter (fun check => !check.passes),
      ∃ problem, check.report = .ok problem := exists_mapM_eq_ok.mp ⟨rest, hrest⟩
  have hchecks : c.checks
      = .showing "chain id" c.signer.chainId (isNullOr (isIntegerFrom 1)) :: c.checks.tail := rfl
  rw [validate, exists_mapM_eq_ok, hchecks, List.filter_cons]
  cases hpasses : isNullOr (isIntegerFrom 1) c.signer.chainId with
  | true => simpa [Check.showing, hpasses] using hothers
  | false =>
    simp only [Check.showing, hpasses, Bool.not_false, if_true, List.forall_mem_cons]
    rw [and_iff_left hothers, Check.report]
    dsimp only
    cases c.signer.chainId.isWritten with
    | true => simp
    | false => simp

theorem forChain_of_isNullOr (h : isNullOr (isIntegerFrom 1) v = true) :
    ∃ s, Signer.forChain v = .ok s := by
  cases v with
  | null => exact ⟨.legacy, rfl⟩
  | int n =>
    have hn : 1 ≤ n := of_decide_eq_true h
    have hpos : 0 < n.toNat := by omega
    exact ⟨.replayProtected ⟨n.toNat, hpos⟩, dif_pos hpos⟩
  | _ => cases h

theorem forChain_of_not_isNullOr (h : isNullOr (isIntegerFrom 1) v = false) :
    Signer.forChain v = .error (.wrongChain v none) := by
  cases v with
  | null => cases h
  | int n =>
    have hn : ¬1 ≤ n := of_decide_eq_false h
    have hpos : ¬0 < n.toNat := by omega
    exact dif_neg hpos
  | _ => rfl

/-- No signer is made for the chains that the check refuses, and for no others it is refused; a
value that cannot be shown is refused without a report of it. -/
theorem forChain_eq_error_iff :
    Signer.forChain v = .error (.chainId v none) ↔
      isNullOr (isIntegerFrom 1) v = false ∧ v.isWritten = true := by
  cases hv : isNullOr (isIntegerFrom 1) v with
  | true =>
    obtain ⟨s, hs⟩ := forChain_of_isNullOr hv
    simp [hs]
  | false =>
    rw [forChain_of_not_isNullOr hv, Fault.wrongChain, Fault.showing]
    cases hwritten : v.isWritten with
    | true => simp
    | false => simp

end EthWire.Config
