import EthWire.Proofs.Json.Field
import EthWire.Proofs.Record.JsonRoundTrip

/-!
# What a record reads of its document

The members that a reader of a record looks at, each with the form in which it is read. Two
objects that are read alike in these members give the same record, whatever else they hold.
-/

namespace EthWire

/-- The form in which a value of a document is read. -/
inductive Form
  | hex
  | quantity
  | flag
  | list (element : Form)
  | object (kind : RecordKind)
deriving DecidableEq

/-! ## The members of each kind, in the order in which they are read -/

def Header.readMembers : List (String × Form) :=
  [("parentHash", .hex), ("sha3Uncles", .hex), ("miner", .hex), ("stateRoot", .hex),
   ("transactionsRoot", .hex), ("receiptsRoot", .hex), ("logsBloom", .hex),
   ("difficulty", .quantity), ("number", .quantity), ("gasLimit", .quantity),
   ("gasUsed", .quantity), ("timestamp", .quantity), ("extraData", .hex), ("mixHash", .hex),
   ("nonce", .hex)]

def Transaction.readMembers : List (String × Form) :=
  [("nonce", .quantity), ("gasPrice", .quantity), ("gas", .quantity), ("to", .hex),
   ("value", .quantity), ("input", .hex), ("v", .quantity), ("r", .quantity), ("s", .quantity)]

/-- A block is read from two lists and the members of its header. -/
def Block.readMembers : List (String × Form) :=
  ("transactions", .list (.object .transaction)) :: ("uncles", .list (.object .header)) ::
    Header.readMembers

def Log.readMembers : List (String × Form) :=
  [("topics", .list .hex), ("removed", .flag), ("address", .hex), ("data", .hex),
   ("blockNumber", .quantity), ("transactionHash", .hex), ("transactionIndex", .quantity),
   ("blockHash", .hex), ("logIndex", .quantity)]

def Receipt.readMembers : List (String × Form) :=
  [("root", .hex), ("status", .quantity), ("cumulativeGasUsed", .quantity), ("logsBloom", .hex),
   ("logs", .list (.object .log)), ("transactionHash", .hex), ("contractAddress", .hex),
   ("gasUsed", .quantity)]

namespace RecordKind

/-- The members that the reader of a kind looks at. The kinds without an encoding in bytes are
left out. -/
def readMembers : RecordKind → List (String × Form)
  | header => Header.readMembers
  | transaction => Transaction.readMembers
  | block => Block.readMembers
  | log => Log.readMembers
  | receipt => Receipt.readMembers
  | newMessage | message | criteria => []

def readKeys (kind : RecordKind) : List Text :=
  kind.readMembers.map fun (key, _) => Text.ofString key

end RecordKind

/-! ## Values that are read alike -/

/-- Two values that no reader of the form tells apart, up to what it reports of a bad one. -/
def ReadAlike : Form → Json → Json → Prop
  | .hex, j, k => j.isNull = k.isNull ∧
      ∀ field b, j.shape.asBytes field = .ok b ↔ k.shape.asBytes field = .ok b
  | .quantity, j, k => j.isNull = k.isNull ∧
      ∀ max field n, j.shape.asQuantity max field = .ok n ↔ k.shape.asQuantity max field = .ok n
  | .flag, j, k => j = k
  | .list element, j, k =>
      j = k ∨ ∃ js ks, j = .arr js ∧ k = .arr ks ∧ List.Forall₂ (ReadAlike element) js ks
  | .object kind, j, k => j.isNull = k.isNull ∧
      (kind.isWire = true → ∀ r, Record.ofJson kind j = .ok r ↔ Record.ofJson kind k = .ok r)

theorem ReadAlike.refl (form : Form) (j : Json) : ReadAlike form j j := by
  cases form with
  | hex => exact ⟨rfl, fun _ _ => Iff.rfl⟩
  | quantity => exact ⟨rfl, fun _ _ _ => Iff.rfl⟩
  | flag => exact rfl
  | list element => exact .inl rfl
  | object kind => exact ⟨rfl, fun _ _ => Iff.rfl⟩

theorem ReadAlike.isNull_eq {form : Form} {j k : Json} (h : ReadAlike form j k) :
    j.isNull = k.isNull := by
  cases form with
  | hex => exact h.1
  | quantity => exact h.1
  | flag => exact congrArg _ h
  | list element =>
    obtain rfl | ⟨js, ks, rfl, rfl, -⟩ := h
    · rfl
    · rfl
  | object kind => exact h.1

/-- Shapes of values that are read alike. -/
def ShapedAlike (form : Form) (s s' : Shape Json) : Prop :=
  ∃ j k, ReadAlike form j k ∧ j.shape = s ∧ k.shape = s'

namespace ShapedAlike

variable {s s' : Shape Json} {field : Text} {max : Int} {bits : Nat} {width : FixedKind}
  {element : Form}

theorem asBytes (h : ShapedAlike .hex s s') : EndAlike Eq (s.asBytes field) (s'.asBytes field) := by
  obtain ⟨j, k, hjk, rfl, rfl⟩ := h
  exact endAlike_eq_iff.mpr (hjk.2 field)

theorem asFixed (h : ShapedAlike .hex s s') :
    EndAlike Eq (s.asFixed field : Except Fault (Fixed width)) (s'.asFixed field) :=
  h.asBytes.bind_same fun _ => .refl _

theorem asAddress? (h : ShapedAlike .hex s s') :
    EndAlike Eq ((s.asFixed field : Except Fault (Fixed width)).map some)
      ((s'.asFixed field).map some) :=
  h.asFixed.map fun _ _ => congrArg some

theorem asQuantity (h : ShapedAlike .quantity s s') :
    EndAlike Eq (s.asQuantity max field) (s'.asQuantity max field) := by
  obtain ⟨j, k, hjk, rfl, rfl⟩ := h
  exact endAlike_eq_iff.mpr (hjk.2 max field)

theorem asWord (h : ShapedAlike .quantity s s') :
    EndAlike Eq (s.asWord field : Except Fault (Word bits)) (s'.asWord field) :=
  h.asQuantity.bind_same fun _ => .refl _

theorem asBool (h : ShapedAlike .flag s s') : EndAlike Eq (s.asBool field) (s'.asBool field) := by
  obtain ⟨j, k, rfl, rfl, rfl⟩ := h
  exact .refl _

theorem asArray (h : ShapedAlike (.list element) s s') :
    EndAlike (List.Forall₂ (ReadAlike element)) (s.asArray field) (s'.asArray field) := by
  obtain ⟨j, k, rfl | ⟨js, ks, rfl, rfl, hlists⟩, rfl, rfl⟩ := h
  · cases j.shape with
    | array elements => exact .values (List.forall₂_same.mpr fun j _ => ReadAlike.refl element j)
    | _ => exact .faults
  · exact .values hlists

end ShapedAlike

/-! ## Objects that are read alike -/

/-- Two objects that are read alike in every member that the reader of the kind looks at. -/
def ReadAlikeIn (kind : RecordKind) (ms ns : List (Text × Json)) : Prop :=
  ∀ key form, (key, form) ∈ kind.readMembers →
    Option.Rel (ReadAlike form) (ms.lookup (Text.ofString key)) (ns.lookup (Text.ofString key))

namespace ReadAlikeIn

variable {kind : RecordKind} {form : Form} {key : String} {record : Text}
  {ms ns : List (Text × Json)}

theorem optional? (h : ReadAlikeIn kind ms ns) (hkey : (key, form) ∈ kind.readMembers) :
    Option.Rel (ShapedAlike form) (Json.optional? ms key) (Json.optional? ns key) := by
  unfold Json.optional?
  match ms.lookup (Text.ofString key), ns.lookup (Text.ofString key), h key form hkey with
  | _, _, .none => exact .none
  | some j, some k, .some hjk =>
    dsimp only
    rw [hjk.isNull_eq]
    split
    · exact .none
    · exact .some ⟨j, k, hjk, rfl, rfl⟩

theorem member? (h : ReadAlikeIn kind ms ns) (hkey : (key, form) ∈ kind.readMembers) :
    Option.Rel (ShapedAlike form) (Json.member? ms key) (Json.member? ns key) := by
  unfold Json.member?
  match ms.lookup (Text.ofString key), ns.lookup (Text.ofString key), h key form hkey with
  | _, _, .none => exact .none
  | some j, some k, .some hjk => exact .some ⟨j, k, hjk, rfl, rfl⟩

theorem require (h : ReadAlikeIn kind ms ns) (hkey : (key, form) ∈ kind.readMembers) :
    EndAlike (ShapedAlike form) (Json.require ms key record) (Json.require ns key record) := by
  unfold Json.require requireMember
  match ms.lookup (Text.ofString key), ns.lookup (Text.ofString key), h key form hkey with
  | _, _, .none => exact .faults
  | some j, some k, .some hjk =>
    dsimp only
    rw [hjk.isNull_eq]
    split
    · exact .faults
    · exact .values ⟨j, k, hjk, rfl, rfl⟩

/-- A member that has to be there is read as the same value, and the reader goes on from there. -/
theorem read {α β γ : Type} {R : β → γ → Prop} {reader : Shape Json → Except Fault α}
    {f : α → Except Fault β} {g : α → Except Fault γ} (h : ReadAlikeIn kind ms ns)
    (hkey : (key, form) ∈ kind.readMembers)
    (hreader : ∀ {s s'}, ShapedAlike form s s' → EndAlike Eq (reader s) (reader s'))
    (hrest : ∀ a, EndAlike R (f a) (g a)) :
    EndAlike R (Json.require ms key record >>= fun s => reader s >>= f)
      (Json.require ns key record >>= fun s => reader s >>= g) :=
  (h.require hkey).bind fun _ _ hs => (hreader hs).bind_same hrest

/-- So is a member that may be missing. -/
theorem readOptional {α : Type} {reader : Shape Json → Except Fault α} {default : Except Fault α}
    (h : ReadAlikeIn kind ms ns) (hkey : (key, form) ∈ kind.readMembers)
    (hreader : ∀ {s s'}, ShapedAlike form s s' → EndAlike Eq (reader s) (reader s')) :
    EndAlike Eq (match Json.optional? ms key with | some s => reader s | none => default)
      (match Json.optional? ns key with | some s => reader s | none => default) :=
  match Json.optional? ms key, Json.optional? ns key, h.optional? hkey with
  | _, _, .none => .refl _
  | _, _, .some hs => hreader hs

end ReadAlikeIn

/-- A part that may be missing is read, or a default is taken, before the reader goes on. -/
theorem EndAlike.bind_option {α β γ δ : Type} {form : Form} {R : α → β → Prop} {S : γ → δ → Prop}
    {o o' : Option (Shape Json)} {read : Shape Json → Except Fault α}
    {read' : Shape Json → Except Fault β} {x : Except Fault α} {y : Except Fault β}
    {f : α → Except Fault γ} {g : β → Except Fault δ}
    (hsome : ∀ s s', ShapedAlike form s s' → EndAlike R (read s) (read' s'))
    (hnone : EndAlike R x y) (hrest : ∀ a b, R a b → EndAlike S (f a) (g b)) :
    Option.Rel (ShapedAlike form) o o' →
      EndAlike S (match o with | some s => read s >>= f | none => x >>= f)
        (match o' with | some s => read' s >>= g | none => y >>= g)
  | .none => hnone.bind hrest
  | .some hs => (hsome _ _ hs).bind hrest

/-! ## The readers -/

section Readers

variable {kind : RecordKind} {ms ns : List (Text × Json)}

theorem Header.ofMembers_alike (h : ReadAlikeIn .header ms ns) :
    EndAlike Eq (ofMembers ms) (ofMembers ns) := by
  unfold ofMembers fixedOrZero
  iterate 7 refine h.read (by decide) ShapedAlike.asFixed fun _ => ?_
  iterate 5 refine h.read (by decide) ShapedAlike.asWord fun _ => ?_
  refine h.read (by decide) ShapedAlike.asBytes fun _ => ?_
  iterate 2 refine (h.readOptional (by decide) ShapedAlike.asFixed).bind_same fun _ => ?_
  exact .refl _

theorem Transaction.ofMembers_alike (h : ReadAlikeIn .transaction ms ns) :
    EndAlike Eq (ofMembers ms) (ofMembers ns) := by
  unfold ofMembers addressMember?
  iterate 3 refine h.read (by decide) ShapedAlike.asWord fun _ => ?_
  refine (h.readOptional (by decide) ShapedAlike.asAddress?).bind_same fun _ => ?_
  refine h.read (by decide) ShapedAlike.asWord fun _ => ?_
  refine h.read (by decide) ShapedAlike.asBytes fun _ => ?_
  iterate 3 refine h.read (by decide) ShapedAlike.asWord fun _ => ?_
  exact .refl _

theorem Log.ofMembers_alike (h : ReadAlikeIn .log ms ns) :
    EndAlike Eq (ofMembers ms) (ofMembers ns) := by
  have htopics : ("topics", Form.list .hex) ∈ RecordKind.log.readMembers := by decide
  have hremoved : ("removed", Form.flag) ∈ RecordKind.log.readMembers := by decide
  unfold ofMembers wordMember hashMember
  -- the topics may differ in spelling until they are read, the flag may not
  refine (h.require htopics).bind fun _ _ hs => hs.asArray.bind fun ts us hlists => ?_
  dsimp only
  refine EndAlike.bind_option (fun _ _ hs => hs.asBool) (.refl _) ?_ (h.member? hremoved)
  rintro removed _ rfl
  refine h.read (by decide) ShapedAlike.asFixed fun address => ?_
  refine (EndAlike.mapM (fun t u htu => ?_) hlists).bind_same fun topics => ?_
  · exact ShapedAlike.asFixed ⟨t, u, htu, rfl, rfl⟩
  refine h.read (by decide) ShapedAlike.asBytes fun data => ?_
  refine (h.readOptional (by decide) ShapedAlike.asWord).bind_same fun blockNumber => ?_
  refine (h.readOptional (by decide) ShapedAlike.asFixed).bind_same fun transactionHash => ?_
  refine (h.readOptional (by decide) ShapedAlike.asWord).bind_same fun transactionIndex => ?_
  refine (h.readOptional (by decide) ShapedAlike.asFixed).bind_same fun blockHash => ?_
  refine (h.readOptional (by decide) ShapedAlike.asWord).bind_same fun index => ?_
  exact .refl _

/-- Documents that are read alike as records of some kind are read alike by the reader of it. -/
theorem ReadAlike.of_map {α : Type} {wrap : α → Record} {read : Json → Except Fault α}
    {j k : Json} (hwrap : Function.Injective wrap)
    (hread : ∀ j, Record.ofJson kind j = (read j).map wrap) (hkind : kind.isWire = true)
    (h : ReadAlike (.object kind) j k) : EndAlike Eq (read j) (read k) := by
  have hrecords := endAlike_eq_iff.mpr (h.2 hkind)
  rw [hread, hread] at hrecords
  exact hrecords.of_map hwrap

theorem Block.ofMembers_alike (h : ReadAlikeIn .block ms ns) :
    EndAlike Eq (ofMembers ms) (ofMembers ns) := by
  have htransactions :
      ("transactions", Form.list (.object .transaction)) ∈ RecordKind.block.readMembers := by
    decide
  have huncles : ("uncles", Form.list (.object .header)) ∈ RecordKind.block.readMembers := by decide
  have hheader : ReadAlikeIn .header ms ns :=
    fun key form hkey => h key form (.tail _ (.tail _ hkey))
  unfold ofMembers
  -- both lists are taken, but not read, before the header is
  refine (h.require htransactions).bind fun _ _ hs => hs.asArray.bind fun ts us hlists => ?_
  dsimp only
  refine EndAlike.bind_option (fun _ _ hs => hs.asArray) (.values .nil) ?_ (h.member? huncles)
  intro hs is hheaders
  refine (Header.ofMembers_alike hheader).bind_same fun header => ?_
  refine (EndAlike.mapM (fun t u htu => ?_) hlists).bind_same fun transactions => ?_
  · exact htu.of_map (fun _ _ => Record.transaction.inj) (fun _ => rfl) rfl
  refine (EndAlike.mapM (fun t u htu => ?_) hheaders).bind_same fun uncles => ?_
  · exact htu.of_map (fun _ _ => Record.header.inj) (fun _ => rfl) rfl
  exact .refl _

theorem Receipt.rootMember_alike (h : ReadAlikeIn .receipt ms ns) :
    EndAlike Eq (rootMember ms) (rootMember ns) := by
  have hroot : ("root", Form.hex) ∈ RecordKind.receipt.readMembers := by decide
  unfold rootMember
  dsimp only
  refine EndAlike.bind_option (fun _ _ hs => hs.asBytes) (.refl _) ?_ (h.optional? hroot)
  rintro root _ rfl
  exact .refl _

theorem Receipt.statusMember_alike (h : ReadAlikeIn .receipt ms ns) (postState : Bytes) :
    EndAlike Eq (statusMember ms postState) (statusMember ns postState) := by
  have hstatus : ("status", Form.quantity) ∈ RecordKind.receipt.readMembers := by decide
  unfold statusMember
  match Json.optional? ms "status", Json.optional? ns "status", h.optional? hstatus with
  | _, _, .none => exact .refl _
  | _, _, .some hs => exact hs.asQuantity.bind_same fun _ => .refl _

theorem Receipt.ofMembers_alike (h : ReadAlikeIn .receipt ms ns) :
    EndAlike Eq (ofMembers ms) (ofMembers ns) := by
  have hlogs : ("logs", Form.list (.object .log)) ∈ RecordKind.receipt.readMembers := by decide
  have hcontract : ("contractAddress", Form.hex) ∈ RecordKind.receipt.readMembers := by decide
  unfold ofMembers
  refine (rootMember_alike h).bind_same fun postState => ?_
  refine (statusMember_alike h postState).bind_same fun status => ?_
  refine h.read (by decide) ShapedAlike.asWord fun cumulativeGasUsed => ?_
  refine h.read (by decide) ShapedAlike.asFixed fun bloom => ?_
  refine (h.require hlogs).bind fun _ _ hs => hs.asArray.bind fun ls is hlists => ?_
  refine (EndAlike.mapM (fun l i hli => ?_) hlists).bind_same fun logs => ?_
  · exact hli.of_map (fun _ _ => Record.log.inj) (fun _ => rfl) rfl
  refine h.read (by decide) ShapedAlike.asFixed fun transactionHash => ?_
  dsimp only
  refine EndAlike.bind_option (fun _ _ hs => hs.asAddress?) (.refl _) ?_ (h.optional? hcontract)
  rintro contractAddress _ rfl
  refine h.read (by decide) ShapedAlike.asWord fun gasUsed => ?_
  exact .refl _

end Readers

/-- Objects that are read alike in the members of a kind give the same record of it. -/
theorem ReadAlikeIn.readAlike {kind : RecordKind} {ms ns : List (Text × Json)}
    (h : ReadAlikeIn kind ms ns) : ReadAlike (.object kind) (.obj ms) (.obj ns) := by
  refine ⟨rfl, fun hkind => endAlike_eq_iff.mp ?_⟩
  cases kind with
  | header => exact (Header.ofMembers_alike h).map fun _ _ => congrArg _
  | transaction => exact (Transaction.ofMembers_alike h).map fun _ _ => congrArg _
  | block => exact (Block.ofMembers_alike h).map fun _ _ => congrArg _
  | log => exact (Log.ofMembers_alike h).map fun _ _ => congrArg _
  | receipt => exact (Receipt.ofMembers_alike h).map fun _ _ => congrArg _
  | newMessage => cases hkind
  | message => cases hkind
  | criteria => cases hkind

end EthWire
