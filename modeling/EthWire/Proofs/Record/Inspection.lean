import EthWire.Proofs.Record.Reading

/-!
# Every listed member is read

No value of a member that a record reads may be an object. So a reader that has looked at a member
refuses an object there, and this tells that it has: the lists of members name none in vain.
-/

namespace EthWire

/-- An object in the place of any of the members makes the run fail. -/
def Inspects {α : Type} (members : List (String × Form)) (ms : List (Text × Json))
    (x : Except Fault α) : Prop :=
  ∀ m ∈ members, ∀ ns, ms.lookup (Text.ofString m.1) = some (.obj ns) → ∃ e, x = .error e

/-- A reader of values that takes no object. -/
def RefusesObjects {α : Type} (reader : Shape Json → Except Fault α) : Prop :=
  ∀ ns, ∃ e, reader (.object ns) = .error e

namespace RefusesObjects

variable {field : Text} {bits : Nat} {width : FixedKind}

theorem asBytes : RefusesObjects fun s => s.asBytes field := fun _ => ⟨_, rfl⟩

theorem asFixed : RefusesObjects fun s => (s.asFixed field : Except Fault (Fixed width)) :=
  fun _ => ⟨_, rfl⟩

theorem asAddress? :
    RefusesObjects fun s => (s.asFixed field : Except Fault (Fixed width)).map some :=
  fun _ => ⟨_, rfl⟩

theorem asWord : RefusesObjects fun s => (s.asWord field : Except Fault (Word bits)) :=
  fun _ => ⟨_, rfl⟩

theorem asArray : RefusesObjects fun s => s.asArray field := fun _ => ⟨_, rfl⟩

theorem asBool : RefusesObjects fun s => s.asBool field := fun _ => ⟨_, rfl⟩

end RefusesObjects

namespace Inspects

variable {α β : Type} {members more : List (String × Form)} {m : String × Form} {key : String}
  {form : Form} {record : Text} {ms : List (Text × Json)}

theorem nil (x : Except Fault α) : Inspects [] ms x := by
  intro m hm
  cases hm

theorem of_first {x : Except Fault α} {f : α → Except Fault β} (hx : Inspects members ms x) :
    Inspects members ms (x >>= f) := by
  intro m hm ns hlookup
  obtain ⟨e, rfl⟩ := hx m hm ns hlookup
  exact ⟨e, rfl⟩

theorem map {x : Except Fault α} {f : α → β} (hx : Inspects members ms x) :
    Inspects members ms (x.map f) := by
  intro m hm ns hlookup
  obtain ⟨e, rfl⟩ := hx m hm ns hlookup
  exact ⟨e, rfl⟩

theorem of_rest {x : Except Fault α} {f : α → Except Fault β}
    (hrest : ∀ a, Inspects members ms (f a)) : Inspects members ms (x >>= f) := by
  intro m hm ns hlookup
  cases x with
  | error e => exact ⟨e, rfl⟩
  | ok a => exact hrest a m hm ns hlookup

theorem cons {x : Except Fault α} (hx : Inspects [m] ms x) (hmore : Inspects more ms x) :
    Inspects (m :: more) ms x := by
  intro n hn
  rcases List.mem_cons.mp hn with rfl | hn
  · exact hx n (List.mem_singleton_self n)
  · exact hmore n hn

theorem bind {x : Except Fault α} {f : α → Except Fault β} (hx : Inspects [m] ms x)
    (hrest : ∀ a, Inspects more ms (f a)) : Inspects (m :: more) ms (x >>= f) :=
  hx.of_first.cons (of_rest hrest)

/-- A member that is found to be an object stops the run at once. -/
theorem single {x : Except Fault α}
    (h : ∀ ns, ms.lookup (Text.ofString key) = some (.obj ns) → ∃ e, x = .error e) :
    Inspects [(key, form)] ms x := by
  intro m hm
  obtain rfl := List.mem_singleton.mp hm
  exact h

theorem read {reader : Shape Json → Except Fault α} {f : α → Except Fault β}
    (hreader : RefusesObjects reader) (hrest : ∀ a, Inspects more ms (f a)) :
    Inspects ((key, form) :: more) ms
      (Json.require ms key record >>= fun s => reader s >>= f) := by
  refine cons (single fun ns hlookup => ?_) (of_rest fun s => of_rest hrest)
  have hrequire : Json.require ms key record = .ok (.object ns) := by
    rw [Json.require, requireMember, hlookup]
    rfl
  obtain ⟨e, he⟩ := hreader ns
  exact ⟨e, by rw [hrequire, ok_bind, he, error_bind]⟩

theorem optional?_eq {ns : List (Text × Json)}
    (h : ms.lookup (Text.ofString key) = some (.obj ns)) :
    Json.optional? ms key = some (.object ns) := by
  rw [Json.optional?, h]
  rfl

theorem member?_eq {ns : List (Text × Json)}
    (h : ms.lookup (Text.ofString key) = some (.obj ns)) :
    Json.member? ms key = some (.object ns) := by
  rw [Json.member?, h]
  rfl

theorem readOptional {reader : Shape Json → Except Fault α} {default : Except Fault α}
    (hreader : RefusesObjects reader) :
    Inspects [(key, form)] ms
      (match Json.optional? ms key with | some s => reader s | none => default) := by
  refine single fun ns hlookup => ?_
  rw [optional?_eq hlookup]
  exact hreader ns

/-- A member that may be missing is inspected before the reader goes on. -/
theorem bind_option {o : Option (Shape Json)} {reader : Shape Json → Except Fault α}
    {x : Except Fault α} {f : α → Except Fault β}
    (ho : ∀ ns, ms.lookup (Text.ofString key) = some (.obj ns) → o = some (.object ns))
    (hreader : RefusesObjects reader) (hrest : ∀ a, Inspects more ms (f a)) :
    Inspects ((key, form) :: more) ms
      (match o with | some s => reader s >>= f | none => x >>= f) := by
  refine cons (single fun ns hlookup => ?_) ?_
  · obtain ⟨e, he⟩ := hreader ns
    rw [ho ns hlookup]
    dsimp only
    exact ⟨e, by rw [he, error_bind]⟩
  · cases o with
    | none => exact of_rest hrest
    | some s => exact of_rest hrest

end Inspects

/-! ## The readers -/

section Readers

variable {form : Form} {ms : List (Text × Json)}

theorem Header.ofMembers_inspects : Inspects readMembers ms (ofMembers ms) := by
  unfold ofMembers fixedOrZero
  iterate 7 refine .read .asFixed fun _ => ?_
  iterate 5 refine .read .asWord fun _ => ?_
  refine .read .asBytes fun _ => ?_
  iterate 2 refine .bind (.readOptional .asFixed) fun _ => ?_
  exact .nil _

theorem Transaction.ofMembers_inspects : Inspects readMembers ms (ofMembers ms) := by
  unfold ofMembers addressMember?
  iterate 3 refine .read .asWord fun _ => ?_
  refine .bind (.readOptional .asAddress?) fun _ => ?_
  refine .read .asWord fun _ => ?_
  refine .read .asBytes fun _ => ?_
  iterate 3 refine .read .asWord fun _ => ?_
  exact .nil _

theorem Block.ofMembers_inspects : Inspects readMembers ms (ofMembers ms) := by
  unfold ofMembers
  refine .read .asArray fun transactions => ?_
  dsimp only
  refine .bind_option (fun _ => Inspects.member?_eq) .asArray fun uncles => ?_
  exact Header.ofMembers_inspects.of_first

theorem Log.ofMembers_inspects : Inspects readMembers ms (ofMembers ms) := by
  unfold ofMembers wordMember hashMember
  refine .read .asArray fun topicTexts => ?_
  dsimp only
  refine .bind_option (fun _ => Inspects.member?_eq) .asBool fun removed => ?_
  refine .read .asFixed fun address => .of_rest fun topics => ?_
  refine .read .asBytes fun data => ?_
  refine .bind (.readOptional .asWord) fun blockNumber => ?_
  refine .bind (.readOptional .asFixed) fun transactionHash => ?_
  refine .bind (.readOptional .asWord) fun transactionIndex => ?_
  refine .bind (.readOptional .asFixed) fun blockHash => ?_
  refine .bind (.readOptional .asWord) fun index => ?_
  exact .nil _

theorem Receipt.rootMember_inspects : Inspects [("root", form)] ms (rootMember ms) := by
  unfold rootMember
  dsimp only
  exact .bind_option (fun _ => Inspects.optional?_eq) .asBytes fun _ => .nil _

theorem Receipt.statusMember_inspects {postState : Bytes} :
    Inspects [("status", form)] ms (statusMember ms postState) := by
  refine .single fun ns hlookup => ?_
  rw [statusMember, Inspects.optional?_eq hlookup]
  exact ⟨_, rfl⟩

theorem Receipt.ofMembers_inspects : Inspects readMembers ms (ofMembers ms) := by
  unfold ofMembers
  refine .bind rootMember_inspects fun postState => ?_
  refine .bind statusMember_inspects fun status => ?_
  refine .read .asWord fun cumulativeGasUsed => ?_
  refine .read .asFixed fun bloom => ?_
  refine .read .asArray fun logs => .of_rest fun logs => ?_
  refine .read .asFixed fun transactionHash => ?_
  dsimp only
  refine .bind_option (fun _ => Inspects.optional?_eq) .asAddress? fun contractAddress => ?_
  refine .read .asWord fun gasUsed => ?_
  exact .nil _

end Readers

/-- The reader of a kind refuses an object under each of the keys that it reads. -/
theorem Record.ofJson_inspects {kind : RecordKind} (hkind : kind.isWire = true)
    (ms : List (Text × Json)) : Inspects kind.readMembers ms (Record.ofJson kind (.obj ms)) := by
  cases kind with
  | header => exact Header.ofMembers_inspects.map
  | transaction => exact Transaction.ofMembers_inspects.map
  | block => exact Block.ofMembers_inspects.map
  | log => exact Log.ofMembers_inspects.map
  | receipt => exact Receipt.ofMembers_inspects.map
  | newMessage => cases hkind
  | message => cases hkind
  | criteria => cases hkind

theorem Record.ofJson_object_of_readKeys {kind : RecordKind} (hkind : kind.isWire = true)
    {key : Text} (hkey : key ∈ kind.readKeys) {ms ns : List (Text × Json)}
    (hlookup : ms.lookup key = some (.obj ns)) (r : Record) :
    Record.ofJson kind (.obj ms) ≠ .ok r := by
  obtain ⟨m, hm, rfl⟩ := List.mem_map.mp hkey
  obtain ⟨e, he⟩ := Record.ofJson_inspects hkind ms m hm ns hlookup
  intro hok
  rw [he] at hok
  cases hok

end EthWire
