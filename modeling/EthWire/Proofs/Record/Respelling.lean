import EthWire.Proofs.Json.LetterCase
import EthWire.Proofs.Record.Inspection
import Mathlib.Logic.Relation

/-!
# Respelled documents

What can be changed in the document of a record without changing the record: the order of the
members, the letter case of hexadecimal text, quantities given as integers, and whatever stands
under keys that are not read. Among these is the hash that a document gives for its record.
-/

namespace EthWire

open Text (SpellsQuantity MisspellsQuantity)

/-- One respelling in a value that is read in the given form, at any depth. -/
inductive Respelled : Form → Json → Json → Prop
  /-- Letters of hexadecimal text change their case, be it a digit or the mark. -/
  | letterCase {form : Form} {t u : Text} (hform : form = .hex ∨ form = .quantity)
      (h : t.lower = u.lower) : Respelled form (.str t) (.str u)
  /-- The text of a quantity gives way to the integer that it spells. -/
  | integer {t : Text} {n : Nat} (h : SpellsQuantity t n ∨ MisspellsQuantity t n) :
      Respelled .quantity (.str t) (.int n)
  /-- The members of an object change their places. -/
  | reorder {kind : RecordKind} {ms ns : List (Text × Json)} (hkeys : (ms.map Prod.fst).Nodup)
      (h : ms.Perm ns) : Respelled (.object kind) (.obj ms) (.obj ns)
  /-- A member that is not read comes, goes or changes. -/
  | unread {kind : RecordKind} {key : Text} {ms ns : List (Text × Json)}
      (hkey : key ∉ kind.readKeys)
      (h : (ms.filter fun m => m.1 ≠ key) = ns.filter fun m => m.1 ≠ key) :
      Respelled (.object kind) (.obj ms) (.obj ns)
  /-- A member that is read is respelled. -/
  | member {kind : RecordKind} {key : String} {form : Form} {before after : List (Text × Json)}
      {j k : Json} (hkey : (key, form) ∈ kind.readMembers) (h : Respelled form j k) :
      Respelled (.object kind) (.obj (before ++ (Text.ofString key, j) :: after))
        (.obj (before ++ (Text.ofString key, k) :: after))
  /-- An element of an array is respelled. -/
  | element {form : Form} {before after : List Json} {j k : Json} (h : Respelled form j k) :
      Respelled (.list form) (.arr (before ++ j :: after)) (.arr (before ++ k :: after))

/-! ## One respelling -/

section Step

variable {kind : RecordKind} {form : Form} {ms ns before after : List (Text × Json)}
  {key : String} {j k : Json}

theorem ReadAlikeIn.of_lookup_eq
    (h : ∀ key ∈ kind.readKeys, ms.lookup key = ns.lookup key) : ReadAlikeIn kind ms ns := by
  intro key form hkey
  rw [h (Text.ofString key) (List.mem_map.mpr ⟨(key, form), hkey, rfl⟩)]
  cases ns.lookup (Text.ofString key) with
  | none => exact .none
  | some j => exact .some (ReadAlike.refl form j)

/-- A key of a kind is read in one form. -/
theorem RecordKind.form_unique {f f' : Form} (h : (key, f) ∈ kind.readMembers)
    (h' : (key, f') ∈ kind.readMembers) : f = f' := by
  have hnodup : (kind.readMembers.map Prod.fst).Nodup := by cases kind <;> decide
  exact congrArg Prod.snd (List.inj_on_of_nodup_map hnodup h h' rfl)

theorem ReadAlikeIn.member (hkey : (key, form) ∈ kind.readMembers) (h : ReadAlike form j k) :
    ReadAlikeIn kind (before ++ (Text.ofString key, j) :: after)
      (before ++ (Text.ofString key, k) :: after) := by
  intro other form' hother
  rw [List.lookup_append, List.lookup_append]
  cases before.lookup (Text.ofString other) with
  | some i => exact .some (ReadAlike.refl form' i)
  | none =>
    rw [Option.none_or, Option.none_or, Json.lookup_ofString, Json.lookup_ofString]
    split
    next heq =>
      obtain rfl := heq
      obtain rfl := RecordKind.form_unique hkey hother
      exact .some h
    next =>
      cases after.lookup (Text.ofString other) with
      | none => exact .none
      | some i => exact .some (ReadAlike.refl form' i)

theorem ReadAlike.element {before after : List Json} (h : ReadAlike form j k) :
    ReadAlike (.list form) (.arr (before ++ j :: after)) (.arr (before ++ k :: after)) := by
  have hsame : ∀ js : List Json, List.Forall₂ (ReadAlike form) js js :=
    fun js => List.forall₂_same.mpr fun j _ => ReadAlike.refl form j
  exact .inr ⟨_, _, rfl, rfl, List.rel_append (hsame before) (.cons h (hsame after))⟩

theorem Respelled.readAlike (h : Respelled form j k) : ReadAlike form j k := by
  induction h with
  | letterCase hform h =>
    obtain rfl | rfl := hform
    · exact ⟨rfl, fun _ _ => Shape.asBytes_text_congr h⟩
    · exact ⟨rfl, fun _ _ _ => Shape.asQuantity_text_congr h⟩
  | integer h => exact ⟨rfl, fun _ _ _ => Shape.asQuantity_text_int h⟩
  | reorder hkeys h =>
    refine ReadAlikeIn.readAlike (ReadAlikeIn.of_lookup_eq fun key _ => ?_)
    exact Json.lookup_perm h hkeys key
  | unread hkey h =>
    refine ReadAlikeIn.readAlike (ReadAlikeIn.of_lookup_eq fun other hother => ?_)
    exact Json.lookup_congr_of_filter h fun heq => hkey (heq ▸ hother)
  | member hkey _ ih => exact ReadAlikeIn.readAlike (ReadAlikeIn.member hkey ih)
  | element _ ih => exact ih.element

end Step

/-! ## Any number of them -/

/-- The hash that is written for a record is not read back. -/
theorem RecordKind.hash_notMem_readKeys {kind : RecordKind} (hkind : kind.isWire = true) :
    Text.ofString "hash" ∉ kind.readKeys := by
  cases kind with
  | header | transaction | block | log | receipt => decide
  | newMessage | message | criteria => cases hkind

/-- Documents that differ by respellings, any number of them at any depth, are read as the same
record, with all that only a node knows, or both refused. The hash that a document gives for its
record, or for a transaction or an uncle inside it, is among the members that may hold anything.
The members that are read may not: an object is refused in the place of any. -/
theorem Record.ofJson_respelled {kind : RecordKind} (hkind : kind.isWire = true) {j k : Json}
    (h : Relation.ReflTransGen (Respelled (.object kind)) j k) :
    (∀ r, Record.ofJson kind j = .ok r ↔ Record.ofJson kind k = .ok r) ∧
    (∀ inner : RecordKind, inner.isWire = true → Text.ofString "hash" ∉ inner.readKeys) ∧
    (∀ key ∈ kind.readKeys, ∀ ms ns r, ms.lookup key = some (.obj ns) →
      Record.ofJson kind (.obj ms) ≠ .ok r) := by
  refine ⟨fun r => ?_, fun _ => RecordKind.hash_notMem_readKeys,
    fun key hkey ms ns r hlookup => ofJson_object_of_readKeys hkind hkey hlookup r⟩
  induction h with
  | refl => rfl
  | tail _ hstep ih => exact ih.trans (hstep.readAlike.2 hkind r)

/-- A transaction is the same with its gas as an integer, its data in capitals, its members in
another order and something in the place of its hash. -/
theorem Record.ofJson_respelled_transaction :
    let texts := fun members : List (String × String) =>
      members.map fun (key, value) => (Text.ofString key, Json.ofString value)
    let front := fun (gas : Json) (input : String) => (Text.ofString "gas", gas) ::
      texts [("input", input), ("nonce", "0x1"), ("gasPrice", "0xa"), ("value", "0x0")]
    let back := texts [("v", "0x1b"), ("r", "0x1"), ("s", "0x2")]
    let j := Json.obj (front (.ofString "0x5208") "0xabcd" ++ back)
    let k := Json.obj ((Text.ofString "hash", .bool true) :: back ++ front (.int 21000) "0XABcd")
    RecordKind.transaction.isWire = true ∧
    Relation.ReflTransGen (Respelled (.object .transaction)) j k ∧
    Record.ofJson .transaction k = .ok (.transaction
      { nonce := ⟨1, by decide⟩, gasPrice := ⟨10, by decide⟩, gas := ⟨21000, by decide⟩
        data := [0xab, 0xcd], v := ⟨27, by decide⟩, r := ⟨1, by decide⟩, s := ⟨2, by decide⟩ }) := by
  intro texts front back j k
  have hgas : SpellsQuantity (Text.ofString "0x5208") 21000 :=
    ⟨Text.ofString "5208", [5, 2, 0, 8], rfl, .inr ⟨by decide, by decide⟩,
      .cons rfl (.cons rfl (.cons rfl (.cons rfl .nil))), rfl⟩
  have hinteger : Respelled (.object .transaction) j
      (.obj (front (.int 21000) "0xabcd" ++ back)) :=
    @Respelled.member .transaction "gas" .quantity [] _ _ _ (by decide) (.integer (.inl hgas))
  have hcase : Respelled (.object .transaction) (.obj (front (.int 21000) "0xabcd" ++ back))
      (.obj (front (.int 21000) "0XABcd" ++ back)) :=
    @Respelled.member .transaction "input" .hex [_] _ _ _
      (by decide) (.letterCase (.inl rfl) (by decide))
  have horder : Respelled (.object .transaction) (.obj (front (.int 21000) "0XABcd" ++ back))
      (.obj (back ++ front (.int 21000) "0XABcd")) :=
    .reorder (by decide) List.perm_append_comm
  have hhash : Respelled (.object .transaction) (.obj (back ++ front (.int 21000) "0XABcd")) k :=
    @Respelled.unread .transaction (Text.ofString "hash") _ _ (by decide) rfl
  have hsteps : Relation.ReflTransGen (Respelled (.object .transaction)) j k :=
    .head hinteger (.head hcase (.head horder (.single hhash)))
  exact ⟨rfl, hsteps, ((Record.ofJson_respelled rfl hsteps).1 _).mp rfl⟩

end EthWire
