import EthWire.Proofs.Json.Decimal
import EthWire.Proofs.Json.Surrogate
import EthWire.Proofs.Record.JsonRoundTrip

/-!
# Whisper records and their JSON text

A record comes back from its document with every field, but for what the text of a document cannot
tell apart: two surrogates from the code point that they stand for, and one NaN from another.
-/

namespace EthWire

open Json (Legible Layout arranged)

/-- The number as documents spell it: there is one NaN. -/
def Binary64.spelled : Binary64 → Binary64
  | .nan _ => .nan true
  | x => x

/-- A number that a field for a proof of work can hold. -/
structure Binary64.IsWork (x : Binary64) : Prop where
  canonical : x.Canonical
  notNegative : x.isNegative = false

namespace Json

theorem writeFloat_spelled (x : Binary64) : writeFloat x.spelled = writeFloat x := by
  cases x with
  | nan shared => rfl
  | infinite negative => rfl
  | finite negative m e => rfl

end Json

namespace Binary64

variable {x : Binary64}

theorem IsWork.legible_spelled {levels : Nat} (h : x.IsWork) :
    Legible levels (.float x.spelled) := by
  cases x with
  | nan shared => exact .float (Json.reads_writeFloat trivial nofun)
  | infinite negative => exact .float (Json.reads_writeFloat h.canonical nofun)
  | finite negative m e => exact .float (Json.reads_writeFloat h.canonical nofun)

theorem IsWork.isNegative_spelled (h : x.IsWork) : x.spelled.isNegative = false := by
  cases x with
  | nan shared => rfl
  | infinite negative => exact h.notNegative
  | finite negative m e => exact h.notNegative

/-- A number counts as the one that is read for it, unless it is a NaN from elsewhere. -/
theorem agrees_spelled_iff (x : Binary64) : x.spelled.agrees x = true ↔ x ≠ .nan false := by
  cases x with
  | nan shared =>
    cases shared with
    | false => decide
    | true => decide
  | infinite negative => simp [spelled, agrees]
  | finite negative m e => simp [spelled, agrees]

end Binary64

/-! ## Fields -/

theorem legible_word {levels : Nat} (w : Word 32) : Legible levels (.int w.val) :=
  Json.legible_int (Text.isWritten_of_lt_word (Nat.lt_trans w.val_lt (by decide)))

@[simp] theorem Word.ofNat?_val {bits : Nat} (w : Word bits) : Word.ofNat? w.val = some w :=
  Word.ofNat?_eq_some.mpr rfl

theorem Whisper.notNegative_eq_ok {name : Text} {x : Binary64} (h : x.isNegative = false) :
    notNegative name x = .ok x := by
  rw [notNegative, if_neg (by rw [h]; decide)]

/-! ## Messages to send -/

namespace NewMessage

/-- The message that is read back for one. -/
def settled (m : NewMessage) : NewMessage :=
  { m with
    symKeyId := m.symKeyId.joined
    sig := m.sig.joined
    powTarget := m.powTarget.spelled
    targetPeer := m.targetPeer.joined }

def jsonMembers (m : NewMessage) : List (String × Json) :=
  [("symKeyID", .str m.symKeyId),
   ("pubKey", .str (Bytes.hexMarked m.publicKey)),
   ("sig", .str m.sig),
   ("ttl", .int m.ttl.val),
   ("topic", .str m.topic.hex),
   ("payload", .str (Bytes.hexMarked m.payload)),
   ("padding", .str (Bytes.hexMarked m.padding)),
   ("powTime", .int m.powTime.val),
   ("powTarget", .float m.powTarget),
   ("targetPeer", .str m.targetPeer)]

theorem write_settled (m : NewMessage) (layout : Layout) :
    m.settled.toJson.write layout = m.toJson.write layout := by
  simp only [toJson, settled, Json.object, Json.write, Json.writeAt,
    Json.writeMembers, List.map_cons, List.map_nil, Json.writeString_joined,
    Json.writeFloat_spelled]

theorem legible_jsonMembers {levels : Nat} {m : NewMessage} (h : m.powTarget.IsWork) :
    LegibleMembers levels m.settled.jsonMembers where
  nodup := by
    simp only [jsonMembers, List.map_cons, List.map_nil]
    decide
  plain := by
    simp only [jsonMembers, List.forall_mem_cons]
    decide
  values := by
    have hstr : ∀ s : Text, Legible levels (.str s.joined) := fun s =>
      .str (Json.stringReads_joined s)
    simp [jsonMembers, settled, legible_hexMarked, legible_hex, legible_word, hstr,
      h.legible_spelled]

theorem ofMembers_congr {ms ns : List (Text × Json)} (h : ∀ key, ms.lookup key = ns.lookup key) :
    ofMembers ms = ofMembers ns := by
  simp only [ofMembers, Whisper.textMember, Whisper.bytesMember, Whisper.word32Member,
    Whisper.floatMember, Json.optional?_congr h, Json.member?_congr h]

theorem ofMembers_listed (layout : Layout) {m : NewMessage} (h : m.powTarget.isNegative = false) :
    ofMembers (listed layout m.jsonMembers) = .ok m := by
  have hnat : ∀ n : Nat, ¬(n : Int) < 0 := fun n => Int.not_lt.mpr (Int.natCast_nonneg n)
  simp [ofMembers, Whisper.textMember, Whisper.bytesMember, Whisper.word32Member,
    Whisper.floatMember, Whisper.notNegative_eq_ok h, listed, jsonMembers, Json.optional?,
    Json.member?, Json.isNull, Json.shape, hnat]

theorem ofJson_arranged (layout : Layout) {m : NewMessage} (h : m.powTarget.IsWork) :
    NewMessage.ofJson (arranged layout m.settled.toJson) = .ok m.settled := by
  have hread := @ofMembers_listed layout m.settled h.isNegative_spelled
  exact (@legible_jsonMembers 0 m h).readObject (fun _ _ => ofMembers_congr) hread

theorem decodeJson_write {m : NewMessage} (h : m.powTarget.IsWork) (layout : Layout) :
    decodeJson (m.toJson.write layout) = .ok m.settled := by
  rw [← write_settled]
  exact decodeJson_eq_ok (legible_jsonMembers h).legible (ofJson_arranged layout h)

end NewMessage

/-! ## Messages that came in -/

namespace Message

/-- The message that is read back for one. -/
def settled (m : Message) : Message := { m with pow := m.pow.spelled }

def jsonMembers (m : Message) : List (String × Json) :=
  [("ttl", .int m.ttl.val),
   ("timestamp", .int m.timestamp.val),
   ("topic", .str m.topic.hex),
   ("payload", .str (Bytes.hexMarked m.payload)),
   ("padding", .str (Bytes.hexMarked m.padding)),
   ("pow", .float m.pow),
   ("hash", .str (Bytes.hexMarked m.hash))]
    ++ optionalMember "sig" m.sig ++ optionalMember "recipientPublicKey" m.dst

theorem write_settled (m : Message) (layout : Layout) :
    m.settled.toJson.write layout = m.toJson.write layout := by
  cases hsig : m.sig <;> cases hdst : m.dst
  all_goals
    simp only [toJson, settled, optionalMember, hsig, hdst,
      List.isEmpty_nil, List.isEmpty_cons, if_true, Bool.false_eq_true, if_false, List.append_nil,
      List.cons_append, List.nil_append, Json.object, Json.write, Json.writeAt, Json.writeMembers,
      List.map_cons, List.map_nil, Json.writeFloat_spelled]

theorem legible_jsonMembers {levels : Nat} {m : Message} (h : m.pow.IsWork) :
    LegibleMembers levels m.settled.jsonMembers where
  nodup := by
    unfold jsonMembers optionalMember
    split <;> split
    all_goals
      simp only [List.append_nil, List.cons_append, List.nil_append, List.map_cons, List.map_nil]
      decide
  plain := by
    unfold jsonMembers optionalMember
    split <;> split
    all_goals
      simp only [List.append_nil, List.cons_append, List.nil_append, List.forall_mem_cons]
      decide
  values := by
    unfold jsonMembers optionalMember
    split <;> split
    all_goals simp [settled, legible_hexMarked, legible_hex, legible_word, h.legible_spelled]

theorem ofMembers_congr {ms ns : List (Text × Json)} (h : ∀ key, ms.lookup key = ns.lookup key) :
    ofMembers ms = ofMembers ns := by
  simp only [ofMembers, Whisper.bytesMember, Whisper.word32Member, Whisper.floatMember,
    Json.require_congr h, Json.optional?_congr h, Json.member?_congr h]

theorem ofMembers_listed (layout : Layout) {m : Message} (h : m.pow.isNegative = false) :
    ofMembers (listed layout m.jsonMembers) = .ok m := by
  have hnat : ∀ n : Nat, ¬(n : Int) < 0 := fun n => Int.not_lt.mpr (Int.natCast_nonneg n)
  obtain ⟨sig, ttl, timestamp, topic, payload, padding, pow, hash, dst⟩ := m
  -- the two keys are there or not, and their bytes are empty where they are not
  cases sig <;> cases dst
  all_goals
    simp [ofMembers, Whisper.bytesMember, Whisper.word32Member, Whisper.floatMember,
      Whisper.notNegative_eq_ok h, listed, jsonMembers, optionalMember, Json.require,
      requireMember, Json.optional?, Json.member?, Json.isNull, Json.shape, hnat]

theorem ofJson_arranged (layout : Layout) {m : Message} (h : m.pow.IsWork) :
    Message.ofJson (arranged layout m.settled.toJson) = .ok m.settled := by
  have hread := @ofMembers_listed layout m.settled h.isNegative_spelled
  exact (@legible_jsonMembers 0 m h).readObject (fun _ _ => ofMembers_congr) hread

theorem decodeJson_write {m : Message} (h : m.pow.IsWork) (layout : Layout) :
    decodeJson (m.toJson.write layout) = .ok m.settled := by
  rw [← write_settled]
  exact decodeJson_eq_ok (legible_jsonMembers h).legible (ofJson_arranged layout h)

end Message

/-! ## Filters -/

namespace Criteria

/-- The filter that is read back for one. -/
def settled (c : Criteria) : Criteria :=
  { c with
    symKeyId := c.symKeyId.joined
    privateKeyId := c.privateKeyId.joined
    minPow := c.minPow.spelled }

def jsonMembers (c : Criteria) : List (String × Json) :=
  [("symKeyID", .str c.symKeyId),
   ("privateKeyID", .str c.privateKeyId),
   ("sig", .str (Bytes.hexMarked c.sig)),
   ("minPow", .float c.minPow),
   ("topics", .arr (c.topics.map fun t => .str t.hex)),
   ("allowP2P", .bool c.allowP2P)]

theorem write_settled (c : Criteria) (layout : Layout) :
    c.settled.toJson.write layout = c.toJson.write layout := by
  simp only [toJson, settled, Json.object, Json.write, Json.writeAt,
    Json.writeMembers, List.map_cons, List.map_nil, Json.writeString_joined,
    Json.writeFloat_spelled]

theorem legible_jsonMembers {levels : Nat} {c : Criteria} (h : c.minPow.IsWork) :
    LegibleMembers (levels + 1) c.settled.jsonMembers where
  nodup := by
    simp only [jsonMembers, List.map_cons, List.map_nil]
    decide
  plain := by
    simp only [jsonMembers, List.forall_mem_cons]
    decide
  values := by
    have hstr : ∀ s : Text, Legible (levels + 1) (.str s.joined) := fun s =>
      .str (Json.stringReads_joined s)
    have htopics : Legible (levels + 1) (.arr (c.topics.map fun t => .str t.hex)) :=
      legible_arr_map fun t => legible_hex t
    simp [jsonMembers, settled, legible_hexMarked, htopics, hstr, h.legible_spelled, Legible.bool]

theorem ofMembers_congr {ms ns : List (Text × Json)} (h : ∀ key, ms.lookup key = ns.lookup key) :
    ofMembers ms = ofMembers ns := by
  simp only [ofMembers, Whisper.textMember, Whisper.bytesMember, Whisper.floatMember,
    Json.optional?_congr h, Json.member?_congr h]

theorem ofMembers_listed (layout : Layout) {c : Criteria} (h : c.minPow.isNegative = false) :
    ofMembers (listed layout c.jsonMembers) = .ok c := by
  simp [ofMembers, Whisper.textMember, Whisper.bytesMember, Whisper.floatMember,
    Whisper.notNegative_eq_ok h, listed, jsonMembers, Json.optional?, Json.member?, Json.isNull,
    Json.shape, Shape.asArray, Shape.asBool, Function.comp_def]

theorem ofJson_arranged (layout : Layout) {c : Criteria} (h : c.minPow.IsWork) :
    Criteria.ofJson (arranged layout c.settled.toJson) = .ok c.settled := by
  have hread := @ofMembers_listed layout c.settled h.isNegative_spelled
  exact (@legible_jsonMembers 0 c h).readObject (fun _ _ => ofMembers_congr) hread

theorem decodeJson_write {c : Criteria} (h : c.minPow.IsWork) (layout : Layout) :
    decodeJson (c.toJson.write layout) = .ok c.settled := by
  rw [← write_settled]
  exact decodeJson_eq_ok (legible_jsonMembers h).legible (ofJson_arranged layout h)

end Criteria

end EthWire
