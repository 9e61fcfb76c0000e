import EthWire.Binary64.Shortest
import EthWire.Json.Field
import EthWire.Whisper.Basic

/-!
# Reading whisper records
-/

namespace EthWire

namespace Whisper

/-- A text, empty where it is missing or null. -/
def textMember (members : List (Text × Json)) (key : String) : Except Fault Text :=
  match Json.optional? members key with
  | none => .ok []
  | some (.text t) => .ok t
  | some s => .error (jsonFault key (.wrongType "string" s.typeName))

/-- A byte string, empty where it is missing or null. -/
def bytesMember (members : List (Text × Json)) (key : String) : Except Fault Bytes :=
  match Json.optional? members key with
  | none => .ok []
  | some s => s.asBytes key

/-- A plain integer that fits 32 bits, `default` where it is missing. -/
def word32Member (members : List (Text × Json)) (key : String) (default : Word 32) :
    Except Fault (Word 32) :=
  match Json.member? members key with
  | none => .ok default
  | some (.int n) =>
      match if n < 0 then none else Word.ofNat? n.toNat with
      | some w => .ok w
      | none => .error (jsonFault key (.word32Range n))
  | some s => .error (jsonFault key (.wrongType "integer" s.typeName))

/-- A plain number, `default` where it is missing. -/
def floatMember (members : List (Text × Json)) (key : String) (default : Binary64) :
    Except Fault Binary64 :=
  match Json.member? members key with
  | none => .ok default
  | some (.float x) => .ok x
  | some (.int n) =>
      match Binary64.ofInt? n with
      | some x => .ok x
      | none => .error (.misuse .overflow)
  | some s => .error (jsonFault key (.wrongType "number" s.typeName))

/-- A float that is not below zero. -/
def notNegative (name : Text) (x : Binary64) : Except Fault Binary64 :=
  if x.isNegative then .error (.argument name (.negative x.write)) else .ok x

end Whisper

open Whisper

namespace NewMessage

def ofMembers (members : List (Text × Json)) : Except Fault NewMessage := do
  let symKeyId ← textMember members "symKeyID"
  let publicKey ← bytesMember members "pubKey"
  let sig ← textMember members "sig"
  let ttl ← word32Member members "ttl" defaultTtl
  let topic ← match Json.optional? members "topic" with
    | some s => s.asFixed "topic"
    | none => .ok .zero
  let payload ← bytesMember members "payload"
  let padding ← bytesMember members "padding"
  let powTime ← word32Member members "powTime" defaultPowTime
  let powTarget ← floatMember members "powTarget" defaultPowTarget
  let targetPeer ← textMember members "targetPeer"
  let powTarget ← notNegative "pow_target" powTarget
  pure { symKeyId, publicKey, sig, ttl, topic, payload, padding, powTime, powTarget, targetPeer }

def ofJson (j : Json) : Except Fault NewMessage := do
  ofMembers (← j.shape.asObject "NewMessage")

end NewMessage

namespace Message

def ofMembers (members : List (Text × Json)) : Except Fault Message := do
  let sig ← bytesMember members "sig"
  let ttl ← word32Member members "ttl" .zero
  let timestamp ← word32Member members "timestamp" .zero
  let topic ← (← Json.require members "topic" "Message").asFixed "topic"
  let payload ← bytesMember members "payload"
  let padding ← bytesMember members "padding"
  let pow ← floatMember members "pow" .zero
  let hash ← bytesMember members "hash"
  let dst ← bytesMember members "recipientPublicKey"
  let pow ← notNegative "pow" pow
  pure { sig, ttl, timestamp, topic, payload, padding, pow, hash, dst }

def ofJson (j : Json) : Except Fault Message := do
  ofMembers (← j.shape.asObject "Message")

end Message

namespace Criteria

def ofMembers (members : List (Text × Json)) : Except Fault Criteria := do
  let topicTexts ← match Json.member? members "topics" with
    | some s => s.asArray "topics"
    | none => .ok []
  let topics ← topicTexts.mapM fun t => t.shape.asFixed "topics"
  let allowP2P ← match Json.member? members "allowP2P" with
    | some s => s.asBool "allowP2P"
    | none => .ok false
  let symKeyId ← textMember members "symKeyID"
  let privateKeyId ← textMember members "privateKeyID"
  let sig ← bytesMember members "sig"
  let minPow ← floatMember members "minPow" .zero
  let minPow ← notNegative "min_pow" minPow
  pure { symKeyId, privateKeyId, sig, minPow, topics, allowP2P }

def ofJson (j : Json) : Except Fault Criteria := do
  ofMembers (← j.shape.asObject "Criteria")

end Criteria

end EthWire
