import EthWire.Binary64.Basic
import EthWire.Fixed
import EthWire.Json.Basic
import EthWire.Word

/-!
# Whisper records

The messages that go to a node and come from one, and the filter for incoming
messages. They have a JSON form only, in which times and proofs of work are plain
numbers.
-/

namespace EthWire

/-- 0.2, the proof of work asked of an outgoing message. -/
def defaultPowTarget : Binary64 := Binary64.ofDecimal false 2 (-1)

/-- 50 seconds, the time that an outgoing message lives. -/
def defaultTtl : Word 32 := ⟨50, by decide⟩

/-- 5 seconds, the time to spend on the proof of work. -/
def defaultPowTime : Word 32 := ⟨5, by decide⟩

/-- An outgoing message. -/
structure NewMessage where
  symKeyId : Text := []
  publicKey : Bytes := []
  sig : Text := []
  ttl : Word 32 := defaultTtl
  topic : Topic := .zero
  payload : Bytes := []
  padding : Bytes := []
  powTime : Word 32 := defaultPowTime
  powTarget : Binary64 := defaultPowTarget
  targetPeer : Text := []
deriving DecidableEq

/-- An incoming message. -/
structure Message where
  sig : Bytes := []
  ttl : Word 32 := .zero
  timestamp : Word 32 := .zero
  topic : Topic := .zero
  payload : Bytes := []
  padding : Bytes := []
  pow : Binary64 := .zero
  hash : Bytes := []
  dst : Bytes := []
deriving DecidableEq

/-- A filter for incoming messages. -/
structure Criteria where
  symKeyId : Text := []
  privateKeyId : Text := []
  sig : Bytes := []
  minPow : Binary64 := .zero
  topics : List Topic := []
  allowP2P : Bool := false
deriving DecidableEq

namespace NewMessage

def toJson (m : NewMessage) : Json :=
  Json.object
    [("symKeyID", .str m.symKeyId),
     ("pubKey", .str (Bytes.hexMarked m.publicKey)),
     ("sig", .str m.sig),
     ("ttl", .int m.ttl.val),
     ("topic", .str m.topic.hex),
     ("payload", .str (Bytes.hexMarked m.payload)),
     ("padding", .str (Bytes.hexMarked m.padding)),
     ("powTime", .int m.powTime.val),
     ("powTarget", .float m.powTarget),
     ("targetPeer", .str m.targetPeer)]

/-- Whether two messages agree in every field. -/
def agrees (a b : NewMessage) : Bool :=
  a.symKeyId == b.symKeyId && a.publicKey == b.publicKey && a.sig == b.sig && a.ttl == b.ttl
    && a.topic == b.topic && a.payload == b.payload && a.padding == b.padding
    && a.powTime == b.powTime && a.powTarget.agrees b.powTarget && a.targetPeer == b.targetPeer

end NewMessage

namespace Message

/-- A member that is left out if its bytes are empty. -/
def optionalMember (key : String) (b : Bytes) : List (String × Json) :=
  if b.isEmpty then [] else [(key, .str (Bytes.hexMarked b))]

def toJson (m : Message) : Json :=
  Json.object
    ([("ttl", .int m.ttl.val),
      ("timestamp", .int m.timestamp.val),
      ("topic", .str m.topic.hex),
      ("payload", .str (Bytes.hexMarked m.payload)),
      ("padding", .str (Bytes.hexMarked m.padding)),
      ("pow", .float m.pow),
      ("hash", .str (Bytes.hexMarked m.hash))]
      ++ optionalMember "sig" m.sig ++ optionalMember "recipientPublicKey" m.dst)

/-- Whether two messages agree in every field. -/
def agrees (a b : Message) : Bool :=
  a.sig == b.sig && a.ttl == b.ttl && a.timestamp == b.timestamp && a.topic == b.topic
    && a.payload == b.payload && a.padding == b.padding && a.pow.agrees b.pow
    && a.hash == b.hash && a.dst == b.dst

end Message

namespace Criteria

def toJson (c : Criteria) : Json :=
  Json.object
    [("symKeyID", .str c.symKeyId),
     ("privateKeyID", .str c.privateKeyId),
     ("sig", .str (Bytes.hexMarked c.sig)),
     ("minPow", .float c.minPow),
     ("topics", .arr (c.topics.map fun t => .str t.hex)),
     ("allowP2P", .bool c.allowP2P)]

/-- Whether two filters agree in every field. -/
def agrees (a b : Criteria) : Bool :=
  a.symKeyId == b.symKeyId && a.privateKeyId == b.privateKeyId && a.sig == b.sig
    && a.minPow.agrees b.minPow && a.topics == b.topics && a.allowP2P == b.allowP2P

end Criteria

end EthWire
