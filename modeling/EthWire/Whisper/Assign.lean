import EthWire.Value.Argument
import EthWire.Whisper.Basic

/-!
# Changing whisper records

Outgoing messages and filters are built up field by field. An assignment checks and
normalises its value and changes nothing else; one that is refused changes nothing.
-/

namespace EthWire

namespace NewMessage

inductive Field
  | symKeyId
  | publicKey
  | sig
  | ttl
  | topic
  | payload
  | padding
  | powTime
  | powTarget
  | targetPeer
deriving DecidableEq, Repr

namespace Field

/-- The fields in the order in which a new message takes them. -/
def all : List Field :=
  [symKeyId, publicKey, sig, ttl, topic, payload, padding, powTime, powTarget, targetPeer]

def name : Field → Text
  | symKeyId => "sym_key_id"
  | publicKey => "public_key"
  | sig => "sig"
  | ttl => "ttl"
  | topic => "topic"
  | payload => "payload"
  | padding => "padding"
  | powTime => "pow_time"
  | powTarget => "pow_target"
  | targetPeer => "target_peer"

def ofName? (name : Text) : Option Field := all.find? fun f => f.name == name

end Field

/-- The message with one field changed. -/
def assign (m : NewMessage) (field : Field) (v : Value) : Except Fault NewMessage :=
  match field with
  | .symKeyId => (v.asText field.name).map fun x => { m with symKeyId := x }
  | .publicKey => (v.asBytes field.name).map fun x => { m with publicKey := x }
  | .sig => (v.asText field.name).map fun x => { m with sig := x }
  | .ttl => (v.asWord field.name).map fun x => { m with ttl := x }
  | .topic => (v.asTopic field.name).map fun x => { m with topic := x }
  | .payload => (v.asBytes field.name).map fun x => { m with payload := x }
  | .padding => (v.asBytes field.name).map fun x => { m with padding := x }
  | .powTime => (v.asWord field.name).map fun x => { m with powTime := x }
  | .powTarget => (v.asFloat field.name).map fun x => { m with powTarget := x }
  | .targetPeer => (v.asText field.name).map fun x => { m with targetPeer := x }

def build (args : Arguments) : Except Fault NewMessage := do
  args.checkNames (Field.all.map Field.name)
  Field.all.foldlM (fun m field =>
    match args.lookup field.name with
    | some v => m.assign field v
    | none => pure m) {}

end NewMessage

namespace Criteria

inductive Field
  | symKeyId
  | privateKeyId
  | sig
  | minPow
  | topics
  | allowP2P
deriving DecidableEq, Repr

namespace Field

/-- The fields in the order in which a new filter takes them. -/
def all : List Field := [symKeyId, privateKeyId, sig, minPow, topics, allowP2P]

def name : Field → Text
  | symKeyId => "sym_key_id"
  | privateKeyId => "private_key_id"
  | sig => "sig"
  | minPow => "min_pow"
  | topics => "topics"
  | allowP2P => "allow_p2p"

def ofName? (name : Text) : Option Field := all.find? fun f => f.name == name

end Field

/-- Topics in a list or a tuple. -/
def topicsArgument (v : Value) (name : Text) : Except Fault (List Topic) := do
  (← v.asSequence "topics" name).mapM fun t => t.asTopic name

/-- The filter with one field changed. -/
def assign (c : Criteria) (field : Field) (v : Value) : Except Fault Criteria :=
  match field with
  | .symKeyId => (v.asText field.name).map fun x => { c with symKeyId := x }
  | .privateKeyId => (v.asText field.name).map fun x => { c with privateKeyId := x }
  | .sig => (v.asBytes field.name).map fun x => { c with sig := x }
  | .minPow => (v.asFloat field.name).map fun x => { c with minPow := x }
  | .topics => (topicsArgument v field.name).map fun x => { c with topics := x }
  | .allowP2P => (v.asBool field.name).map fun x => { c with allowP2P := x }

def build (args : Arguments) : Except Fault Criteria := do
  args.checkNames (Field.all.map Field.name)
  Field.all.foldlM (fun c field =>
    match args.lookup field.name with
    | some v => c.assign field v
    | none => pure c) {}

/-- The filter for the topic of a byte string. -/
def forTopic (v : Value) : Except Fault Criteria :=
  (v.asBytes "topic").map fun b => { topics := [Topic.ofBytes b] }

end Criteria

namespace Message

def argumentNames : List Text :=
  ["sig", "ttl", "timestamp", "topic", "payload", "padding", "pow", "hash", "dst"]

def build (args : Arguments) : Except Fault Message := do
  let base : Message := {}
  args.checkNames argumentNames
  let sig ← args.get "sig" Value.asBytes base.sig
  let payload ← args.get "payload" Value.asBytes base.payload
  let padding ← args.get "padding" Value.asBytes base.padding
  let hash ← args.get "hash" Value.asBytes base.hash
  let dst ← args.get "dst" Value.asBytes base.dst
  let ttl ← args.get "ttl" Value.asWord base.ttl
  let timestamp ← args.get "timestamp" Value.asWord base.timestamp
  let topic ← args.get "topic" Value.asTopic base.topic
  let pow ← args.get "pow" Value.asFloat base.pow
  pure { sig, ttl, timestamp, topic, payload, padding, pow, hash, dst }

end Message

end EthWire
