import EthWire.Proofs.Json.Extension
import EthWire.Proofs.Whisper.Answer
import EthWire.Proofs.Whisper.RoundTrip

/-!
# Batches against single messages

A batch is an array of messages in one text. It is decoded as its entries are, each from a text of
its own: to the same messages in the same order, or to the report of the first entry that is
refused, under the name of the batch.
-/

namespace EthWire.Message

open Json (SpellsArray)
open Whisper (isAnswered)

variable {ts : List Text} {vs : List Json} {t text : Text} {v : Json} {m : Message} {f g : Fault}

/-- How an entry is decoded within a batch. -/
def decodeEntry (t : Text) : Except Fault Message := do
  Message.ofJson (← Json.parse t "Messages")

theorem decodeEntry_of_read (h : Json.read t = .ok v) : decodeEntry t = Message.ofJson v := by
  rw [decodeEntry, Json.parse, h]
  rfl

/-- Alone, an entry is reported under its own name. -/
theorem decodeJson_of_read (h : Json.read t = .ok v) : (decodeJson t : Except Fault Message)
    = (decodeEntry t).mapError (Fault.inRecord .json "Message") := by
  rw [decodeEntry_of_read h, decodeJson, Json.parse, h]
  rfl

theorem mapM_decodeEntry (h : List.Forall₂ (fun t v => Json.read t = .ok v) ts vs) :
    ts.mapM decodeEntry = vs.mapM Message.ofJson := by
  induction h with
  | nil => rfl
  | cons hread _ ih => rw [List.mapM_cons, List.mapM_cons, ih, decodeEntry_of_read hread]

/-- In a batch, the entries are reported under the name of the batch. -/
theorem decodeBatch_of_read (h : List.Forall₂ (fun t v => Json.read t = .ok v) ts vs)
    (hread : Json.read text = .ok (.arr vs)) :
    decodeBatch text
      = ((ts.mapM decodeEntry).mapError (Fault.inRecord .json "Messages")).map
          (Collection.mk .messages) := by
  rw [mapM_decodeEntry h, decodeBatch, Json.parse, hread]
  show ((vs.mapM Message.ofJson).mapError _ >>= _) = _
  cases vs.mapM Message.ofJson with
  | error f => rfl
  | ok ms => rfl

/-- A batch that is decoded as its entries are, each alone. -/
structure EntryByEntry (ts : List Text) (batch : Except Fault (Collection Message)) : Prop where
  /-- There is a collection if and only if every entry is a message. -/
  accepted : (∃ c, batch = .ok c) ↔ ∀ t ∈ ts, ∃ m : Message, decodeJson t = .ok m
  /-- The collection has the messages of the entries in their order. -/
  entries : ∀ c, batch = .ok c → c.kind = .messages ∧ c.size = ts.length ∧
    ∀ i (hi : i < ts.length), c.get i = decodeJson ts[i]
  /-- A malformed entry makes a malformed batch, unless one before it fails in another way. -/
  malformed : ∀ before t after, ts = before ++ t :: after →
    (∀ u ∈ before, isAnswered (decodeJson u : Except Fault Message) = true) →
    (∃ format field reason,
      (decodeJson t : Except Fault Message) = .error (.malformed format field reason)) →
    ∃ field reason, batch = .error (.malformed .json field reason)
  /-- Any other fault of the first entry that is no message is the fault of the batch. -/
  escaped : ∀ before t after f, ts = before ++ t :: after →
    (∀ u ∈ before, ∃ m : Message, decodeJson u = .ok m) →
    (decodeJson t : Except Fault Message) = .error f →
    isAnswered (.error f : Except Fault Message) = false → batch = .error f

section Batch

variable {ms : List Message}

/-- Entries that are JSON texts. -/
def Readable (ts : List Text) : Prop := ∀ t ∈ ts, ∃ v, Json.read t = .ok v

theorem decodeJson_eq (h : Readable ts) (ht : t ∈ ts) : (decodeJson t : Except Fault Message)
    = (decodeEntry t).mapError (Fault.inRecord .json "Message") := by
  obtain ⟨v, hv⟩ := h t ht
  exact decodeJson_of_read hv

theorem decodeJson_eq_ok_iff (h : Readable ts) (ht : t ∈ ts) :
    decodeJson t = .ok m ↔ decodeEntry t = .ok m := by
  rw [decodeJson_eq h ht, mapError_eq_ok]

theorem exists_decodeJson_iff (h : Readable ts) :
    (∀ t ∈ ts, ∃ m : Message, decodeJson t = .ok m) ↔ ∃ ms, ts.mapM decodeEntry = .ok ms := by
  rw [exists_mapM_eq_ok]
  refine forall₂_congr fun t ht => ?_
  simp only [decodeJson_eq_ok_iff h ht]

theorem get_eq_decodeJson (h : Readable ts) (hms : ts.mapM decodeEntry = .ok ms) {i : Nat}
    (hi : i < ts.length) : (Collection.mk .messages ms).get i = decodeJson ts[i] := by
  have hentries := mapM_eq_ok.mp hms
  have hi' : i < ms.length := hentries.length_eq ▸ hi
  have hget : decodeEntry ts[i] = .ok ms[i] := hentries.get hi hi'
  rw [(decodeJson_eq_ok_iff h (List.getElem_mem hi)).mpr hget, Collection.get,
    if_neg (by omega), Int.toNat_natCast, List.getElem?_eq_getElem hi']

/-! ## Faults of entries -/

/-- A fault that is no malformation under one name is the same under another one. -/
theorem inRecord_of_not_answered {format : Format} {name : Text}
    (h : isAnswered (.error (f.inRecord format name) : Except Fault Message) = false)
    (other : Text) : f.inRecord format other = f.inRecord format name := by
  cases f with
  | argument param problem => cases h
  | _ => rfl

/-- What makes an entry malformed makes the batch malformed. -/
theorem inRecord_of_answered (hread : Json.read t = .ok v) (hentry : decodeEntry t = .error f)
    (h : isAnswered (decodeJson t : Except Fault Message) = true) :
    ∃ field reason, f.inRecord .json "Messages" = .malformed .json field reason := by
  rw [decodeJson_of_read hread, hentry] at h
  rw [decodeEntry_of_read hread] at hentry
  cases refuses_ofJson v f hentry with
  | malformed field reason => exact ⟨field, reason, rfl⟩
  | argument name problem => exact ⟨"Messages", .rejected name problem, rfl⟩
  | spared hspared =>
    obtain ⟨rfl, -⟩ := hspared
    cases h

theorem exists_malformed {before after : List Text} (h : Readable (before ++ t :: after))
    (hbefore : ∀ u ∈ before, isAnswered (decodeJson u : Except Fault Message) = true)
    (ht : ∃ format field reason,
      (decodeJson t : Except Fault Message) = .error (.malformed format field reason)) :
    ∃ f, (before ++ t :: after).mapM decodeEntry = .error f ∧
      ∃ field reason, f.inRecord .json "Messages" = .malformed .json field reason := by
  obtain ⟨format, field, reason, ht⟩ := ht
  have hsplit : before ++ t :: after = (before ++ [t]) ++ after := by simp
  have hfront : ∀ u ∈ before ++ [t], isAnswered (decodeJson u : Except Fault Message) = true := by
    rw [List.forall_mem_append]
    refine ⟨hbefore, List.forall_mem_singleton.mpr ?_⟩
    rw [ht]
    rfl
  -- the first entry that fails is `t` or one before it
  cases hentries : (before ++ [t]).mapM decodeEntry with
  | ok ms =>
    obtain ⟨m, hm⟩ := exists_mapM_eq_ok.mp ⟨ms, hentries⟩ t (by simp)
    rw [(decodeJson_eq_ok_iff h (by simp)).mpr hm] at ht
    cases ht
  | error f =>
    obtain ⟨first, u, others, hfirst, -, hu⟩ := mapM_eq_error.mp hentries
    have hmem : u ∈ before ++ [t] := by rw [hfirst]; simp
    obtain ⟨v, hv⟩ := h u (by rw [hsplit]; exact List.mem_append_left after hmem)
    rw [hsplit]
    exact ⟨f, mapM_append_error hentries after, inRecord_of_answered hv hu (hfront u hmem)⟩

theorem mapM_of_escaped {before after : List Text} (h : Readable (before ++ t :: after))
    (hbefore : ∀ u ∈ before, ∃ m : Message, decodeJson u = .ok m)
    (ht : (decodeJson t : Except Fault Message) = .error f)
    (hf : isAnswered (.error f : Except Fault Message) = false) :
    ∃ g, (before ++ t :: after).mapM decodeEntry = .error g ∧ g.inRecord .json "Messages" = f := by
  rw [decodeJson_eq h (by simp), mapError_eq_error] at ht
  obtain ⟨g, hg, rfl⟩ := ht
  refine ⟨g, mapM_eq_error.mpr ⟨before, t, after, rfl, fun u hu => ?_, hg⟩,
    inRecord_of_not_answered hf _⟩
  obtain ⟨m, hm⟩ := hbefore u hu
  exact ⟨m, (decodeJson_eq_ok_iff h (List.mem_append_left _ hu)).mp hm⟩

/-- A text of an array of entries that are JSON texts: one that spells the array and does not nest
too deep, or any other one that is read as the array of what the entries are read as. -/
theorem read_of_spelled (h : List.Forall₂ (fun t v => Json.read t = .ok v) ts vs)
    (htext : Json.read text = .ok (.arr vs) ∨
      SpellsArray ts text ∧ Json.read text ≠ .error .tooDeep) :
    Json.read text = .ok (.arr vs) := by
  rcases htext with hread | ⟨hspells, hdepth⟩
  · exact hread
  · exact (Json.read_spelled hspells h).resolve_right hdepth

/-- A batch is decoded entry by entry, whichever text its array has: any one that is read as the
array of the entries, and so any one that spells them between brackets and does not nest too
deep. -/
theorem decodeBatch_entryByEntry
    (hvalues : List.Forall₂ (fun t v => Json.read t = .ok v) ts vs)
    (htext : Json.read text = .ok (.arr vs) ∨
      SpellsArray ts text ∧ Json.read text ≠ .error .tooDeep) :
    EntryByEntry ts (decodeBatch text) := by
  have hreadable : Readable ts := forall_mem_of_forall₂ hvalues
  have hbatch := decodeBatch_of_read hvalues (read_of_spelled hvalues htext)
  constructor
  · rw [exists_decodeJson_iff hreadable, hbatch]
    simp only [map_eq_ok, mapError_eq_ok]
    constructor
    · intro h
      obtain ⟨c, ms, hms, -⟩ := h
      exact ⟨ms, hms⟩
    · intro h
      obtain ⟨ms, hms⟩ := h
      exact ⟨_, ms, hms, rfl⟩
  · intro c hc
    rw [hbatch] at hc
    obtain ⟨ms, hms, rfl⟩ := map_eq_ok.mp hc
    have hms := mapError_eq_ok.mp hms
    refine ⟨rfl, (mapM_eq_ok.mp hms).length_eq.symm, fun i hi => ?_⟩
    exact get_eq_decodeJson hreadable hms hi
  · intro before t after hts hbefore ht
    subst hts
    obtain ⟨f, hf, field, reason, hmalformed⟩ := exists_malformed hreadable hbefore ht
    refine ⟨field, reason, ?_⟩
    rw [hbatch, hf]
    show Except.error (f.inRecord .json "Messages") = _
    rw [hmalformed]
  · intro before t after f hts hbefore ht hf
    subst hts
    obtain ⟨g, hg, rfl⟩ := mapM_of_escaped hreadable hbefore ht hf
    rw [hbatch, hg]
    rfl

/-- Two messages between brackets are decoded as they are alone. -/
theorem decodeBatch_entryByEntry_pair :
    let first : Text := "\x7b\"topic\":\"0x00000000\"\x7d"
    let second : Text := "\x7b\"topic\":\"0x01020304\",\"ttl\":7\x7d"
    let text : Text :=
      Text.ofString "[" ++ first ++ Text.ofString "," ++ second ++ Text.ofString "]"
    ∃ c, decodeBatch text = .ok c ∧ c.size = 2 ∧ c.get 1 = decodeJson second := by
  intro first second text
  let v := Json.object [("topic", .str "0x00000000")]
  let w := Json.object [("topic", .str "0x01020304"), ("ttl", .int 7)]
  have htopic : ∀ levels, ∀ t : Text, t.all Json.isPlain = true → Json.Legible levels (.str t) :=
    fun levels t ht => .str (Json.stringReads_plain ht)
  have hseven : ∀ levels, Json.Legible levels (.int 7) :=
    fun levels => Json.legible_int (Text.isWritten_of_lt_word (by decide : 7 < Nat.pow 2 256))
  have hv : ∀ levels, Json.Legible (levels + 1) v := by
    intro levels
    refine LegibleMembers.legible ⟨by decide, by decide, ?_⟩
    exact List.forall_mem_singleton.mpr (htopic levels _ (by decide))
  have hw : ∀ levels, Json.Legible (levels + 1) w := by
    intro levels
    refine LegibleMembers.legible ⟨by decide, by decide, List.forall_mem_cons.mpr ⟨?_, ?_⟩⟩
    · exact htopic levels _ (by decide)
    · exact List.forall_mem_singleton.mpr (hseven levels)
  have hfirst : Json.read first = .ok v := by
    have htext : first = v.write {} := by decide +kernel
    rw [htext, Json.read_write_self (hv 959) rfl]
  have hsecond : Json.read second = .ok w := by
    have htext : second = w.write {} := by decide +kernel
    rw [htext, Json.read_write_self (hw 959) rfl]
  have hdepth : Json.read text ≠ .error .tooDeep := by
    have htext : text = (Json.arr [v, w]).write {} := by decide +kernel
    have hentries : ∀ j ∈ [v, w], Json.Legible 959 j :=
      List.forall_mem_cons.mpr ⟨hv 958, List.forall_mem_singleton.mpr (hw 958)⟩
    rw [htext, Json.read_write_self (.arr hentries) rfl]
    exact nofun
  have hspells : SpellsArray [first, second] text :=
    ⟨[], [], [], nofun, nofun, nofun, rfl⟩
  have hbatch := decodeBatch_entryByEntry (.cons hfirst (.cons hsecond .nil))
    (.inr ⟨hspells, hdepth⟩)
  have hofJson : ∀ j ∈ [v, w], (Message.ofJson j).isOk = true := by decide +kernel
  have hmessages : ∀ t ∈ [first, second], ∃ m : Message, decodeJson t = .ok m := by
    refine List.forall_mem_cons.mpr ⟨?_, List.forall_mem_singleton.mpr ?_⟩
    · rw [decodeJson_of_read hfirst, decodeEntry_of_read hfirst]
      exact exists_mapError_eq_ok (hofJson v (by simp)) _
    · rw [decodeJson_of_read hsecond, decodeEntry_of_read hsecond]
      exact exists_mapError_eq_ok (hofJson w (by simp)) _
  obtain ⟨c, hc⟩ := hbatch.accepted.mpr hmessages
  obtain ⟨-, hsize, hget⟩ := hbatch.entries c hc
  exact ⟨c, hc, hsize, hget 1 (by decide)⟩

end Batch

end EthWire.Message
