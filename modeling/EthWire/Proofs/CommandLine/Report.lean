import EthWire.Proofs.CommandLine.Reading
import EthWire.Proofs.CommandLine.Request
import EthWire.Proofs.Record.Answer
import EthWire.Proofs.Signer.Sender

/-!
# Steps whose faults are reported

A fault has a report unless it is a misuse. The steps of the commands come to no misuse, so a
misuse of a whole command lies with the few steps that can come to one.
-/

namespace EthWire

variable {α β : Type}

/-- A computation that does not end in a misuse. -/
def Reports (x : Except Fault α) : Prop := ∀ m, x ≠ .error (.misuse m)

@[simp] theorem reports_ok (a : α) : Reports (.ok a) := by
  intro m h
  cases h

@[simp] theorem reports_error {f : Fault} :
    Reports (.error f : Except Fault α) ↔ ∀ m, f ≠ .misuse m := by
  constructor
  · rintro h m rfl
    exact h m rfl
  · intro h m hm
    exact h m (Except.error.inj hm)

@[simp] theorem reports_bind {x : Except Fault α} {f : α → Except Fault β} :
    Reports (x >>= f) ↔ Reports x ∧ ∀ a, x = .ok a → Reports (f a) := by
  cases x with
  | ok a => simp
  | error e => simp

@[simp] theorem reports_map {x : Except Fault α} {f : α → β} :
    Reports (x.map f) ↔ Reports x := by
  cases x with
  | ok a => simp
  | error e =>
    rw [reports_error]
    exact reports_error

/-- Behind a step that reports its faults a misuse is one of the next step. -/
theorem Reports.bind_eq_misuse {x : Except Fault α} (h : Reports x) {f : α → Except Fault β}
    {m : Misuse} :
    (x >>= f) = .error (.misuse m) ↔ ∃ a, x = .ok a ∧ f a = .error (.misuse m) := by
  rw [bind_eq_error]
  constructor
  · rintro (hx | hf)
    · exact absurd hx (h m)
    · exact hf
  · exact .inr

theorem orFail_eq_misuse {x : Except Fault α} {m : Misuse} :
    CommandLine.orFail x = .error (.fault (.misuse m)) ↔ x = .error (.misuse m) := by
  cases x with
  | ok a => simp [CommandLine.orFail, Except.mapError]
  | error f => simp [CommandLine.orFail, Except.mapError]

theorem Fault.showing_eq_misuse {written : Bool} {f : Fault} (h : ∀ m, f ≠ .misuse m)
    {m : Misuse} : showing written f = .misuse m ↔ written = false ∧ m = .longNumeral := by
  cases written with
  | true => simp [showing, h m]
  | false => simp [showing, eq_comm]

/-- A number outside its range is shown, unless it has too many digits. -/
theorem Fault.outOfRange_eq_misuse {name : Text} {n : Int} {m : Misuse} :
    outOfRange name n = .misuse m ↔
      Nat.pow 10 Text.decimalLimit ≤ n.natAbs ∧ m = .longNumeral := by
  rw [outOfRange, showing_eq_misuse (by simp), Bool.eq_false_iff, Ne, Text.isWritten_iff,
    Nat.not_lt]

theorem reports_wrongChain {got : Value} {expected : Option Nat} (hgot : got.isWritten = true)
    (hexpected : expected.all (Text.isWritten ·) = true) :
    Reports (.error (.wrongChain got expected) : Except Fault α) := by
  rw [Fault.wrongChain, hgot, hexpected]
  simp [Fault.showing]

/-! ## Readers of values -/

theorem Value.reports_fixedOfBytes {kind : FixedKind} (b : Bytes) :
    Reports (fixedOfBytes b : Except Fault (Fixed kind)) := by
  unfold fixedOfBytes
  split
  · simp
  · simp

theorem Fixed.reports_ofHex {kind : FixedKind} (t : Text) :
    Reports (Fixed.ofHex t : Except Fault (Fixed kind)) := by
  unfold ofHex
  split
  · exact Value.reports_fixedOfBytes _
  · simp

theorem PrivateKey.reports_ofHex (t : Text) : Reports (PrivateKey.ofHex t) := by
  unfold ofHex ofBytes
  split
  · split
    · simp
    · dsimp only
      split
      · simp
      · simp
  · simp

/-! ## Decoders -/

theorem Refuses.reports {format : Format} {x : Except Fault α} (name : Text)
    (h : Refuses format (fun _ => False) x) : Reports (x.mapError (Fault.inRecord format name)) := by
  rcases h.mapError_cases name with ⟨a, -, hx⟩ | ⟨field, reason, hx⟩ | ⟨f, hf, -⟩
  · rw [hx]
    simp
  · rw [hx]
    simp
  · exact hf.elim

theorem reports_decodeRlp [WireRecord α]
    (h : ∀ item, Refuses .rlp (fun _ => False) (WireRecord.ofItem item : Except Fault α))
    (data : Bytes) : Reports (decodeRlp data : Except Fault α) := by
  rw [decodeRlp, reports_bind]
  refine ⟨?_, fun item _ => (h item).reports _⟩
  cases hitem : Rlp.decode data with
  | ok item => simp
  | error f =>
    obtain ⟨reason, rfl⟩ := Rlp.decode_fault hitem
    simp [Rlp.malformed]

theorem reports_decodeJson [JsonRecord α]
    (h : ∀ j, Refuses .json (fun _ => False) (JsonRecord.ofJson j : Except Fault α))
    (text : Text) : Reports (decodeJson text : Except Fault α) := by
  rw [decodeJson, reports_bind]
  refine ⟨?_, fun j _ => (h j).reports _⟩
  rw [Json.parse]
  cases Json.read text with
  | ok j => exact reports_ok j
  | error cause =>
    rw [Except.mapError, reports_error]
    intro m hm
    cases hm

/-! ## Signatures -/

namespace Secp256k1

theorem reports_recoverPoint (digest : Bytes) (r s recoveryId : Nat) :
    Reports (recoverPoint digest r s recoveryId) := by
  unfold recoverPoint
  split
  · simp
  · dsimp only
    split
    · simp
    · simp

theorem reports_findRecoveryId (digest : Bytes) (r s : Nat) (key : PublicKey) :
    Reports (findRecoveryId digest r s key) := by
  rw [findRecoveryId, reports_bind]
  refine ⟨reports_recoverPoint _ _ _ _, fun q _ => ?_⟩
  split
  · simp
  · rw [reports_bind]
    refine ⟨reports_recoverPoint _ _ _ _, fun q' _ => ?_⟩
    split
    · simp
    · simp

theorem reports_sign (key : PrivateKey) (digest : Bytes) : Reports (sign key digest) := by
  -- opened as a function, so that no nonce is drawn
  have hsign : sign = sign := rfl
  conv at hsign => rhs; delta sign
  rw [hsign]
  dsimp only
  split
  · simp
  · simp [reports_findRecoveryId]

theorem reports_recover (digest : Bytes) (x : Parts) : Reports (recover digest x) := by
  unfold recover
  split
  · simp
  · split
    · simp
    · split
      · simp
      · exact reports_map.mpr (reports_recoverPoint _ _ _ _)

end Secp256k1

namespace Signer

variable {signer : Signer} {t : Transaction} {key : PrivateKey} {m : Misuse}

theorem reports_forChain {v : Value} (h : v.isWritten = true) : Reports (forChain v) := by
  have hwrong : ∀ w : Value, w.isWritten = true →
      Reports (.error (.wrongChain w none) : Except Fault Signer) :=
    fun w hw => reports_wrongChain hw rfl
  unfold forChain
  split
  · simp
  · unfold protectedFor
    split
    · split
      · simp
      · exact hwrong _ h
    · exact hwrong _ h

theorem isWritten_of_forChain {v : Value} (hv : v.isWritten = true)
    (h : forChain v = .ok signer) : signer.IsWritten := by
  unfold forChain at h
  split at h
  · cases h
    rintro c ⟨⟩
  · unfold protectedFor at h
    split at h
    next c _ =>
      split at h
      · cases h
        rintro k ⟨⟩
        rw [Value.isWritten] at hv
        have hle : c.toNat ≤ c.natAbs := by omega
        exact Nat.lt_of_le_of_lt hle (Text.isWritten_iff.mp hv)
      · cases h
    next => cases h

theorem reports_recoverAddress (digest : Hash) (r s : Nat) (recoveryId : Int) :
    Reports (recoverAddress digest r s recoveryId) := by
  unfold recoverAddress
  split
  · simp
  · split
    · simp
    · split
      · simp
      · exact reports_map.mpr (Secp256k1.reports_recover _ _)

theorem reports_sender (h : signer.IsWritten) (t : Transaction) : Reports (signer.sender t) := by
  have hwrong := reports_wrongChain (α := Address) (isWritten_chainValue t)
    (isWritten_chainId?.mpr h)
  unfold sender
  split
  · simp
  · split
    · split
      · exact hwrong
      · split
        · exact reports_recoverAddress _ _ _ _
        · exact hwrong
    · exact reports_recoverAddress _ _ _ _

theorem valueWord_eq_misuse {name : Text} {k : Nat} :
    valueWord name k = .error (.misuse m) ↔
      Nat.pow 10 Text.decimalLimit ≤ k ∧ m = .longNumeral := by
  have hlimit := Text.word_le_pow_decimalLimit
  unfold valueWord
  split
  next w hw =>
    have hval := Word.ofNat?_eq_some.mp hw
    have hlt := w.val_lt
    constructor
    · intro h
      cases h
    · rintro ⟨hlong, -⟩
      omega
  next =>
    rw [Except.error.injEq, Fault.outOfRange_eq_misuse, Int.natAbs_natCast]

/-- Signing comes to a misuse only if the recovery value is too long to be written. -/
theorem sign_eq_misuse :
    signer.sign t key = .error (.misuse m) ↔
      ∃ signature x, Secp256k1.sign key (signer.digest t).bytes = .ok signature ∧
        Secp256k1.split signature = .ok x ∧
        Nat.pow 10 Text.decimalLimit ≤ x.recoveryId + signer.baseValue ∧ m = .longNumeral := by
  have hvalues : ∀ signature x, Secp256k1.sign key (signer.digest t).bytes = .ok signature →
      Secp256k1.split signature = .ok x →
      (signer.withSignature t signature = .error (.misuse m) ↔
        Nat.pow 10 Text.decimalLimit ≤ x.recoveryId + signer.baseValue ∧ m = .longNumeral) := by
    intro signature x hsignature hsplit
    obtain ⟨y, hbytes, hy, -⟩ := Secp256k1.sign_eq_ok hsignature
    rw [hbytes, hy.split_toBytes] at hsplit
    obtain rfl := Except.ok.inj hsplit
    have hn : Secp256k1.n < Nat.pow 2 256 := by decide
    obtain ⟨r, s, hsteps⟩ := exists_withSignature_eq signer t
      (hbytes ▸ hy.split_toBytes) (hy.r_lt.trans hn) (hy.s_lt.trans hn)
    rw [hsteps, bind_eq_error, valueWord_eq_misuse]
    simp
  rw [sign, (Secp256k1.reports_sign _ _).bind_eq_misuse]
  constructor
  · rintro ⟨signature, hsignature, h⟩
    obtain ⟨x, hbytes, hx, -⟩ := Secp256k1.sign_eq_ok hsignature
    have hsplit : Secp256k1.split signature = .ok x := by rw [hbytes, hx.split_toBytes]
    exact ⟨signature, x, hsignature, hsplit, (hvalues signature x hsignature hsplit).mp h⟩
  · rintro ⟨signature, x, hsignature, hsplit, h⟩
    exact ⟨signature, hsignature, (hvalues signature x hsignature hsplit).mpr h⟩

end Signer

/-! ## Requests -/

namespace CommandLine

/-- A number that can be written, if there is one. -/
def GivenNumber.IsWritten (g : GivenNumber) : Prop := ∀ n, g = .number n → Text.isWritten n = true

theorem GivenNumber.isWritten_of_lt_word {k : Nat} (h : k < Nat.pow 2 256) :
    (number k).IsWritten := by
  rintro n ⟨⟩
  exact Text.isWritten_of_lt_word h

theorem GivenNumber.isWritten_toValue {g : GivenNumber} (h : g.IsWritten) :
    g.toValue.isWritten = true := by
  cases g with
  | blank => simp [toValue, Value.isWritten, Value.areWritten]
  | number n =>
    rw [toValue, Value.isWritten]
    exact h n rfl

theorem Given.isWritten_of_number? {x : Given OptionName} {id : OptionName} {g : GivenNumber}
    (h : x.number? id = some g) : g.IsWritten := by
  obtain ⟨value, -, rfl⟩ := Option.map_eq_some_iff.mp h
  rintro n hn
  split at hn
  next k hk =>
    cases hn
    obtain ⟨t, -, ht⟩ := Option.bind_eq_some_iff.mp hk
    exact Text.isWritten_of_readInt? ht
  next => cases hn

theorem Given.isWritten_getD {x : Given OptionName} {id : OptionName} {k : Nat}
    (h : k < Nat.pow 2 256) : ((x.number? id).getD (.number k)).IsWritten := by
  cases hnumber : x.number? id with
  | none => exact GivenNumber.isWritten_of_lt_word h
  | some g => exact isWritten_of_number? hnumber

theorem GivenNumber.reports_asWord {bits : Nat} {g : GivenNumber} {name : Text}
    (h : g.IsWritten) : Reports (g.toValue.asWord name : Except Fault (Word bits)) := by
  cases g with
  | blank => simp [toValue, Value.asWord, Value.asNat, Value.typeFault]
  | number n =>
    have hfault : ∀ k : Int, k.natAbs ≤ n.natAbs → ∀ m, Fault.outOfRange name k ≠ .misuse m := by
      intro k hk m hm
      have hshort := Text.isWritten_iff.mp (Text.isWritten_of_le hk (h n rfl))
      exact absurd (Fault.outOfRange_eq_misuse.mp hm).1 (Nat.not_le.mpr hshort)
    rw [toValue, Value.asWord, reports_bind]
    constructor
    · rw [Value.asNat]
      split
      · exact reports_error.mpr (hfault n (Nat.le_refl _))
      · exact reports_ok _
    · intro k hk
      have hle : k ≤ n.natAbs := by
        rw [Value.asNat] at hk
        split at hk
        · cases hk
        · cases hk
          omega
      split
      · exact reports_ok _
      · exact reports_error.mpr (hfault k (by rwa [Int.natAbs_natCast]))

/-- A request whose numbers can be written. -/
structure SigningRequest.IsWritten (request : SigningRequest) : Prop where
  nonce : request.nonce.IsWritten
  value : request.value.IsWritten
  gas : request.gas.IsWritten
  gasPrice : request.gasPrice.IsWritten

theorem Given.isWritten_signingRequest {x : Given OptionName} {nonce : GivenNumber}
    (h : x.number? .nonce = some nonce) : (x.signingRequest nonce).IsWritten where
  nonce := isWritten_of_number? h
  value := isWritten_getD (by decide)
  gas := isWritten_getD (by decide)
  gasPrice := isWritten_getD (by decide)

theorem reports_recipientOf (shown : Option Text) : Reports (recipientOf shown) := by
  unfold recipientOf
  split
  · exact reports_map.mpr (Fixed.reports_ofHex _)
  · simp

theorem reports_decodeHex (t name : Text) : Reports (decodeHex t name) := by
  rw [decodeHex]
  cases Bytes.ofHex t.withoutHexMark with
  | ok b => exact reports_ok b
  | error position =>
    rw [Except.mapError, reports_error]
    intro m hm
    cases hm

/-- A request comes to a misuse only if it has no data. -/
theorem requested_eq_misuse {request : SigningRequest} (h : request.IsWritten) {m : Misuse} :
    requested request = .error (.misuse m) ↔
      (∃ recipient, recipientOf request.recipient = .ok recipient) ∧ request.data = none ∧
        m = .wrongType := by
  have hrecipient := reports_recipientOf request.recipient
  cases hdata : request.data with
  | none =>
    rw [requested_without_data hdata, hrecipient.bind_eq_misuse]
    constructor
    · rintro ⟨recipient, hok, hm⟩
      cases hm
      exact ⟨⟨recipient, hok⟩, rfl, rfl⟩
    · rintro ⟨⟨recipient, hok⟩, -, rfl⟩
      exact ⟨recipient, hok, rfl⟩
  | some shown =>
    have hreports : Reports (requested request) := by
      rw [requested_eq hdata]
      simp [unsignedOf, hrecipient, reports_decodeHex, GivenNumber.reports_asWord h.nonce,
        GivenNumber.reports_asWord h.value, GivenNumber.reports_asWord h.gas,
        GivenNumber.reports_asWord h.gasPrice]
    constructor
    · intro hm
      exact absurd hm (hreports m)
    · rintro ⟨-, hnone, -⟩
      cases hnone

end CommandLine

end EthWire
