import EthWire.Proofs.Numeral
import EthWire.Proofs.Secp256k1.Search
import EthWire.Proofs.Width
import EthWire.Signer

/-!
# Signers and the sender that they recover

What a signature changes in a transaction, and whom each signer takes for the sender of a
transaction that a key signed.
-/

namespace EthWire

/-- Two transactions that agree in the six fields that a signature covers. -/
structure Transaction.SamePayload (t u : Transaction) : Prop where
  nonce : u.nonce = t.nonce
  gasPrice : u.gasPrice = t.gasPrice
  gas : u.gas = t.gas
  recipient : u.recipient = t.recipient
  value : u.value = t.value
  data : u.data = t.data

namespace Transaction.SamePayload

variable {t u w : Transaction}

theorem refl (t : Transaction) : SamePayload t t := ⟨rfl, rfl, rfl, rfl, rfl, rfl⟩

theorem trans (h : SamePayload t u) (hu : SamePayload u w) : SamePayload t w where
  nonce := hu.nonce.trans h.nonce
  gasPrice := hu.gasPrice.trans h.gasPrice
  gas := hu.gas.trans h.gas
  recipient := hu.recipient.trans h.recipient
  value := hu.value.trans h.value
  data := hu.data.trans h.data

theorem payloadItems_eq (h : SamePayload t u) : u.payloadItems = t.payloadItems := by
  rw [payloadItems, payloadItems, recipientBytes, recipientBytes, h.nonce, h.gasPrice, h.gas,
    h.recipient, h.value, h.data]

end Transaction.SamePayload

namespace Signer

open Secp256k1 (Parts)
open Transaction (SamePayload)

variable {signer : Signer} {t u : Transaction}

theorem digest_eq (h : SamePayload t u) : signer.digest u = signer.digest t := by
  cases signer with
  | legacy => rw [digest, digest, payload, payload, payloadItem, payloadItem, h.payloadItems_eq]
  | replayProtected c =>
    rw [digest, digest, payload, payload, payloadItem, payloadItem, h.payloadItems_eq]

/-! ## Signature values -/

theorem valueWord_eq_ok {name : Text} {k : Nat} {w : Word 256} :
    valueWord name k = .ok w ↔ k = w.val := by
  unfold valueWord
  constructor
  · intro h
    split at h
    next hw =>
      cases h
      exact Word.ofNat?_eq_some.mp hw
    next => cases h
  · intro h
    rw [Word.ofNat?_eq_some.mpr h]

theorem valueWord_of_lt {name : Text} {k : Nat} (h : k < Nat.pow 2 256) :
    ∃ w, valueWord name k = .ok w :=
  ⟨⟨k, h⟩, valueWord_eq_ok.mpr rfl⟩

theorem valueWord_of_le {name : Text} {k : Nat} (h : Nat.pow 2 256 ≤ k) :
    valueWord name k = .error (Fault.outOfRange name k) := by
  have hnone : (Word.ofNat? k : Option (Word 256)) = none := dif_neg (Nat.not_lt.mpr h)
  rw [valueWord, hnone]

/-- A signature leaves the payload as it is, and its numbers can be read off the result. -/
theorem withSignature_eq_ok {signature : Bytes} (h : signer.withSignature t signature = .ok u) :
    SamePayload t u ∧ ∃ x, Secp256k1.split signature = .ok x ∧
      u.v.val = x.recoveryId + signer.baseValue ∧ u.r.val = x.r ∧ u.s.val = x.s := by
  unfold withSignature values at h
  obtain ⟨k, hk, hwords⟩ := bind_eq_ok.mp h
  obtain ⟨x, hx, hparts⟩ := bind_eq_ok.mp hk
  obtain ⟨v, hv, hrest⟩ := bind_eq_ok.mp hwords
  obtain ⟨r, hr, hlast⟩ := bind_eq_ok.mp hrest
  obtain ⟨s, hs, hu⟩ := bind_eq_ok.mp hlast
  cases hparts
  cases hu
  exact ⟨⟨rfl, rfl, rfl, rfl, rfl, rfl⟩, x, hx, (valueWord_eq_ok.mp hv).symm,
    (valueWord_eq_ok.mp hr).symm, (valueWord_eq_ok.mp hs).symm⟩

/-- Of the values of a signature only the recovery value can be too great. -/
theorem exists_withSignature_eq (signer : Signer) (t : Transaction) {signature : Bytes} {x : Parts}
    (hsplit : Secp256k1.split signature = .ok x) (hr : x.r < Nat.pow 2 256)
    (hs : x.s < Nat.pow 2 256) :
    ∃ r s, signer.withSignature t signature = (do
      let v ← valueWord "v" (x.recoveryId + signer.baseValue)
      pure { t with v, r, s }) := by
  obtain ⟨r, hr⟩ := @valueWord_of_lt "r" _ hr
  obtain ⟨s, hs⟩ := @valueWord_of_lt "s" _ hs
  refine ⟨r, s, ?_⟩
  rw [withSignature, values, hsplit, ok_bind, pure_eq_ok, ok_bind]
  dsimp only
  rw [hr, hs]
  rfl

/-- A signature over the digest becomes part of the transaction, if the chain leaves room for
the recovery value. -/
theorem exists_sign_of_signature {key : PrivateKey} {signature : Bytes}
    (h : Secp256k1.sign key (signer.digest t).bytes = .ok signature)
    (hbase : signer.baseValue + 1 < Nat.pow 2 256) : ∃ u, signer.sign t key = .ok u := by
  obtain ⟨x, hbytes, hx, -⟩ := Secp256k1.sign_eq_ok h
  have hn : Secp256k1.n < Nat.pow 2 256 := by decide
  have hle := hx.recoveryId_le
  obtain ⟨r, s, hsteps⟩ := exists_withSignature_eq signer t
    (hbytes ▸ hx.split_toBytes) (hx.r_lt.trans hn) (hx.s_lt.trans hn)
  obtain ⟨v, hv⟩ := @valueWord_of_lt "v" (x.recoveryId + signer.baseValue) (by omega)
  exact ⟨{ t with v, r, s }, by rw [sign, h, ok_bind, hsteps, hv, ok_bind, pure_eq_ok]⟩

theorem withSignatureArgument_samePayload {signature : Value}
    (h : signer.withSignatureArgument t signature = .ok u) : SamePayload t u := by
  obtain ⟨b, -, h⟩ := bind_eq_ok.mp h
  exact (withSignature_eq_ok h).1

/-! ## Reports of chains -/

theorem forChain_val (c : ChainId) : forChain (.int c.val) = .ok (.replayProtected c) := by
  show protectedFor (.int c.val) = _
  exact dif_pos c.property

/-- A signer without a chain, or of a chain whose number is short enough to be written. -/
def IsWritten (signer : Signer) : Prop :=
  ∀ c, signer.chainId? = some c → c < Nat.pow 10 Text.decimalLimit

/-- The first chain whose number has too many digits to be written. -/
def firstLongChain : ChainId :=
  ⟨Nat.pow 10 Text.decimalLimit, Nat.lt_of_lt_of_le (by decide : 0 < Nat.pow 2 256)
    Text.word_le_pow_decimalLimit⟩

theorem val_firstLongChain : firstLongChain.val = Nat.pow 10 Text.decimalLimit := by
  simp only [firstLongChain]

theorem lt_firstLongChain {k : Nat} (h : k < Nat.pow 2 256) : k < firstLongChain.val := by
  rw [val_firstLongChain]
  exact Nat.lt_of_lt_of_le h Text.word_le_pow_decimalLimit

theorem not_isWritten_firstLongChain : ¬(replayProtected firstLongChain).IsWritten := by
  intro h
  have hlt := h firstLongChain.val rfl
  rw [val_firstLongChain] at hlt
  exact Nat.lt_irrefl _ hlt

theorem isWritten_chainId? : signer.chainId?.all (Text.isWritten ·) = true ↔ signer.IsWritten := by
  cases signer with
  | legacy => simp [IsWritten, chainId?]
  | replayProtected c => simp [IsWritten, chainId?, Text.isWritten_iff]

/-- The chain of a transaction is below its recovery value, which is a word. -/
theorem isWritten_chainValue (t : Transaction) : (chainValue t.chainId?).isWritten = true := by
  cases hchain : t.chainId? with
  | none => simp [chainValue, Value.isWritten]
  | some c =>
    have hle : c ≤ t.v.val := by
      unfold Transaction.chainId? at hchain
      split_ifs at hchain
      obtain rfl := Option.some.inj hchain
      omega
    rw [chainValue, Value.isWritten]
    exact Text.isWritten_of_lt_word (Nat.lt_of_le_of_lt hle t.v.val_lt)

theorem wrongChain_of_isWritten (h : signer.IsWritten) :
    Fault.wrongChain (chainValue t.chainId?) signer.chainId?
      = .chainId (chainValue t.chainId?) signer.chainId? := by
  rw [Fault.wrongChain, isWritten_chainValue, isWritten_chainId?.mpr h]
  rfl

/-- The report of a wrong chain tells the chain of the signer, which may be too long for it. -/
theorem wrongChain_of_not_isWritten (h : ¬signer.IsWritten) :
    Fault.wrongChain (chainValue t.chainId?) signer.chainId? = .misuse .longNumeral := by
  rw [Fault.wrongChain, Bool.eq_false_iff.mpr (mt isWritten_chainId?.mp h), Bool.and_false]
  rfl

/-! ## Senders -/

theorem recoverAddress_canonical {digest : Hash} {x : Parts} {key : PublicKey} (hx : x.Canonical)
    (h : Secp256k1.recover digest.bytes x = .ok key) :
    recoverAddress digest x.r x.s x.recoveryId = .ok (.ofPublicKey key) := by
  have hrpos := hx.r_pos
  have hrlt := hx.r_lt
  have hspos := hx.s_pos
  have hslt := hx.s_lt
  have hsle := hx.s_le
  have hle := hx.recoveryId_le
  unfold recoverAddress
  rw [if_neg (by omega), if_neg (by omega), if_neg (by omega), Int.toNat_natCast, h, map_ok]

/-- What the signers make of a transaction that a key signed. Every signer recovers the key
from a signature without a chain. From a signature for a chain only the signer of that chain
does, and any other one finds the wrong chain; if its own is too long to be written, it cannot
report so. -/
def SignedBy (key : PrivateKey) (t : Transaction) : Signer → Prop
  | legacy => t.chainId? = none ∧ ∀ other : Signer, other.sender t = .ok key.address
  | replayProtected c =>
      t.chainId? = some c.val ∧ (replayProtected c).sender t = .ok key.address ∧
        ∀ other : Signer, other ≠ replayProtected c →
          (other.IsWritten → other.sender t = .error (.chainId (.int c.val) other.chainId?)) ∧
          (¬other.IsWritten → other.sender t = .error (.misuse .longNumeral))

theorem SignedBy.sender_eq {key : PrivateKey} (h : SignedBy key t signer) :
    signer.sender t = .ok key.address := by
  cases signer with
  | legacy => exact h.2 legacy
  | replayProtected c => exact h.2.1

theorem signedBy_of_recover {key : PrivateKey} {x : Parts} (hx : x.Canonical)
    (hrecover : Secp256k1.recover (signer.digest t).bytes x = .ok key.publicKey)
    (hv : t.v.val = x.recoveryId + signer.baseValue) (hr : t.r.val = x.r) (hs : t.s.val = x.s) :
    SignedBy key t signer := by
  have hle := hx.recoveryId_le
  have hrpos := hx.r_pos
  have haddress := recoverAddress_canonical hx hrecover
  have hsigned : t.hasSignature = true := by
    have hne : t.r.val ≠ 0 := by omega
    simp [Transaction.hasSignature, hne]
  cases signer with
  | legacy =>
    have hbase : t.v.val = 27 ∨ t.v.val = 28 := by
      rw [hv, baseValue]
      omega
    have hprotected : t.isProtected = false := by
      rcases hbase with h | h <;> simp [Transaction.isProtected, Transaction.unprotectedValues, h]
    have hid : (t.v.val : Int) - (baseValue legacy) = x.recoveryId := by
      rw [hv]
      omega
    refine ⟨by simp [Transaction.chainId?, hprotected], fun other => ?_⟩
    simp [sender, hsigned, hprotected, hid, hr, hs, haddress, PrivateKey.address]
  | replayProtected c =>
    have hbase : t.v.val = x.recoveryId + (35 + 2 * c.val) := hv
    have hprotected : t.isProtected = true := by
      simp [Transaction.isProtected, Transaction.unprotectedValues]
      omega
    have hchain : t.chainId? = some c.val := by
      have hlow : ¬t.v.val < 35 := by omega
      have hhalf : (t.v.val - 35) / 2 = c.val := by omega
      simp [Transaction.chainId?, hprotected, hlow, hhalf]
    have hid : (t.v.val : Int) - (baseValue (replayProtected c)) = x.recoveryId := by
      rw [hv]
      omega
    refine ⟨hchain, ?_, fun other hother => ?_⟩
    · simp [sender, hsigned, hprotected, hchain, hid, hr, hs, haddress, PrivateKey.address]
    · have hwrong : other.sender t = .error (.wrongChain (chainValue t.chainId?) other.chainId?) := by
        cases other with
        | legacy => simp [sender, hsigned, hprotected, chainId?]
        | replayProtected d =>
          have hne : c.val ≠ d.val := by
            intro h
            exact hother (congrArg replayProtected (Subtype.ext h.symm))
          simp [sender, hsigned, hprotected, hchain, hne, chainId?]
      refine ⟨fun hwritten => ?_, fun hlong => ?_⟩
      · rw [hwrong, wrongChain_of_isWritten hwritten, hchain]
        rfl
      · rw [hwrong, wrongChain_of_not_isWritten hlong]

/-- A signing that succeeds signs the payload of the transaction with the key. -/
theorem sign_signedBy {key : PrivateKey} (h : signer.sign t key = .ok u) :
    SamePayload t u ∧ SignedBy key u signer := by
  obtain ⟨signature, hsignature, hu⟩ := bind_eq_ok.mp h
  obtain ⟨x, hbytes, hx, hrecover⟩ := Secp256k1.sign_eq_ok hsignature
  obtain ⟨hpayload, y, hsplit, hv, hr, hs⟩ := withSignature_eq_ok hu
  rw [hbytes, hx.split_toBytes] at hsplit
  cases hsplit
  rw [← digest_eq hpayload] at hrecover
  exact ⟨hpayload, signedBy_of_recover hx hrecover hv hr hs⟩

/-- The creation of an empty contract on the main network can be signed. -/
theorem exists_sign_creation :
    let t : Transaction := { gas := ⟨21000, by decide⟩, gasPrice := ⟨1, by decide⟩ }
    let key : PrivateKey :=
      ⟨0x4646464646464646464646464646464646464646464646464646464646464646, by decide, by decide⟩
    ∃ u, (replayProtected ⟨1, by decide⟩).sign t key = .ok u := by
  intro t key
  let digest : Bytes :=
    [157, 156, 145, 242, 224, 74, 47, 183, 68, 90, 201, 137, 102, 120, 196, 153, 33, 148, 163, 129,
      210, 1, 20, 243, 204, 204, 26, 214, 103, 130, 5, 253]
  have hdigest : digest = ((replayProtected ⟨1, by decide⟩).digest t).bytes := by decide +kernel
  have hdraw : Secp256k1.drawValues? key.scalar digest Secp256k1.maxTries (.start key.scalar digest)
      = some (115439070711958124079192484576205346498938828584709790617157450856458733295210,
          8456665372195081231467057248777682974321924206147322354299807313049098411919) := by
    decide +kernel
  obtain ⟨signature, hsignature⟩ := Secp256k1.exists_sign hdraw (by decide) (by decide +kernel)
  rw [hdigest] at hsignature
  exact exists_sign_of_signature hsignature (by decide)

end Signer

end EthWire
