import EthWire.Proofs.Numeral
import EthWire.Proofs.Signer.Outcome

/-!
# Taking the values of a signature

What comes of putting a byte string as a signature into a transaction. Its last byte is not
checked: from 2 on it makes a recovery value of another chain, which the signer itself refuses to
recover from. A recovery value that is no word is reported, unless it is too long to be shown.
-/

namespace EthWire

namespace Secp256k1

variable {signature : Bytes}

/-- The three parts of 65 bytes. -/
theorem exists_parts (h : signature.length = signatureSize) :
    ∃ x : Parts, split signature = .ok x ∧ x.toBytes = signature ∧ x.r < Nat.pow 2 256 ∧
      x.s < Nat.pow 2 256 ∧ x.recoveryId = (signature.getD 64 0).toNat := by
  rw [signatureSize] at h
  have hrlength : (signature.take 32).length = 32 := by
    rw [List.length_take]
    omega
  have hslength : ((signature.drop 32).take 32).length = 32 := by
    rw [List.length_take, List.length_drop]
    omega
  have hfront : signature.take 32 ++ (signature.drop 32).take 32 = signature.take 64 :=
    (List.take_add).symm
  have hlast : signature.drop 64 = [signature.getD 64 0] := by
    rw [List.drop_eq_getElem_cons (by omega), List.drop_of_length_le (by omega),
      List.getD_eq_getElem?_getD, List.getElem?_eq_getElem (by omega), Option.getD_some]
  have hbyte : Bytes.toNat (signature.drop 64) = (signature.getD 64 0).toNat := by
    rw [hlast]
    simp [Bytes.toNat, Positional.value]
  refine ⟨_, if_pos h, ?_, ?_, ?_, hbyte⟩
  · have hr := Bytes.ofNatWidth_toNat (signature.take 32)
    have hs := Bytes.ofNatWidth_toNat ((signature.drop 32).take 32)
    rw [hrlength] at hr
    rw [hslength] at hs
    rw [Parts.toBytes, hr, hs, hbyte, UInt8.ofNat_toNat, hfront, ← hlast, List.take_append_drop]
  · have hr := Bytes.toNat_lt (signature.take 32)
    rw [hrlength] at hr
    exact hr
  · have hs := Bytes.toNat_lt ((signature.drop 32).take 32)
    rw [hslength] at hs
    exact hs

theorem split_of_length_ne (h : signature.length ≠ signatureSize) :
    split signature = .error (.signatureLength signature.length) :=
  if_neg h

end Secp256k1

namespace Signer

open Secp256k1 (Parts split signatureSize)
open Transaction (SamePayload)

variable {signer : Signer} {t u : Transaction} {signature : Bytes}

/-- The recovery value that the last byte of a signature makes. -/
def recoveryValue (signer : Signer) (signature : Bytes) : Nat :=
  (signature.getD 64 0).toNat + signer.baseValue

/-- A transaction that took the values of a signature: `u` is `t` up to the three values. -/
structure Attached (signer : Signer) (t : Transaction) (signature : Bytes) (u : Transaction) :
    Prop where
  samePayload : SamePayload t u
  value_eq : u.v.val = signer.recoveryValue signature
  /-- the values are the parts of the signature, -/
  split_eq : split signature = .ok ⟨u.r.val, u.s.val, u.v.val - signer.baseValue⟩
  /-- which can be put together again -/
  toBytes_eq : Parts.toBytes ⟨u.r.val, u.s.val, u.v.val - signer.baseValue⟩ = signature
  chainId?_eq : (signature.getD 64 0).toNat ≤ 1 → u.chainId? = signer.chainId?
  /-- the signer takes a greater last byte for another chain's -/
  foreign : 2 ≤ (signature.getD 64 0).toNat →
    signer.sender u = .error (.chainId (chainValue u.chainId?) signer.chainId?)

/-- What can come of putting a signature into a transaction. -/
inductive SignatureOutcome (signer : Signer) (t : Transaction) (signature : Bytes) :
    Except Fault Transaction → Prop
  | wrongLength (hlength : signature.length ≠ signatureSize) :
      SignatureOutcome signer t signature (.error (.signatureLength signature.length))
  /-- the recovery value is no word -/
  | tooGreat (hlength : signature.length = signatureSize)
      (hlow : Nat.pow 2 256 ≤ signer.recoveryValue signature)
      (hshown : signer.recoveryValue signature < Nat.pow 10 Text.decimalLimit) :
      SignatureOutcome signer t signature
        (.error (.argument "v" (.outOfRange (signer.recoveryValue signature))))
  /-- the recovery value is no word, and it has too many digits for a report -/
  | tooLong (hlength : signature.length = signatureSize)
      (hlong : Nat.pow 10 Text.decimalLimit ≤ signer.recoveryValue signature) :
      SignatureOutcome signer t signature (.error (.misuse .longNumeral))
  | attached {u : Transaction} (hlength : signature.length = signatureSize)
      (hvalue : signer.recoveryValue signature < Nat.pow 2 256)
      (hattached : Attached signer t signature u) : SignatureOutcome signer t signature (.ok u)

/-! ## The chain of the result -/

theorem chainId?_of_recoveryId {id : Nat} (hid : id ≤ 1) (hv : t.v.val = id + signer.baseValue) :
    t.chainId? = signer.chainId? := by
  cases signer with
  | legacy =>
    have hmem : t.v.val ∈ [0, 1, 27, 28] := by
      simp only [baseValue] at hv
      simp only [List.mem_cons, List.not_mem_nil, or_false]
      omega
    have hprotected := Transaction.isProtected_eq_false.mpr hmem
    simp [Transaction.chainId?, hprotected, chainId?]
  | replayProtected c =>
    refine chainId?_eq_some.mpr ?_
    simp only [baseValue] at hv
    simp only [List.mem_cons, List.not_mem_nil, or_false]
    omega

/-- From 2 on the last byte makes the value of another chain. -/
theorem isForeign_of_recoveryId {id v : Nat} (hid : 2 ≤ id) (hv : v = id + signer.baseValue) :
    signer.IsForeign v := by
  cases signer with
  | legacy =>
    simp only [baseValue] at hv
    simp only [IsForeign, List.mem_cons, List.not_mem_nil, or_false]
    omega
  | replayProtected c =>
    simp only [baseValue] at hv
    simp only [IsForeign, List.mem_cons, List.not_mem_nil, or_false]
    omega

theorem baseValue_pos (signer : Signer) : 0 < signer.baseValue := by
  cases signer with
  | legacy => decide
  | replayProtected c =>
    simp only [baseValue]
    omega

/-- A recovery value that is a word is one of a chain that can be written. -/
theorem isWritten_of_baseValue_lt (h : signer.baseValue < Nat.pow 2 256) : signer.IsWritten := by
  intro c hc
  have hle : c ≤ signer.baseValue := by
    cases signer with
    | legacy => cases hc
    | replayProtected d =>
      obtain rfl := Option.some.inj hc
      simp only [baseValue]
      omega
  exact Nat.lt_of_le_of_lt hle (Nat.lt_of_lt_of_le h Text.word_le_pow_decimalLimit)

/-! ## Outcomes -/

theorem attached_of_withSignature (h : signer.withSignature t signature = .ok u)
    (hlength : signature.length = signatureSize) : Attached signer t signature u := by
  obtain ⟨x, hsplit, hbytes, -, -, hid⟩ := Secp256k1.exists_parts hlength
  obtain ⟨hpayload, y, hsplit', hv, hr, hs⟩ := withSignature_eq_ok h
  obtain rfl : x = y := Except.ok.inj (hsplit.symm.trans hsplit')
  have hrecoveryId : u.v.val - signer.baseValue = x.recoveryId := by omega
  have hparts : (⟨u.r.val, u.s.val, u.v.val - signer.baseValue⟩ : Parts) = x := by
    rw [hr, hs, hrecoveryId]
  have hwritten : signer.IsWritten :=
    isWritten_of_baseValue_lt (Nat.lt_of_le_of_lt (hv ▸ Nat.le_add_left _ _) u.v.val_lt)
  have hsigned : ¬u.IsUnsigned := by
    intro hunsigned
    have hbase := baseValue_pos signer
    have hzero := hunsigned.1
    omega
  exact {
    samePayload := hpayload
    value_eq := by rw [hv, hid, recoveryValue]
    split_eq := by rw [hparts, hsplit]
    toBytes_eq := by rw [hparts, hbytes]
    chainId?_eq := fun hle => chainId?_of_recoveryId (hid ▸ hle) hv
    foreign := fun hge => by
      rw [sender_of_isForeign hsigned (isForeign_of_recoveryId (hid ▸ hge) hv),
        wrongChain_of_isWritten hwritten] }

theorem signatureOutcome (signer : Signer) (t : Transaction) (signature : Bytes) :
    SignatureOutcome signer t signature (signer.withSignature t signature) := by
  by_cases hlength : signature.length = signatureSize
  · obtain ⟨x, hsplit, -, hr, hs, hid⟩ := Secp256k1.exists_parts hlength
    obtain ⟨r, s, hsteps⟩ := exists_withSignature_eq signer t hsplit hr hs
    have hvalue : x.recoveryId + signer.baseValue = signer.recoveryValue signature := by
      rw [hid, recoveryValue]
    rw [hvalue] at hsteps
    by_cases hword : signer.recoveryValue signature < Nat.pow 2 256
    · obtain ⟨v, hv⟩ := @valueWord_of_lt "v" _ hword
      have hok : signer.withSignature t signature = .ok { t with v, r, s } := by
        rw [hsteps, hv, ok_bind, pure_eq_ok]
      rw [hok]
      exact .attached hlength hword (attached_of_withSignature hok hlength)
    · rw [hsteps, valueWord_of_le (Nat.not_lt.mp hword), error_bind, Fault.outOfRange,
        Fault.showing]
      split
      next hshown =>
        rw [Text.isWritten_iff, Int.natAbs_natCast] at hshown
        exact .tooGreat hlength (Nat.not_lt.mp hword) hshown
      next hlong =>
        rw [Text.isWritten_iff, Int.natAbs_natCast, Nat.not_lt] at hlong
        exact .tooLong hlength hlong
  · have hrefused : signer.withSignature t signature
        = .error (.signatureLength signature.length) := by
      unfold withSignature values
      rw [Secp256k1.split_of_length_ne hlength, error_bind, error_bind]
    rw [hrefused]
    exact .wrongLength hlength

theorem withSignature_eq_misuse (t : Transaction) (hlength : signature.length = signatureSize)
    (hlong : Nat.pow 10 Text.decimalLimit ≤ signer.recoveryValue signature) :
    signer.withSignature t signature = .error (.misuse .longNumeral) := by
  have hlow := Text.word_le_pow_decimalLimit.trans hlong
  have houtcome := signatureOutcome signer t signature
  generalize signer.withSignature t signature = result at houtcome ⊢
  cases houtcome with
  | wrongLength hne => exact absurd hlength hne
  | tooGreat _ _ hshown => exact absurd hshown (Nat.not_lt.mpr hlong)
  | tooLong => rfl
  | attached _ hvalue => exact absurd hvalue (Nat.not_lt.mpr hlow)

/-- Putting a signature into a transaction: what can come of it, and when the length is reported,
when the recovery value is and when there is a transaction. -/
theorem withSignature_outcomes (signer : Signer) (t : Transaction) (signature : Bytes) :
    SignatureOutcome signer t signature (signer.withSignature t signature) ∧
    ((∃ size, signer.withSignature t signature = .error (.signatureLength size)) ↔
      signature.length ≠ signatureSize) ∧
    ((∃ name problem, signer.withSignature t signature = .error (.argument name problem)) ↔
      signature.length = signatureSize ∧ Nat.pow 2 256 ≤ signer.recoveryValue signature ∧
        signer.recoveryValue signature < Nat.pow 10 Text.decimalLimit) ∧
    ((∃ u, signer.withSignature t signature = .ok u) ↔
      signature.length = signatureSize ∧ signer.recoveryValue signature < Nat.pow 2 256) := by
  have houtcome := signatureOutcome signer t signature
  refine ⟨houtcome, ?_⟩
  generalize signer.withSignature t signature = result at houtcome ⊢
  cases houtcome with
  | wrongLength hlength => simp [hlength]
  | tooGreat hlength hlow hshown => simpa [hlength, hlow] using hshown
  | tooLong hlength hlong =>
    have hlow := Text.word_le_pow_decimalLimit.trans hlong
    generalize Nat.pow 10 Text.decimalLimit = limit at hlong ⊢
    simp [hlength, hlow, hlong]
  | attached hlength hvalue => simp [hlength, hvalue]

/-- The greatest chain whose number can be written in decimal. -/
def lastWrittenChain : ChainId :=
  ⟨Nat.pow 10 Text.decimalLimit - 1, Nat.sub_pos_of_lt
    (Nat.lt_of_lt_of_le (by decide : 1 < Nat.pow 2 256) Text.word_le_pow_decimalLimit)⟩

/-- A recovery value far from a word is not reported as one, for its digits are too many. -/
theorem withSignature_longChain :
    let signer : Signer := replayProtected lastWrittenChain
    (Bytes.zero 65).length = signatureSize ∧
    Nat.pow 2 256 ≤ signer.recoveryValue (Bytes.zero 65) ∧
    signer.withSignature {} (Bytes.zero 65) = .error (.misuse .longNumeral) ∧
    ¬∃ name problem, signer.withSignature {} (Bytes.zero 65) = .error (.argument name problem) := by
  intro signer
  have hlength : (Bytes.zero 65).length = signatureSize := rfl
  have hlong : Nat.pow 10 Text.decimalLimit ≤ signer.recoveryValue (Bytes.zero 65) := by
    have hchain : lastWrittenChain.val = Nat.pow 10 Text.decimalLimit - 1 := rfl
    simp only [signer, recoveryValue, baseValue, hchain]
    omega
  have hmisuse := withSignature_eq_misuse {} hlength hlong
  refine ⟨hlength, Text.word_le_pow_decimalLimit.trans hlong, hmisuse, ?_⟩
  rintro ⟨name, problem, h⟩
  cases hmisuse.symm.trans h

end Signer

end EthWire
