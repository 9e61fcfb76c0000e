import EthWire.Proofs.Signer.Sender

/-!
# The outcomes of asking for a sender

What a signer answers about a transaction, for all recovery values, all `r` and `s` and all chains.
There are six outcomes, and the values of the transaction decide between them up to the last two,
where the recovery of the key does.
-/

namespace EthWire

/-! ## The values of a transaction -/

namespace Transaction

/-- Nobody has signed: the three signature values are zero. -/
def IsUnsigned (t : Transaction) : Prop := t.v.val = 0 ∧ t.r.val = 0 ∧ t.s.val = 0

/-- No signature has these values: the recovery value is 0 or 1, `r` or `s` is out of its range,
or `s` is the greater one of two. -/
def IsMalformed (t : Transaction) : Prop :=
  t.v.val = 0 ∨ t.v.val = 1 ∨ ¬(1 ≤ t.r.val ∧ t.r.val < Secp256k1.n) ∨
    ¬(1 ≤ t.s.val ∧ t.s.val < Secp256k1.n) ∨ Secp256k1.n / 2 < t.s.val

variable {t : Transaction}

theorem hasSignature_eq_false : t.hasSignature = false ↔ t.IsUnsigned := by
  simp [hasSignature, IsUnsigned, and_assoc]

theorem isProtected_eq_false : t.isProtected = false ↔ t.v.val ∈ [0, 1, 27, 28] := by
  rw [isProtected, Bool.not_eq_false', List.contains_iff_mem, unprotectedValues]

end Transaction

namespace Signer

open Secp256k1 (Parts)

variable {signer : Signer} {t : Transaction}

/-- The recovery values of other chains: those that belong to a chain, but not to the signer's. -/
def IsForeign : Signer → Nat → Prop
  | legacy, v => v ∉ [0, 1, 27, 28]
  | replayProtected c, v => v ∉ [0, 1, 27, 28] ∧ v ∉ [35 + 2 * c.val, 36 + 2 * c.val]

/-- The scheme that a recovery value names, and the recovery identifier that it holds. -/
inductive Names : Nat → Signer → Nat → Prop
  | legacy {v : Nat} (h : v ∈ [27, 28]) : Names v legacy (v - 27)
  | chain {v : Nat} (c : ChainId) (h : v ∈ [35 + 2 * c.val, 36 + 2 * c.val]) :
      Names v (replayProtected c) (v - 35 - 2 * c.val)

/-- What can come of the question who signed a transaction. -/
inductive SenderOutcome (signer : Signer) (t : Transaction) : Except Fault Address → Prop
  | unsigned (hunsigned : t.IsUnsigned) : SenderOutcome signer t (.error .missingSignature)
  /-- the transaction is for another chain; the report tells both -/
  | foreign (hsigned : ¬t.IsUnsigned) (hforeign : signer.IsForeign t.v.val)
      (hwritten : signer.IsWritten) :
      SenderOutcome signer t (.error (.chainId (chainValue t.chainId?) signer.chainId?))
  /-- the transaction is for another chain, and the chain of the signer has too many digits for a
  report -/
  | foreignUnshown (hsigned : ¬t.IsUnsigned) (hforeign : signer.IsForeign t.v.val)
      (hlong : ¬signer.IsWritten) : SenderOutcome signer t (.error (.misuse .longNumeral))
  | malformed {problem} (hsigned : ¬t.IsUnsigned) (hknown : ¬signer.IsForeign t.v.val)
      (hmalformed : t.IsMalformed) : SenderOutcome signer t (.error (.signature problem))
  /-- no key gave this signature over the digest of the scheme -/
  | unrecovered {scheme id problem} (hsigned : ¬t.IsUnsigned)
      (hknown : ¬signer.IsForeign t.v.val) (hformed : ¬t.IsMalformed)
      (hnames : Names t.v.val scheme id) (hscheme : scheme = legacy ∨ scheme = signer)
      (hrecover : Secp256k1.recover (scheme.digest t).bytes ⟨t.r.val, t.s.val, id⟩
        = .error (.signature problem)) : SenderOutcome signer t (.error (.signature problem))
  | recovered {scheme id key} (hsigned : ¬t.IsUnsigned)
      (hknown : ¬signer.IsForeign t.v.val) (hformed : ¬t.IsMalformed)
      (hnames : Names t.v.val scheme id) (hscheme : scheme = legacy ∨ scheme = signer)
      (hrecover : Secp256k1.recover (scheme.digest t).bytes ⟨t.r.val, t.s.val, id⟩ = .ok key) :
      SenderOutcome signer t (.ok (.ofPublicKey key))

/-! ## Chains -/

/-- From 35 on each chain has two recovery values. -/
theorem chainId?_eq_some {c : ChainId} :
    t.chainId? = some c.val ↔ t.v.val ∈ [35 + 2 * c.val, 36 + 2 * c.val] := by
  have hpos := c.property
  simp only [List.mem_cons, List.not_mem_nil, or_false]
  cases hprotected : t.isProtected with
  | false =>
    have hv := Transaction.isProtected_eq_false.mp hprotected
    simp only [List.mem_cons, List.not_mem_nil, or_false] at hv
    have hnone : t.chainId? = none := by simp [Transaction.chainId?, hprotected]
    rw [hnone]
    constructor
    · intro h
      cases h
    · omega
  | true =>
    by_cases hlow : t.v.val < 35
    · have hnone : t.chainId? = none := by simp [Transaction.chainId?, hlow]
      rw [hnone]
      constructor
      · intro h
        cases h
      · omega
    · have hsome : t.chainId? = some ((t.v.val - 35) / 2) := by
        simp [Transaction.chainId?, hprotected, hlow]
      rw [hsome, Option.some.injEq]
      omega

theorem isForeign_replayProtected {c : ChainId} :
    (replayProtected c).IsForeign t.v.val ↔
      t.isProtected = true ∧ t.chainId? ≠ some c.val := by
  rw [IsForeign, ← Transaction.isProtected_eq_false, Bool.not_eq_false, Ne, chainId?_eq_some]

theorem isForeign_legacy : legacy.IsForeign t.v.val ↔ t.isProtected = true := by
  rw [IsForeign, ← Transaction.isProtected_eq_false, Bool.not_eq_false]

theorem sender_of_isUnsigned (h : t.IsUnsigned) : signer.sender t = .error .missingSignature := by
  simp [sender, Transaction.hasSignature_eq_false.mpr h]

theorem hasSignature_of_not_isUnsigned (h : ¬t.IsUnsigned) : t.hasSignature = true := by
  rwa [← Bool.not_eq_false, Transaction.hasSignature_eq_false]

theorem sender_of_isForeign (hsigned : ¬t.IsUnsigned) (h : signer.IsForeign t.v.val) :
    signer.sender t = .error (.wrongChain (chainValue t.chainId?) signer.chainId?) := by
  have hsignature := hasSignature_of_not_isUnsigned hsigned
  cases signer with
  | legacy =>
    have hprotected := isForeign_legacy.mp h
    simp [sender, hsignature, hprotected, chainId?]
  | replayProtected c =>
    obtain ⟨hprotected, hchain⟩ := isForeign_replayProtected.mp h
    simp [sender, hsignature, hprotected, hchain, chainId?]

/-- Behind the check of the chain the recovery value chooses the scheme, or is 0 or 1. -/
theorem sender_of_not_isForeign (hsigned : ¬t.IsUnsigned) (h : ¬signer.IsForeign t.v.val) :
    ∃ scheme : Signer, (scheme = legacy ∨ scheme = signer) ∧
      signer.sender t = recoverAddress (scheme.digest t) t.r.val t.s.val
        ((t.v.val : Int) - scheme.baseValue) ∧
      (t.v.val ≤ 1 ∧ scheme = legacy ∨ ∃ id, Names t.v.val scheme id) := by
  have hsignature := hasSignature_of_not_isUnsigned hsigned
  cases hprotected : t.isProtected with
  | false =>
    refine ⟨legacy, .inl rfl, by simp [sender, hsignature, hprotected], ?_⟩
    have hv := Transaction.isProtected_eq_false.mp hprotected
    simp only [List.mem_cons, List.not_mem_nil, or_false] at hv
    by_cases hlow : t.v.val ≤ 1
    · exact .inl ⟨hlow, rfl⟩
    · refine .inr ⟨_, .legacy ?_⟩
      simp only [List.mem_cons, List.not_mem_nil, or_false]
      omega
  | true =>
    cases signer with
    | legacy => exact absurd (isForeign_legacy.mpr hprotected) h
    | replayProtected c =>
      have hchain : t.chainId? = some c.val := by
        by_contra hother
        exact h (isForeign_replayProtected.mpr ⟨hprotected, hother⟩)
      refine ⟨replayProtected c, .inr rfl, by simp [sender, hsignature, hprotected, hchain], ?_⟩
      exact .inr ⟨_, .chain c (chainId?_eq_some.mp hchain)⟩

theorem Names.recoveryId {v id : Nat} {scheme : Signer} (h : Names v scheme id) :
    id ≤ 1 ∧ (v : Int) - scheme.baseValue = id ∧ 1 < v := by
  cases h with
  | legacy hv =>
    simp only [List.mem_cons, List.not_mem_nil, or_false] at hv
    simp only [baseValue]
    omega
  | chain c hv =>
    simp only [List.mem_cons, List.not_mem_nil, or_false] at hv
    simp only [baseValue]
    omega

/-! ## Addresses -/

theorem recoverAddress_of_isMalformed {digest : Hash} {recoveryId : Int} (h : t.IsMalformed)
    (hlow : t.v.val ≤ 1 → recoveryId < 0) :
    ∃ problem, recoverAddress digest t.r.val t.s.val recoveryId = .error (.signature problem) := by
  unfold recoverAddress
  split
  next => exact ⟨_, rfl⟩
  next hid =>
    split
    next => exact ⟨_, rfl⟩
    next hrange =>
      split
      next => exact ⟨_, rfl⟩
      next hhigh =>
        -- no condition of the definition is left
        rw [Secp256k1.halfOrder] at hhigh
        unfold Transaction.IsMalformed at h
        omega

theorem recoverAddress_eq_recover {digest : Hash} {id : Nat} (hid : id ≤ 1)
    (h : ¬t.IsMalformed) :
    recoverAddress digest t.r.val t.s.val id
      = (Secp256k1.recover digest.bytes ⟨t.r.val, t.s.val, id⟩).map .ofPublicKey := by
  unfold Transaction.IsMalformed at h
  unfold recoverAddress
  rw [if_neg (by omega), if_neg (by omega), if_neg (by rw [Secp256k1.halfOrder]; omega),
    Int.toNat_natCast]

theorem inRange_of_not_isMalformed {id : Nat} (hid : id ≤ 1) (h : ¬t.IsMalformed) :
    Parts.InRange ⟨t.r.val, t.s.val, id⟩ := by
  unfold Transaction.IsMalformed at h
  constructor
  · show 0 < t.r.val
    omega
  · show t.r.val < Secp256k1.n
    omega
  · show 0 < t.s.val
    omega
  · show t.s.val < Secp256k1.n
    omega
  · exact hid

theorem sender_outcome (signer : Signer) (t : Transaction) :
    SenderOutcome signer t (signer.sender t) := by
  by_cases hunsigned : t.IsUnsigned
  · rw [sender_of_isUnsigned hunsigned]
    exact .unsigned hunsigned
  by_cases hforeign : signer.IsForeign t.v.val
  · rw [sender_of_isForeign hunsigned hforeign]
    by_cases hwritten : signer.IsWritten
    · rw [wrongChain_of_isWritten hwritten]
      exact .foreign hunsigned hforeign hwritten
    · rw [wrongChain_of_not_isWritten hwritten]
      exact .foreignUnshown hunsigned hforeign hwritten
  obtain ⟨scheme, hscheme, hsender, hvalue⟩ := sender_of_not_isForeign hunsigned hforeign
  rw [hsender]
  by_cases hmalformed : t.IsMalformed
  · obtain ⟨problem, hproblem⟩ :
        ∃ problem, recoverAddress (scheme.digest t) t.r.val t.s.val
          ((t.v.val : Int) - scheme.baseValue) = .error (.signature problem) := by
      apply recoverAddress_of_isMalformed hmalformed
      intro hlow
      rcases hvalue with ⟨-, rfl⟩ | ⟨id, hnames⟩
      · simp only [baseValue]
        omega
      · have hhigh := hnames.recoveryId.2.2
        omega
    rw [hproblem]
    exact .malformed hunsigned hforeign hmalformed
  · rcases hvalue with ⟨hlow, -⟩ | ⟨id, hnames⟩
    · unfold Transaction.IsMalformed at hmalformed
      omega
    · obtain ⟨hid, heq, -⟩ := hnames.recoveryId
      rw [heq, recoverAddress_eq_recover hid hmalformed]
      cases hrecover : Secp256k1.recover (scheme.digest t).bytes ⟨t.r.val, t.s.val, id⟩ with
      | ok key => exact .recovered hunsigned hforeign hmalformed hnames hscheme hrecover
      | error f =>
        obtain ⟨problem, rfl⟩ : ∃ problem, f = .signature problem := by
          rcases Secp256k1.recover_eq_error (inRange_of_not_isMalformed hid hmalformed) hrecover
            with rfl | rfl
          · exact ⟨_, rfl⟩
          · exact ⟨_, rfl⟩
        exact .unrecovered hunsigned hforeign hmalformed hnames hscheme hrecover

/-- Whatever its values, asking for the sender of a transaction comes to one of the outcomes above.
A missing signature is reported exactly for one that nobody has signed, and a wrong chain exactly
for a signed one whose recovery value belongs to another chain, if the chain of the signer can be
written; if it cannot, just these transactions have no report. -/
theorem sender_outcomes (signer : Signer) (t : Transaction) :
    SenderOutcome signer t (signer.sender t) ∧
    (signer.sender t = .error .missingSignature ↔ t.IsUnsigned) ∧
    ((∃ got expected, signer.sender t = .error (.chainId got expected)) ↔
      ¬t.IsUnsigned ∧ signer.IsForeign t.v.val ∧ signer.IsWritten) ∧
    ((∃ m, signer.sender t = .error (.misuse m)) ↔
      ¬t.IsUnsigned ∧ signer.IsForeign t.v.val ∧ ¬signer.IsWritten) := by
  have houtcome := sender_outcome signer t
  refine ⟨houtcome, ⟨fun hmissing => ?_, sender_of_isUnsigned⟩, ⟨?_, ?_⟩, ⟨?_, ?_⟩⟩
  · rw [hmissing] at houtcome
    cases houtcome with
    | unsigned hunsigned => exact hunsigned
  · rintro ⟨got, expected, hchain⟩
    rw [hchain] at houtcome
    cases houtcome with
    | foreign hsigned hforeign hwritten => exact ⟨hsigned, hforeign, hwritten⟩
  · rintro ⟨hsigned, hforeign, hwritten⟩
    rw [sender_of_isForeign hsigned hforeign, wrongChain_of_isWritten hwritten]
    exact ⟨_, _, rfl⟩
  · rintro ⟨m, hmisuse⟩
    rw [hmisuse] at houtcome
    cases houtcome with
    | foreignUnshown hsigned hforeign hlong => exact ⟨hsigned, hforeign, hlong⟩
  · rintro ⟨hsigned, hforeign, hlong⟩
    rw [sender_of_isForeign hsigned hforeign, wrongChain_of_not_isWritten hlong]
    exact ⟨_, rfl⟩

/-- A signed transaction for the first chain is one for another chain to the signer of a long one,
and yet no wrong chain is reported. -/
theorem sender_longChain :
    let t : Transaction := { v := ⟨37, by decide⟩, r := ⟨1, by decide⟩, s := ⟨1, by decide⟩ }
    let signer : Signer := replayProtected firstLongChain
    ¬t.IsUnsigned ∧ signer.IsForeign t.v.val ∧
      signer.sender t = .error (.misuse .longNumeral) ∧
      ¬∃ got expected, signer.sender t = .error (.chainId got expected) := by
  intro t signer
  have hsigned : ¬t.IsUnsigned := fun h => absurd h.1 (by decide)
  have hlong : 37 < firstLongChain.val := lt_firstLongChain (by decide)
  have hforeign : signer.IsForeign t.v.val := by
    refine ⟨by decide, ?_⟩
    generalize firstLongChain.val = c at hlong ⊢
    show 37 ∉ [35 + 2 * c, 36 + 2 * c]
    simp only [List.mem_cons, List.not_mem_nil, or_false]
    omega
  have hsender : signer.sender t = .error (.misuse .longNumeral) := by
    rw [sender_of_isForeign hsigned hforeign,
      wrongChain_of_not_isWritten not_isWritten_firstLongChain]
  refine ⟨hsigned, hforeign, hsender, ?_⟩
  rintro ⟨got, expected, h⟩
  cases hsender.symm.trans h

end Signer

end EthWire
