import EthWire.Proofs.Record.Document
import EthWire.Proofs.Record.Wire
import EthWire.Proofs.Signer.Sender

/-!
# Histories of a transaction

A transaction goes through any number of signings and encodings. One step preserves the
payload, so a whole history does, and with it every signing digest; what a signing step
established lasts as long as its signature values do.
-/

namespace EthWire.Transaction

open Signer (forChain SignedBy)

inductive Step
  | unsigned
  /-- Takes the values of a signature, for a chain or for none. -/
  | withSignature (signature chain : Value)
  | sign (key : PrivateKey) (chain : Value)
  /-- Writes the transaction as bytes and reads it back. -/
  | throughRlp
  | throughJson (layout : Json.Layout)

namespace Step

def apply (t : Transaction) : Step → Except Fault Transaction
  | unsigned => .ok t.unsigned
  | withSignature signature chain => do
      let signer ← forChain chain
      signer.withSignatureArgument t signature
  | sign key chain => do
      let signer ← forChain chain
      signer.sign t key
  | throughRlp => decodeRlp (encodeRlp t)
  | throughJson layout => do decodeJson (← encodeJson t layout)

/-- The transaction after a step; one that fails leaves it as it was. -/
def next (t : Transaction) (step : Step) : Transaction :=
  match step.apply t with
  | .ok u => u
  | .error _ => t

end Step

/-- The transaction after a history. -/
def after (t : Transaction) (steps : List Step) : Transaction := steps.foldl Step.next t

/-- The values that a signature leaves in a transaction. -/
def signature (t : Transaction) : Word 256 × Word 256 × Word 256 := (t.v, t.r, t.s)

variable {t u : Transaction}

theorem SamePayload.eq_of_signature (h : SamePayload t u) (hsignature : u.signature = t.signature) :
    u = t := by
  obtain ⟨hv, hr, hs⟩ : u.v = t.v ∧ u.r = t.r ∧ u.s = t.s := by
    simpa [signature] using hsignature
  cases t
  cases u
  rw [mk.injEq]
  exact ⟨h.nonce, h.gasPrice, h.gas, h.recipient, h.value, h.data, hv, hr, hs⟩

/-! ## One step -/

theorem Step.apply_samePayload {step : Step} (h : step.apply t = .ok u) : SamePayload t u := by
  cases step with
  | unsigned =>
    cases h
    exact ⟨rfl, rfl, rfl, rfl, rfl, rfl⟩
  | withSignature signature chain =>
    obtain ⟨signer, -, hsigned⟩ := bind_eq_ok.mp h
    exact Signer.withSignatureArgument_samePayload hsigned
  | sign key chain =>
    obtain ⟨signer, -, hsigned⟩ := bind_eq_ok.mp h
    exact (Signer.sign_signedBy hsigned).1
  | throughRlp =>
    rw [eq_of_decodeRlp_encodeRlp t.ofItem_toItem h]
    exact .refl t
  | throughJson layout =>
    obtain ⟨text, htext, hread⟩ := bind_eq_ok.mp h
    rw [Json.dump_eq_ok htext] at hread
    obtain rfl := Except.ok.inj (hread.symm.trans (t.decodeJson_write layout))
    exact .refl u

theorem Step.next_samePayload (t : Transaction) (step : Step) : SamePayload t (step.next t) := by
  unfold next
  split
  next hstep => exact apply_samePayload hstep
  next => exact .refl t

/-! ## A whole history -/

theorem after_samePayload (t : Transaction) (steps : List Step) :
    SamePayload t (t.after steps) := by
  induction steps generalizing t with
  | nil => exact .refl t
  | cons step steps ih => exact (Step.next_samePayload t step).trans (ih (step.next t))

theorem after_append_cons {step : Step} (before behind : List Step)
    (h : step.apply (t.after before) = .ok u) :
    t.after (before ++ step :: behind) = u.after behind := by
  have hnext : step.next (t.after before) = u := by
    rw [Step.next, h]
  rw [after, List.foldl_append, List.foldl_cons]
  exact congrArg (fun w => after w behind) hnext

/-- No history changes the payload of a transaction or what is signed of it. If the signature
values at its end are those of a signing step that succeeded, as they are when no later step
changed them, the key of that step is the sender for the signers that the chain of the step
allows, and for no other ones. -/
theorem history_preserves (t : Transaction) (steps : List Step) :
    SamePayload t (t.after steps) ∧
    (∀ signer : Signer, signer.digest (t.after steps) = signer.digest t) ∧
    ∀ before behind key chain u, steps = before ++ .sign key chain :: behind →
      (Step.sign key chain).apply (t.after before) = .ok u →
      (u.after behind).signature = u.signature →
      ∃ signer, forChain chain = .ok signer ∧ SignedBy key (t.after steps) signer ∧
        signer.sender (t.after steps) = .ok key.address := by
  have hpayload := after_samePayload t steps
  refine ⟨hpayload, fun signer => Signer.digest_eq hpayload, ?_⟩
  intro before behind key chain u hsteps hsign hsignature
  obtain ⟨signer, hsigner, hsigned⟩ := bind_eq_ok.mp hsign
  have hlast := (after_samePayload u behind).eq_of_signature hsignature
  rw [hsteps, after_append_cons before behind hsign, hlast]
  have h := (Signer.sign_signedBy hsigned).2
  exact ⟨signer, hsigner, h, h.sender_eq⟩

/-- A creation is signed for the first chain. To the signer of a long chain it is one for another
chain, and yet no wrong chain is reported. -/
theorem history_longChain :
    let t : Transaction := { gas := ⟨21000, by decide⟩, gasPrice := ⟨1, by decide⟩ }
    let key : PrivateKey :=
      ⟨0x4646464646464646464646464646464646464646464646464646464646464646, by decide, by decide⟩
    ∃ u signer, (Step.sign key (.int 1)).apply t = .ok u ∧ t.after [.sign key (.int 1)] = u ∧
      u.chainId? = some 1 ∧ forChain (.int Signer.firstLongChain.val) = .ok signer ∧
      signer.sender u = .error (.misuse .longNumeral) ∧
      ¬∃ got expected, signer.sender u = .error (.chainId got expected) := by
  intro t key
  obtain ⟨u, hu⟩ := Signer.exists_sign_creation
  have hstep : (Step.sign key (.int 1)).apply t = .ok u :=
    bind_eq_ok.mpr ⟨_, Signer.forChain_val ⟨1, by decide⟩, hu⟩
  have hafter : t.after [.sign key (.int 1)] = u := after_append_cons [] [] hstep
  obtain ⟨hchain, -, hothers⟩ := (Signer.sign_signedBy hu).2
  have hother : Signer.replayProtected Signer.firstLongChain ≠ .replayProtected ⟨1, by decide⟩ := by
    intro h
    have hlong : 1 < Signer.firstLongChain.val := Signer.lt_firstLongChain (by decide)
    rw [Signer.replayProtected.inj h] at hlong
    exact Nat.lt_irrefl 1 hlong
  have hsender := (hothers _ hother).2 Signer.not_isWritten_firstLongChain
  refine ⟨u, _, hstep, hafter, hchain, Signer.forChain_val _, hsender, ?_⟩
  rintro ⟨got, expected, h⟩
  cases hsender.symm.trans h

end EthWire.Transaction
