import EthWire.CommandLine.Run
import EthWire.Proofs.Record.Arguments

/-!
# What a request to sign asks for

The transaction that is made of a request, check by check.
-/

namespace EthWire.CommandLine

variable {bits : Nat} {name : Text}

/-- A number that fits its field is the value of the field, and nothing else is one. -/
theorem GivenNumber.asWord_toValue_eq_ok {g : GivenNumber} {w : Word bits} :
    g.toValue.asWord name = .ok w ↔ g = .number w.val := by
  constructor
  · intro h
    obtain ⟨k, hk, hw⟩ := bind_eq_ok.mp h
    cases g with
    | blank => cases hk
    | number n =>
      rw [toValue, Value.asNat] at hk
      split at hk
      · cases hk
      next hrange =>
        cases hk
        split at hw
        next v hv =>
          cases hw
          have hval := Word.ofNat?_eq_some.mp hv
          rw [← hval, Int.toNat_of_nonneg (by omega)]
        next => cases hw
  · rintro rfl
    exact Value.asWord_int w

/-- The checks of the numbers of a request, in their order. -/
def unsignedOf (request : SigningRequest) (recipient : Option Address) (data : Bytes) :
    Except Fault Transaction := do
  let nonce ← request.nonce.toValue.asWord "nonce"
  let gasPrice ← request.gasPrice.toValue.asWord "gas_price"
  let gas ← request.gas.toValue.asWord "gas"
  let value ← request.value.toValue.asWord "value"
  pure { nonce, gasPrice, gas, recipient, value, data }

theorem requested_eq {request : SigningRequest} {shown : Text} (hdata : request.data = some shown) :
    requested request = (do
      let recipient ← recipientOf request.recipient
      let data ← decodeHex shown "data"
      unsignedOf request recipient data) := by
  rw [requested, hdata]
  cases recipientOf request.recipient with
  | error f => rfl
  | ok recipient =>
    dsimp only
    rw [ok_bind, ok_bind]
    congr 1
    funext data
    cases recipient with
    | none =>
      simp [unsignedOf, Transaction.create, Transaction.build, Transaction.replace,
        Transaction.requireNames, Transaction.creationNames, Transaction.argumentNames,
        Transaction.recipientArgument, Arguments.get, Arguments.checkNames]
    | some address =>
      simp [unsignedOf, Transaction.create, Transaction.build, Transaction.replace,
        Transaction.requireNames, Transaction.creationNames, Transaction.argumentNames,
        Transaction.recipientArgument, Arguments.get, Arguments.checkNames]

/-- Without data there is nothing to sign. -/
theorem requested_without_data {request : SigningRequest} (hdata : request.data = none) :
    requested request = (do
      let _ ← recipientOf request.recipient
      .error (.misuse .wrongType)) := by
  rw [requested, hdata]
  rfl

theorem requested_eq_ok {request : SigningRequest} {t : Transaction}
    (h : requested request = .ok t) :
    recipientOf request.recipient = .ok t.recipient ∧
      (∃ shown, request.data = some shown ∧ decodeHex shown "data" = .ok t.data) ∧
      request.nonce = .number t.nonce.val ∧ request.value = .number t.value.val ∧
      request.gas = .number t.gas.val ∧ request.gasPrice = .number t.gasPrice.val := by
  cases hdata : request.data with
  | none =>
    rw [requested_without_data hdata] at h
    obtain ⟨_, -, h⟩ := bind_eq_ok.mp h
    cases h
  | some shown =>
    rw [requested_eq hdata] at h
    obtain ⟨recipient, hrecipient, h⟩ := bind_eq_ok.mp h
    obtain ⟨data, hbytes, h⟩ := bind_eq_ok.mp h
    obtain ⟨nonce, hnonce, h⟩ := bind_eq_ok.mp h
    obtain ⟨gasPrice, hgasPrice, h⟩ := bind_eq_ok.mp h
    obtain ⟨gas, hgas, h⟩ := bind_eq_ok.mp h
    obtain ⟨value, hvalue, h⟩ := bind_eq_ok.mp h
    cases h
    exact ⟨hrecipient, ⟨shown, rfl, hbytes⟩, GivenNumber.asWord_toValue_eq_ok.mp hnonce,
      GivenNumber.asWord_toValue_eq_ok.mp hvalue, GivenNumber.asWord_toValue_eq_ok.mp hgas,
      GivenNumber.asWord_toValue_eq_ok.mp hgasPrice⟩

/-! ## How a request fails -/

variable {config : Config} {files : Files} {chainId : Value} {request : SigningRequest}

/-- The steps of a request that may fail: the key, the signed transaction, and its JSON. -/
inductive RequestFailure (config : Config) (files : Files) (chainId : Value)
    (request : SigningRequest) : Failure → Prop
  | key {failure} (hkey : loadKey request.source config files = .error failure) :
      RequestFailure config files chainId request failure
  | signing {key fault} (hkey : loadKey request.source config files = .ok key)
      (hsigned : signRequested request key chainId = .error fault) :
      RequestFailure config files chainId request (.fault fault)
  | json {key t fault} (hkey : loadKey request.source config files = .ok key)
      (hsigned : signRequested request key chainId = .ok t) (hjson : request.asJson = true)
      (hshown : encodeJson t (layoutOf config) = .error fault) :
      RequestFailure config files chainId request (.fault fault)

theorem orFail_eq_error {α : Type} {x : Except Fault α} {failure : Failure} :
    orFail x = .error failure ↔ ∃ fault, x = .error fault ∧ failure = .fault fault := by
  cases x with
  | ok a => simp [orFail, Except.mapError]
  | error fault => simp [orFail, Except.mapError, eq_comm]

theorem runSign_eq_error {failure : Failure} :
    runSign config files chainId request = .error failure ↔
      RequestFailure config files chainId request failure := by
  constructor
  · intro h
    rcases bind_eq_error.mp h with hkey | ⟨key, hkey, h⟩
    · exact .key hkey
    rcases bind_eq_error.mp h with hfailed | ⟨t, hsigned, h⟩
    · obtain ⟨fault, hfault, rfl⟩ := orFail_eq_error.mp hfailed
      exact .signing hkey hfault
    cases hjson : request.asJson with
    | true =>
      rw [hjson] at h
      rcases bind_eq_error.mp h with hfailed | ⟨shown, -, h⟩
      · obtain ⟨fault, hfault, rfl⟩ := orFail_eq_error.mp hfailed
        exact .json hkey (mapError_eq_ok.mp hsigned) hjson hfault
      · cases h
    | false =>
      rw [hjson] at h
      cases h
  · intro h
    cases h with
    | key hkey => exact bind_eq_error.mpr (.inl hkey)
    | signing hkey hsigned =>
      rw [runSign, hkey, ok_bind, orFail_eq_error.mpr ⟨_, hsigned, rfl⟩]
      rfl
    | json hkey hsigned hjson hshown =>
      rw [runSign, hkey, ok_bind, orFail, mapError_eq_ok.mpr hsigned, ok_bind, hjson,
        if_pos rfl, orFail_eq_error.mpr ⟨_, hshown, rfl⟩]
      rfl

end EthWire.CommandLine
