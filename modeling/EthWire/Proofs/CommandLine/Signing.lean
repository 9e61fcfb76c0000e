import EthWire.Proofs.CommandLine.Course
import EthWire.Proofs.CommandLine.Reading
import EthWire.Proofs.CommandLine.Request
import EthWire.Proofs.Record.Document
import EthWire.Proofs.Record.Wire
import EthWire.Proofs.Signer.Sender

/-!
# Signing on the command line

What a run of the command to sign prints is read back as the transaction that the command line
asks for, signed with the key that it chooses. The command that recovers senders finds the
address of this key under the same global options.
-/

namespace EthWire

/-! ## Printed bytes -/

theorem Text.isBlank_digitChar : ∀ d < 16, (digitChar d).isBlank = false := by decide

namespace Bytes

theorem isBlank_of_mem_hexMarked {b : Bytes} {c : CodePoint} (h : c ∈ hexMarked b) :
    c.isBlank = false := by
  rcases List.mem_append.mp h with hmark | hdigits
  · have hblank : (Text.ofString "0x").all (fun d => !d.isBlank) = true := by decide
    simpa using List.all_eq_true.mp hblank c hmark
  · obtain ⟨x, -, hx⟩ := List.mem_flatMap.mp hdigits
    have hlt : x.toNat < 256 := x.toNat_lt
    have hhigh : x.toNat / 16 < 16 := by omega
    have hlow : x.toNat % 16 < 16 := by omega
    simp only [List.mem_cons, List.not_mem_nil, or_false] at hx
    rcases hx with rfl | rfl
    · exact Text.isBlank_digitChar _ hhigh
    · exact Text.isBlank_digitChar _ hlow

end Bytes

namespace CommandLine

theorem decodeHex_hexMarked (b : Bytes) (name : Text) : decodeHex (Bytes.hexMarked b) name = .ok b := by
  rw [decodeHex, Text.withoutHexMark, Bytes.hexMarked, Text.afterHexMark?_append, Option.getD_some,
    Bytes.ofHex_hex]
  rfl

theorem isPlain_hexMarked (b : Bytes) : IsPlain (Bytes.hexMarked b) := by
  intro rest h
  exact absurd (List.cons.inj h).1 (by decide)

/-- A text by itself, or the input if it is its only line and a dash stands for it. -/
inductive Hands (s : Surroundings) (t : Text) : Text → Prop
  | direct : Hands s t t
  | piped (h : s.input = unlines [t]) : Hands s t [dash]

theorem Hands.isPlain {s : Surroundings} {b : Bytes} {raw : Text}
    (h : Hands s (Bytes.hexMarked b) raw) : IsPlain raw := by
  cases h with
  | direct => exact isPlain_hexMarked b
  | piped h =>
    intro rest h
    exact (List.cons.inj h).2.symm

theorem Hands.readData {s : Surroundings} {b : Bytes} {raw : Text}
    (h : Hands s (Bytes.hexMarked b) raw) :
    readData s (some raw) = .ok (Bytes.hexMarked b) := by
  have hblank : ∀ c ∈ Bytes.hexMarked b, c.isBlank = false :=
    fun c => Bytes.isBlank_of_mem_hexMarked
  cases h with
  | direct =>
    have hdash : Bytes.hexMarked b ≠ [dash] := by
      intro h
      exact absurd (List.cons.inj h).1 (by decide)
    rw [CommandLine.readData, if_neg hdash, Text.strip_eq_self hblank]
  | piped h =>
    have hline : unlines [Bytes.hexMarked b] = Bytes.hexMarked b ++ [CodePoint.ofChar '\n'] := by
      simp [unlines]
    have hstrip : Text.strip CodePoint.isBlank (Bytes.hexMarked b ++ [CodePoint.ofChar '\n'])
        = Bytes.hexMarked b :=
      Text.strip_append (fun c hc => hblank c (List.mem_of_mem_head? hc))
        (fun c hc => hblank c (List.mem_of_getLast? hc)) (List.forall_mem_singleton.mpr rfl)
    rw [CommandLine.readData, if_pos rfl, h, hline, hstrip]

/-! ## What is asked for -/

open Transaction (SamePayload)

/-- A transaction with the fields that the options ask for. The recipient is missing if the
option is left out, and also if its value is empty. -/
structure Carries (x : Given OptionName) (t : Transaction) : Prop where
  nonce : x.number? .nonce = some (.number t.nonce.val)
  value : (x.number? .value).getD (.number 0) = .number t.value.val
  gas : (x.number? .gas).getD (.number 21000) = .number t.gas.val
  gasPrice : (x.number? .gasPrice).getD (.number 1) = .number t.gasPrice.val
  data : ∃ shown, (x.options.lookup .data).getD (some "0x") = some shown ∧
    decodeHex shown "data" = .ok t.data
  recipient : ∀ shown, filled (x.value? .recipient) = some shown →
    ∃ address, Fixed.ofHex shown = .ok address ∧ t.recipient = some address
  creation : filled (x.value? .recipient) = none → t.recipient = none

section Carries

variable {x : Given OptionName} {t u : Transaction} {nonce : GivenNumber}

theorem Carries.of_requested (hnonce : x.number? .nonce = some nonce)
    (h : requested (x.signingRequest nonce) = .ok t) : Carries x t := by
  obtain ⟨hrecipient, hdata, hn, hvalue, hgas, hgasPrice⟩ := requested_eq_ok h
  refine ⟨hnonce.trans (congrArg some hn), hvalue, hgas, hgasPrice, hdata, ?_, ?_⟩
  · intro shown hshown
    replace hrecipient : recipientOf (x.value? .recipient) = .ok t.recipient := hrecipient
    rw [recipientOf, hshown] at hrecipient
    obtain ⟨address, haddress, hsome⟩ := map_eq_ok.mp hrecipient
    exact ⟨address, haddress, hsome.symm⟩
  · intro hnone
    replace hrecipient : recipientOf (x.value? .recipient) = .ok t.recipient := hrecipient
    rw [recipientOf, hnone] at hrecipient
    exact (Except.ok.inj hrecipient).symm

/-- A signature changes nothing that was asked for. -/
theorem Carries.of_samePayload (h : Carries x t) (hsame : SamePayload t u) : Carries x u where
  nonce := by rw [hsame.nonce]; exact h.nonce
  value := by rw [hsame.value]; exact h.value
  gas := by rw [hsame.gas]; exact h.gas
  gasPrice := by rw [hsame.gasPrice]; exact h.gasPrice
  data := by rw [hsame.data]; exact h.data
  recipient := by rw [hsame.recipient]; exact h.recipient
  creation := by rw [hsame.recipient]; exact h.creation

end Carries

/-! ## What is printed -/

/-- A text from which a transaction is read back: its JSON, or its encoding in hexadecimal. The
bound is the one of the lengths that a mark can hold. -/
structure Shows (asJson : Bool) (t : Transaction) (shown : Text) : Prop where
  json : asJson = true → decodeJson shown = .ok t
  hex : asJson = false → shown = Bytes.hexMarked (encodeRlp t) ∧
    ((encodeRlp t).length < 2 ^ 64 →
      ∃ b, decodeHex shown "raw" = .ok b ∧ decodeRlp b = .ok t)

theorem decodeRlp_encodeRlp_transaction {t : Transaction} (hsize : (encodeRlp t).length < 2 ^ 64) :
    decodeRlp (encodeRlp t) = .ok t :=
  decodeRlp_encodeRlp t.ofItem_toItem (t.depth_toItem.trans_le (by decide)) hsize

theorem Shows.of_json {t : Transaction} {layout : Json.Layout} {shown : Text}
    (h : encodeJson t layout = .ok shown) : Shows true t shown where
  json _ := by
    rw [Json.dump_eq_ok h]
    exact t.decodeJson_write layout
  hex h := by cases h

theorem Shows.of_hex (t : Transaction) : Shows false t (Bytes.hexMarked (encodeRlp t)) where
  json h := by cases h
  hex _ := ⟨rfl, fun hsize =>
    ⟨_, decodeHex_hexMarked _ _, decodeRlp_encodeRlp_transaction hsize⟩⟩

/-! ## Runs -/

variable {i : Invocation} {s : Surroundings} {config : Config} {logger : Logging.Logger}
  {ready : Files} {request : SigningRequest}

/-- What a performed request printed, and the key that signed it. -/
theorem runSign_eq_ok {chainId : Value} {achieved : Achievement}
    (h : runSign config ready chainId request = .ok achieved) :
    ∃ key t u signer shown, loadKey request.source config ready = .ok key ∧
      requested request = .ok t ∧ Signer.forChain chainId = .ok signer ∧
      signer.sign t key = .ok u ∧ Shows request.asJson u shown ∧ achieved.output = [shown] := by
  obtain ⟨key, hkey, h⟩ := bind_eq_ok.mp h
  obtain ⟨u, hsigned, h⟩ := bind_eq_ok.mp h
  obtain ⟨t, ht, hsigned⟩ := bind_eq_ok.mp (mapError_eq_ok.mp hsigned)
  obtain ⟨signer, hsigner, hu⟩ := bind_eq_ok.mp hsigned
  cases hjson : request.asJson with
  | true =>
    rw [hjson] at h
    obtain ⟨shown, hshown, h⟩ := bind_eq_ok.mp h
    cases h
    exact ⟨key, t, u, signer, shown, hkey, ht, hsigner, hu, .of_json (mapError_eq_ok.mp hshown), rfl⟩
  | false =>
    rw [hjson] at h
    cases h
    exact ⟨key, t, u, signer, _, hkey, ht, hsigner, hu, .of_hex u, rfl⟩

/-- The command to recover a sender prints the address that the signer of its chain finds. -/
theorem run_sender {signer : Signer} {t : Transaction} {address : Address} {raw : Text}
    {args : List Text}
    (hread : Invocation.read args = .ok { i with command := .sender (some raw) })
    (hstarted : Started i s.files config logger ready)
    (hhands : Hands s (Bytes.hexMarked (encodeRlp t)) raw)
    (hsize : (encodeRlp t).length < 2 ^ 64)
    (hsigner : Signer.forChain (resolveChainId i config) = .ok signer)
    (hsender : signer.sender t = .ok address) :
    run args s = .finished 0 (unlines [address.checksumHex]) [] ready := by
  have hrun : runSender s (resolveChainId i config) (some raw) = .ok address.checksumHex := by
    rw [runSender, hhands.readData, ok_bind, decodeHex_hexMarked, ok_bind,
      decodeRlp_encodeRlp_transaction hsize, ok_bind, hsigner, ok_bind, hsender]
    rfl
  have hperform : perform s config ready { i with command := .sender (some raw) }
      = .ok ⟨[address.checksumHex], [], ready⟩ := by
    show (runSender s (resolveChainId i config) (some raw) >>= fun line =>
      pure (Achievement.mk [line] [] ready)) = _
    rw [hrun]
    rfl
  exact run_of_perform hread hstarted hperform

/-- The steps of a run of the command to sign that may fail. -/
inductive SigningFailure (i : Invocation) (request : SigningRequest) (s : Surroundings) :
    Failure → Prop
  | configuration {failure} (hload : loadConfig i s.files = .error failure) :
      SigningFailure i request s failure
  | log {config failure} (hload : loadConfig i s.files = .ok config)
      (hstart : Logging.Logger.start (logSettings i config) s.files = .error failure) :
      SigningFailure i request s failure
  | request {config logger ready failure} (hstarted : Started i s.files config logger ready)
      (hrequest : RequestFailure config ready (resolveChainId i config) request failure) :
      SigningFailure i request s failure

/-- How a run of the command to sign may end. The options behind the command are `x`, and the
arguments `front` stand in front of it. -/
inductive SigningOutcome (front : List Text) (x : Given OptionName) (i : Invocation)
    (request : SigningRequest) (s : Surroundings) : Ending → Prop
  /-- what is printed shows a transaction that carries what is asked for, its signer recovers
  the chosen key from it, and so does the other command -/
  | signed {config logger ready key signer t shown errors files}
      (hstarted : Started i s.files config logger ready)
      (hkey : loadKey x.keySource config ready = .ok key)
      (hsigner : Signer.forChain (resolveChainId i config) = .ok signer)
      (hcarries : Carries x t)
      (hshows : Shows (x.has .json) t shown)
      (hsender : signer.sender t = .ok key.address)
      (hrecovers : (encodeRlp t).length < 2 ^ 64 →
        ∀ {s' : Surroundings} {logger' ready' raw}, Started i s'.files config logger' ready' →
          Hands s' (Bytes.hexMarked (encodeRlp t)) raw →
          run (front ++ [Text.ofString "sender", raw]) s'
            = .finished 0 (unlines [key.address.checksumHex]) [] ready') :
      SigningOutcome front x i request s (.finished 0 (unlines [shown]) errors files)
  /-- a step fails, and nothing is printed -/
  | refused {failure message errors files} (hfailure : SigningFailure i request s failure)
      (hreport : report? failure = some message) :
      SigningOutcome front x i request s (.finished 1 [] errors files)
  | broken {failure} (hfailure : SigningFailure i request s failure) :
      SigningOutcome front x i request s (.broken failure)

/-- Whatever a command line asks to be signed, a run that succeeds prints it, signed with the
key of its source for the chain of its global options. A run that does not succeed has come to
a step that fails. -/
theorem run_sign {args : List Text} (hread : Invocation.read args = .ok i)
    (hcommand : i.command = .sign request) :
    ∃ front rest x, args = front ++ Text.ofString "sign" :: rest ∧
      Given.read signGrammar OptionName.stop? admissible rest = .ok x ∧
      SigningOutcome front x i request s (run args s) := by
  obtain ⟨front, rest, x, nonce, hargs, hx, hnonce, hrequest, hsenders⟩ :=
    Invocation.read_sign hread hcommand
  refine ⟨front, rest, x, hargs, hx, ?_⟩
  rw [run_of_read hread]
  have hperforms : ∀ config ready,
      perform s config ready i = runSign config ready (resolveChainId i config) request := by
    intro config ready
    rw [perform, hcommand]
  have hcourse := i.course s
  generalize i.run s = ending at hcourse ⊢
  cases hcourse with
  | unconfigured hload hreport => exact .refused (.configuration hload) hreport
  | unloadable hload _ => exact .broken (.configuration hload)
  | unlogged hload hstart => exact .broken (.log hload hstart)
  | failed hstarted hperform hreport =>
    rw [hperforms] at hperform
    exact .refused (.request hstarted (runSign_eq_error.mp hperform)) hreport
  | escaped hstarted hperform _ =>
    rw [hperforms] at hperform
    exact .broken (.request hstarted (runSign_eq_error.mp hperform))
  | done hstarted hperform =>
    rw [hperforms] at hperform
    obtain ⟨key, t, u, signer, shown, hkey, ht, hsigner, hu, hshows, houtput⟩ :=
      runSign_eq_ok hperform
    obtain ⟨hsame, hsigned⟩ := Signer.sign_signedBy hu
    subst hrequest
    rw [houtput]
    apply SigningOutcome.signed hstarted hkey hsigner _ hshows hsigned.sender_eq
    · intro hsize s' logger' ready' raw hstarted' hhands
      exact run_sender (hsenders raw hhands.isPlain) hstarted' hhands hsize hsigner
        hsigned.sender_eq
    · exact (Carries.of_requested hnonce ht).of_samePayload hsame

/-- A transfer for the main network, with the defaults for all that is left out. -/
theorem run_sign_transfer :
    let recipient := "0x3535353535353535353535353535353535353535"
    let key := "4646464646464646464646464646464646464646464646464646464646464646"
    let args : List Text :=
      ["--chain-id", "1", "sign", "--nonce", "9", "--to", recipient, "--key", key]
    let request : SigningRequest :=
      { recipient := some recipient, nonce := .number 9, value := .number 0, gas := .number 21000,
        gasPrice := .number 1, data := some "0x", asJson := false, source := ⟨some key, none⟩ }
    let i : Invocation :=
      { config := none, chainId := some (.number 1), legacy := false, logLevel := none,
        command := .sign request }
    let s : Surroundings := .ofFiles ⟨[], []⟩
    Invocation.read args = .ok i ∧ i.command = .sign request ∧
      ∃ front rest x, args = front ++ Text.ofString "sign" :: rest ∧
        Given.read signGrammar OptionName.stop? admissible rest = .ok x ∧
        SigningOutcome front x i request s (run args s) := by
  intro recipient key args request i s
  have hread : Invocation.read args = .ok i := by decide +kernel
  exact ⟨hread, rfl, run_sign hread rfl⟩

/-- An empty recipient is given and is no address, but the creation of a contract is signed and
printed. -/
theorem run_blankRecipient :
    let key := "4646464646464646464646464646464646464646464646464646464646464646"
    let args : List Text := ["sign", "--nonce", "0", "--to", "", "--key", key]
    let s : Surroundings := .ofFiles ⟨[], []⟩
    (∃ f, (Fixed.ofHex [] : Except Fault Address) = .error f) ∧
      ∃ (t : Transaction) (errors : Text) (files : Files),
        run args s = .finished 0 (unlines [Bytes.hexMarked (encodeRlp t)]) errors files ∧
          t.recipient = none := by
  intro key args s
  refine ⟨⟨_, rfl⟩, ?_⟩
  let request : SigningRequest :=
    { recipient := some [], nonce := .number 0, value := .number 0, gas := .number 21000,
      gasPrice := .number 1, data := some "0x", asJson := false, source := ⟨some key, none⟩ }
  let i : Invocation :=
    { config := none, chainId := none, legacy := false, logLevel := none, command := .sign request }
  have hread : Invocation.read args = .ok i := by decide +kernel
  obtain ⟨logger, ready, hstarted⟩ := @exists_started i {} s.files rfl (by decide +kernel)
  obtain ⟨u, hu⟩ := Signer.exists_sign_creation
  have hparsed : PrivateKey.ofHex key = .ok
      ⟨0x4646464646464646464646464646464646464646464646464646464646464646, by decide, by decide⟩ :=
    toOption_eq_some.mp (by decide +kernel)
  have hrequested : requested request
      = .ok { gas := ⟨21000, by decide⟩, gasPrice := ⟨1, by decide⟩ } := rfl
  have hsigner : Signer.forChain (.int 1) = .ok (.replayProtected ⟨1, by decide⟩) := rfl
  have hsigned : runSign {} ready (.int 1) request
      = .ok ⟨[Bytes.hexMarked (encodeRlp u)], [.signed u.summary (.int 1)], ready⟩ := by
    have hfilled : filled request.source.key = some (key : Text) := by decide +kernel
    rw [runSign, loadKey, hfilled]
    dsimp only
    rw [orFail, mapError_eq_ok.mpr hparsed, ok_bind, orFail, signRequested, hrequested, ok_bind,
      hsigner, ok_bind, mapError_eq_ok.mpr hu, ok_bind]
    rfl
  have hperform : perform s {} ready i = .ok _ := hsigned
  have hrun := (run_of_read hread).trans (Invocation.Course.done hstarted hperform).eq_run
  exact ⟨u, _, _, hrun, (Signer.sign_signedBy hu).1.recipient⟩

end CommandLine

end EthWire
