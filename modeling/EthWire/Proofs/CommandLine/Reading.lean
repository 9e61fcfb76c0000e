import EthWire.CommandLine.Invocation
import EthWire.Proofs.Hexadecimal
import EthWire.Proofs.Result

/-!
# What a command line gives

The global options stand in front of the command, and nothing behind it reaches them: with
another command behind them they are read as before.
-/

namespace EthWire.CommandLine

section Grammar

variable {ι : Type} {g : Grammar ι}

/-! ## Classes of arguments -/

theorem Grammar.tokens?_cons {word : Text} (hword : word ≠ separatorText) {token : Token ι}
    (htoken : g.classify? word = some token) {rest : List Text}
    {tokens : List (Text × Token ι)} (hrest : g.tokens? rest = some tokens) :
    g.tokens? (word :: rest) = some ((word, token) :: tokens) := by
  rw [tokens?, if_neg hword, htoken, hrest]
  rfl

theorem Grammar.tokens?_cons_eq_some {word : Text} (hword : word ≠ separatorText)
    {rest : List Text} {tokens : List (Text × Token ι)}
    (h : g.tokens? (word :: rest) = some tokens) :
    ∃ token behind, g.classify? word = some token ∧ g.tokens? rest = some behind ∧
      tokens = (word, token) :: behind := by
  rw [tokens?, if_neg hword] at h
  cases htoken : g.classify? word with
  | none =>
    rw [htoken] at h
    cases h
  | some token =>
    cases hrest : g.tokens? rest with
    | none =>
      rw [htoken, hrest] at h
      cases h
    | some behind =>
      rw [htoken, hrest] at h
      exact ⟨token, behind, rfl, rfl, (Option.some.inj h).symm⟩

theorem Grammar.map_fst_of_tokens? {args : List Text} {tokens : List (Text × Token ι)}
    (h : g.tokens? args = some tokens) : tokens.map Prod.fst = args := by
  induction args generalizing tokens with
  | nil =>
    cases h
    rfl
  | cons word rest ih =>
    by_cases hword : word = separatorText
    · rw [tokens?, if_pos hword] at h
      cases h
      simp [Function.comp_def]
    · obtain ⟨token, behind, -, hrest, rfl⟩ := tokens?_cons_eq_some hword h
      rw [List.map_cons, ih hrest]

/-- The classes of the arguments in front of a word do not depend on what comes behind them. -/
theorem Grammar.tokens?_exchange {front behind behind' : List (Text × Token ι)}
    {args : List Text} {other : Text} {rest : List Text} (h : g.tokens? args = some (front ++ behind))
    (hother : g.tokens? (other :: rest) = some ((other, .word) :: behind')) :
    ∃ tail, g.tokens? (front.map Prod.fst ++ other :: rest) = some (front ++ (other, .word) :: tail)
      ∧ tail.map Prod.fst = rest := by
  induction front generalizing args with
  | nil =>
    have hrest := map_fst_of_tokens? hother
    exact ⟨behind', hother, (List.cons.inj hrest).2⟩
  | cons p front ih =>
    cases args with
    | nil => cases h
    | cons word args =>
      by_cases hword : word = separatorText
      · -- everything behind a separator is a word
        rw [tokens?, if_pos hword] at h
        obtain ⟨rfl, htail⟩ := List.cons.inj (Option.some.inj h)
        have hfront : (front.map Prod.fst).map (fun w => (w, Token.word)) = front := by
          obtain ⟨words, hwords⟩ : ∃ words : List Text,
              front = words.map fun w => (w, (Token.word : Token ι)) := by
            obtain ⟨words, others, -, hwords, -⟩ := List.map_eq_append_iff.mp htail
            exact ⟨words, hwords.symm⟩
          rw [hwords]
          simp [Function.comp_def]
        refine ⟨rest.map fun w => (w, .word), ?_, by simp [Function.comp_def]⟩
        rw [List.map_cons, List.cons_append, tokens?, if_pos hword, List.map_append, hfront]
        rfl
      · obtain ⟨token, tokens, htoken, hargs, heq⟩ := tokens?_cons_eq_some hword h
        obtain ⟨rfl, rfl⟩ := List.cons.inj heq
        obtain ⟨tail, htokens, hrest⟩ := ih hargs
        exact ⟨tail, tokens?_cons hword htoken htokens, hrest⟩

/-- Only the separator itself is classed as one. -/
theorem Grammar.classify?_ne_separator (word : Text) : g.classify? word ≠ some .separator := by
  have hrest : ∀ arg, classify?.classifyRest? g arg ≠ some .separator := by
    intro arg h
    unfold classify?.classifyRest? at h
    split at h
    · cases h
    · cases h
    · split at h
      · cases h
      · cases h
  intro h
  unfold classify? at h
  split at h
  · cases h
  · split at h
    · cases h
    · split at h
      · cases h
      · split at h
        · split at h
          · cases h
          · exact hrest _ h
        · exact hrest _ h

/-- Behind a separator there are only words. -/
theorem Grammar.pairwise_of_tokens? {args : List Text} {tokens : List (Text × Token ι)}
    (h : g.tokens? args = some tokens) :
    tokens.Pairwise fun p q => p.2 = .separator → q.2 = .word := by
  induction args generalizing tokens with
  | nil =>
    cases h
    exact .nil
  | cons word rest ih =>
    by_cases hword : word = separatorText
    · rw [tokens?, if_pos hword] at h
      obtain rfl := Option.some.inj h
      have hwords : ∀ q ∈ rest.map fun w => (w, (Token.word : Token ι)), q.2 = .word := by
        intro q hq
        obtain ⟨w, -, rfl⟩ := List.mem_map.mp hq
        rfl
      refine List.pairwise_cons.mpr ⟨fun q hq _ => hwords q hq, ?_⟩
      exact List.pairwise_of_forall_mem_list fun _ _ q hq _ => hwords q hq
    · obtain ⟨token, tokens, htoken, hrest, rfl⟩ := tokens?_cons_eq_some hword h
      refine List.pairwise_cons.mpr ⟨fun q _ hseparator => ?_, ih hrest⟩
      obtain rfl : token = .separator := hseparator
      exact absurd htoken (classify?_ne_separator word)

/-! ## Events in front of a command -/

/-- An event that is no command. -/
def Event.IsOther (event : Event ι) : Prop := ∀ word rest, event ≠ .command word rest

/-- How the tokens of a command line start. -/
inductive Grammar.Start (g : Grammar ι) (left : Nat) : List (Text × Token ι) → Prop
  /-- with the command -/
  | command {word : Text} {rest : List (Text × Token ι)} : Start g left ((word, .word) :: rest)
  /-- with tokens that make an event, whatever comes behind them -/
  | event {front behind : List (Text × Token ι)} {event : Event ι} (hfront : front ≠ [])
      (hother : event.IsOther)
      (hevents : ∀ rest, g.eventsFrom left (front ++ rest) = event :: g.eventsFrom left rest) :
      Start g left (front ++ behind)
  /-- with tokens behind which there is no command -/
  | others {tokens : List (Text × Token ι)}
      (hothers : ∀ event ∈ g.eventsFrom left tokens, event.IsOther) : Start g left tokens

variable {left : Nat} {arg : Text} {spec : OptionSpec ι} {rest : List (Text × Token ι)}

theorem Grammar.eventsFrom_command (hoperands : g.operands = .command) :
    g.eventsFrom (left + 1) ((arg, .word) :: rest) = [.command arg (rest.map Prod.fst)] := by
  rw [eventsFrom.eq_def]
  dsimp only
  rw [hoperands]

theorem Grammar.Start.of_invalid {tokens : List (Text × Token ι)}
    (h : g.eventsFrom left tokens = [.invalid]) : g.Start left tokens := by
  apply Start.others
  intro event hevent
  rw [h, List.mem_singleton] at hevent
  subst hevent
  simp [Event.IsOther]

/-- A separator with a word behind it stands in place of the command, and none in front of it. -/
theorem Grammar.start_separator (hoperands : g.operands = .command)
    (hwords : ∀ q ∈ rest, q.2 = .word) : g.Start (left + 1) ((arg, .separator) :: rest) := by
  cases rest with
  | nil =>
    apply Start.others
    simp [eventsFrom, Event.IsOther]
  | cons q rest =>
    obtain ⟨word, token⟩ := q
    obtain rfl : token = .word := hwords _ (List.mem_cons_self ..)
    apply Start.of_invalid
    rw [eventsFrom.eq_def]
    dsimp only
    rw [hoperands]

/-- An option takes a value from behind it, if it takes one and has none attached. -/
theorem Grammar.start_option (attached : Option Text) :
    g.Start left ((arg, .option spec attached) :: rest) := by
  cases htakes : spec.takesValue with
  | true =>
    cases attached with
    | some value =>
      apply @Start.event _ _ _ [(arg, .option spec (some value))] rest
        (.option spec.id (placedValue value)) (by simp) (by simp [Event.IsOther])
      intro rest
      simp [eventsFrom, htakes]
    | none =>
      by_cases hvalue : ∃ value behind, rest = (value, .word) :: behind
      · obtain ⟨value, behind, rfl⟩ := hvalue
        apply @Start.event _ _ _ [(arg, .option spec none), (value, .word)] behind
          (.option spec.id (some value)) (by simp) (by simp [Event.IsOther])
        intro rest
        simp [eventsFrom, htakes]
      · apply Start.of_invalid
        rw [eventsFrom.eq_def]
        dsimp only
        rw [htakes]
        dsimp only
        split
        next value behind => exact absurd ⟨value, behind, rfl⟩ hvalue
        next => rfl
  | false =>
    cases attached with
    | some value =>
      apply Start.of_invalid
      simp [eventsFrom, htakes]
    | none =>
      apply @Start.event _ _ _ [(arg, .option spec none)] rest (.option spec.id none) (by simp)
        (by simp [Event.IsOther])
      intro rest
      simp [eventsFrom, htakes]

theorem Grammar.start (hoperands : g.operands = .command) {tokens : List (Text × Token ι)}
    (hwords : tokens.Pairwise fun p q => p.2 = .separator → q.2 = .word) :
    g.Start (left + 1) tokens := by
  cases tokens with
  | nil =>
    apply Start.others
    simp [eventsFrom]
  | cons p rest =>
    obtain ⟨arg, token⟩ := p
    cases token with
    | word => exact .command
    | option spec attached => exact start_option attached
    | separator =>
      exact start_separator hoperands fun q hq => (List.pairwise_cons.mp hwords).1 q hq rfl
    | unknownOption =>
      apply @Start.event _ _ _ [(arg, .unknownOption)] rest .surplus (by simp)
        (by simp [Event.IsOther])
      intro rest
      simp [eventsFrom]

end Grammar

/-! ## The command and what stands in front of it -/

section Given

variable {ι : Type} {g : Grammar ι} {stop? : ι → Option Stop}
  {check : Given ι → Event ι → Bool} {x y : Given ι}

/-- Only a command changes the command. -/
theorem Given.command_of_take {event : Event ι} (h : take stop? check x event = .ok y)
    (hother : event.IsOther) : y.command = x.command := by
  unfold take at h
  split at h
  · cases h
  · cases event with
    | option id value =>
      dsimp only at h
      split at h
      · cases h
      · cases h
        rfl
    | operand value =>
      cases h
      rfl
    | command word rest => exact absurd rfl (hother word rest)
    | surplus =>
      cases h
      rfl
    | invalid => cases h

theorem Given.command_of_foldlM {events : List (Event ι)}
    (h : events.foldlM (take stop? check) x = .ok y) (hothers : ∀ event ∈ events, event.IsOther) :
    y.command = x.command := by
  induction events generalizing x with
  | nil =>
    cases h
    rfl
  | cons event events ih =>
    rw [List.foldlM_cons] at h
    obtain ⟨z, hz, hfold⟩ := bind_eq_ok.mp h
    obtain ⟨hother, hothers⟩ := List.forall_mem_cons.mp hothers
    exact (ih hfold hothers).trans (command_of_take hz hother)

/-- The events up to the command stay the same if another command stands in its place. -/
theorem Given.exists_command {left : Nat} {tokens : List (Text × Token ι)} {word : Text}
    {rest : List Text}
    (hoperands : g.operands = .command)
    (hcheck : ∀ (z : Given ι) w r, check z (.command w r) = true)
    (hwords : tokens.Pairwise fun p q => p.2 = .separator → q.2 = .word)
    (h : (g.eventsFrom (left + 1) tokens).foldlM (take stop? check) x = .ok y)
    (hx : x.command = none) (hy : y.command = some (word, rest)) :
    ∃ front behind, tokens = front ++ (word, .word) :: behind ∧ behind.map Prod.fst = rest ∧
      ∀ other tail,
        (g.eventsFrom (left + 1) (front ++ (other, .word) :: tail)).foldlM (take stop? check) x
          = .ok { y with command := some (other, tail.map Prod.fst) } := by
  -- an event may take several tokens, so the induction is on their number
  induction hn : tokens.length using Nat.strong_induction_on generalizing tokens x with
  | _ n ih =>
    have hstart : g.Start (left + 1) tokens := Grammar.start hoperands hwords
    cases hstart with
    | @command first behind =>
      have hcommand : ∀ other (tail : List (Text × Token ι)),
          (g.eventsFrom (left + 1) ((other, .word) :: tail)).foldlM (take stop? check) x
            = .ok { x with command := some (other, tail.map Prod.fst) } := by
        intro other tail
        rw [Grammar.eventsFrom_command hoperands, List.foldlM_cons, take, hcheck]
        rfl
      rw [hcommand] at h
      cases h
      cases hy
      exact ⟨[], behind, rfl, rfl, hcommand⟩
    | @event p r e hfront hother hevents =>
      rw [hevents, List.foldlM_cons] at h
      obtain ⟨z, hz, hfold⟩ := bind_eq_ok.mp h
      have hlength : r.length < n := by
        have hpos := List.length_pos_of_ne_nil hfront
        rw [List.length_append] at hn
        omega
      obtain ⟨front, behind, rfl, hbehind, hexchange⟩ := ih r.length hlength
        (List.pairwise_append.mp hwords).2.1 hfold ((command_of_take hz hother).trans hx) rfl
      refine ⟨p ++ front, behind, by rw [List.append_assoc], hbehind, fun other tail => ?_⟩
      rw [List.append_assoc, hevents, List.foldlM_cons, hz, ok_bind, hexchange]
    | others hothers =>
      rw [command_of_foldlM h hothers, hx] at hy
      cases hy

/-- The arguments in front of the command are read as before with other ones behind them. -/
theorem Given.read_exchange {args rest : List Text} {word : Text}
    (hoperands : g.operands = .command)
    (hcheck : ∀ (z : Given ι) w r, check z (.command w r) = true)
    (h : Given.read g stop? check args = .ok y) (hy : y.command = some (word, rest)) :
    ∃ front, args = front ++ word :: rest ∧
      ∀ other behind tokens, g.tokens? (other :: behind) = some ((other, .word) :: tokens) →
        Given.read g stop? check (front ++ other :: behind)
          = .ok { y with command := some (other, behind) } := by
  have hevents : ∀ {args tokens}, g.tokens? args = some tokens →
      g.events args = g.eventsFrom (0 + 1) tokens := by
    intro args tokens htokens
    rw [Grammar.events, htokens]
    dsimp only
    rw [hoperands]
  rw [Given.read] at h
  cases htokens : g.tokens? args with
  | none =>
    rw [Grammar.events, htokens] at h
    have hnone := command_of_foldlM h (by simp [Event.IsOther])
    rw [hnone] at hy
    cases hy
  | some tokens =>
    rw [hevents htokens] at h
    obtain ⟨front, behind, rfl, rfl, hother⟩ :=
      exists_command hoperands hcheck (Grammar.pairwise_of_tokens? htokens) h rfl hy
    refine ⟨front.map Prod.fst, ?_, ?_⟩
    · rw [← Grammar.map_fst_of_tokens? htokens, List.map_append, List.map_cons]
    · intro other rest tail htail
      obtain ⟨after, hafter, rfl⟩ := Grammar.tokens?_exchange htokens htail
      rw [Given.read, hevents hafter, hother]

end Given

/-! ## Invocations -/

/-- A word that stands for itself by position: it is no option and no separator. -/
def IsPlain (word : Text) : Prop := ∀ rest, word = dash :: rest → rest = []

theorem Grammar.classify?_of_isPlain {ι : Type} {g : Grammar ι} {word : Text}
    (h : IsPlain word) : g.classify? word = some .word := by
  unfold classify?
  split
  · rfl
  next c rest =>
    by_cases hc : c = dash
    · subst hc
      rw [if_pos (.inr (h rest rfl))]
    · rw [if_pos (.inl hc)]

theorem IsPlain.ne_separatorText {word : Text} (h : IsPlain word) : word ≠ separatorText := by
  rintro rfl
  exact absurd (h [dash] rfl) (by simp)

theorem IsPlain.tokens?_cons {ι : Type} {g : Grammar ι} {word : Text} (h : IsPlain word)
    {rest : List Text} {tokens : List (Text × Token ι)} (hrest : g.tokens? rest = some tokens) :
    g.tokens? (word :: rest) = some ((word, .word) :: tokens) :=
  Grammar.tokens?_cons h.ne_separatorText (Grammar.classify?_of_isPlain h) hrest

theorem IsPlain.tokens? {ι : Type} {g : Grammar ι} {word : Text} (h : IsPlain word) :
    g.tokens? [word] = some [(word, .word)] := h.tokens?_cons rfl

theorem readSender_plain {raw : Text} (h : IsPlain raw) :
    readSender [raw] = .ok (.sender (some raw)) := by
  have hvalue : placedValue raw = some raw := if_neg h.ne_separatorText
  have hevents : (grammar [] (.words 1)).events [raw] = [.operand (some raw)] := by
    rw [Grammar.events, h.tokens?]
    show Grammar.eventsFrom _ 1 [(raw, Token.word)] = _
    rw [← hvalue]
    rfl
  rw [readSender, Given.read, hevents]
  rfl

theorem finish_eq_ok {α : Type} {x : Given OptionName} {command : Option α} {c : α} :
    finish x command = .ok c ↔ command = some c ∧ x.surplus = false := by
  unfold finish
  cases command with
  | none => simp
  | some d =>
    cases x.surplus with
    | true => simp
    | false => simp

/-- What a reader of a command gives: its arguments are read, and make a command. -/
theorem bind_finish_eq_ok {α : Type} {given : Except Stop (Given OptionName)}
    {command : Given OptionName → Option α} {c : α} :
    (given >>= fun x => finish x (command x)) = .ok c ↔
      ∃ x, given = .ok x ∧ command x = some c ∧ x.surplus = false := by
  rw [bind_eq_ok]
  simp only [finish_eq_ok]

/-- The invocation of a command under the global options of a reading. -/
def Given.invocation (x : Given OptionName) (command : Command) : Invocation :=
  { config := x.value? .config
    chainId := x.number? .chainId
    legacy := x.has .legacy
    logLevel := x.value? .logLevel
    command }

theorem Invocation.read_eq_ok {args : List Text} {i : Invocation} :
    Invocation.read args = .ok i ↔
      ∃ x word rest reader, Given.read globalGrammar OptionName.stop? admissible args = .ok x ∧
        x.command = some (word, rest) ∧ commandReader? word = some reader ∧
        reader rest = .ok i.command ∧ x.surplus = false ∧ i = x.invocation i.command := by
  rw [Invocation.read, bind_eq_ok]
  constructor
  · rintro ⟨x, hx, h⟩
    split at h
    next => cases h
    next word rest hcommand =>
      split at h
      next => cases h
      next reader hreader =>
        obtain ⟨command, hread, hfinish⟩ := bind_eq_ok.mp h
        obtain ⟨hi, hsurplus⟩ := finish_eq_ok.mp hfinish
        cases hi
        exact ⟨x, word, rest, reader, hx, hcommand, hreader, hread, hsurplus, rfl⟩
  · rintro ⟨x, word, rest, reader, hx, hcommand, hreader, hread, hsurplus, hi⟩
    refine ⟨x, hx, ?_⟩
    rw [hcommand]
    dsimp only
    rw [hreader]
    dsimp only
    rw [hread, ok_bind]
    exact finish_eq_ok.mpr ⟨congrArg some hi.symm, hsurplus⟩

/-- Arguments that spell the global options of `i`, with some command behind them. -/
def GlobalOptions (front : List Text) (i : Invocation) : Prop :=
  ∃ x word rest,
    Given.read globalGrammar OptionName.stop? admissible (front ++ word :: rest) = .ok x ∧
    x.command = some (word, rest) ∧ x.surplus = false ∧ i = x.invocation i.command

theorem Invocation.exists_globalOptions {args : List Text} {i : Invocation}
    (h : Invocation.read args = .ok i) :
    ∃ front word rest reader, args = front ++ word :: rest ∧ commandReader? word = some reader ∧
      reader rest = .ok i.command ∧ GlobalOptions front i := by
  obtain ⟨x, word, rest, reader, hx, hcommand, hreader, hread, hsurplus, hi⟩ := read_eq_ok.mp h
  obtain ⟨front, rfl, -⟩ := Given.read_exchange rfl (fun _ _ _ => rfl) hx hcommand
  exact ⟨front, word, rest, reader, rfl, hreader, hread, x, word, rest, hx, hcommand, hsurplus, hi⟩

/-- Behind global options any command can be asked for. -/
theorem GlobalOptions.read {front : List Text} {i : Invocation} (h : GlobalOptions front i)
    {word : Text} {rest : List Text} {reader : List Text → Except Stop Command} {command : Command}
    {tokens : List (Text × Token OptionName)} (hreader : commandReader? word = some reader)
    (hread : reader rest = .ok command)
    (htokens : globalGrammar.tokens? (word :: rest) = some ((word, .word) :: tokens)) :
    Invocation.read (front ++ word :: rest) = .ok { i with command } := by
  obtain ⟨x, other, tail, hx, hcommand, hsurplus, hi⟩ := h
  obtain ⟨front', hargs, hexchange⟩ := Given.read_exchange rfl (fun _ _ _ => rfl) hx hcommand
  obtain rfl := List.append_cancel_right hargs
  refine Invocation.read_eq_ok.mpr
    ⟨_, _, _, reader, hexchange word rest tokens htokens, rfl, hreader, hread, hsurplus, ?_⟩
  rw [hi]
  rfl

/-- Under the same global options the sender of a raw transaction can be asked for. -/
theorem Invocation.read_sender {args : List Text} {i : Invocation}
    (h : Invocation.read args = .ok i) :
    ∃ front word rest reader, args = front ++ word :: rest ∧ commandReader? word = some reader ∧
      reader rest = .ok i.command ∧
      ∀ raw, IsPlain raw →
        Invocation.read (front ++ [Text.ofString "sender", raw])
          = .ok { i with command := .sender (some raw) } := by
  obtain ⟨front, word, rest, reader, hargs, hreader, hread, hfront⟩ := exists_globalOptions h
  refine ⟨front, word, rest, reader, hargs, hreader, hread, fun raw hraw => ?_⟩
  have hname : IsPlain (Text.ofString "sender") := by
    intro rest h
    exact absurd (List.cons.inj h).1 (by decide)
  exact hfront.read rfl (readSender_plain hraw) (hname.tokens?_cons hraw.tokens?)

/-! ## Requests to sign -/

/-- What may stand behind the command to sign. -/
def signGrammar : Grammar OptionName :=
  grammar [.recipient, .nonce, .value, .gas, .gasPrice, .data, .json, .key, .keyfile] (.words 0)

/-- The request of given options, with defaults for those that may be left out. -/
def Given.signingRequest (x : Given OptionName) (nonce : GivenNumber) : SigningRequest :=
  { recipient := x.value? .recipient
    nonce
    value := (x.number? .value).getD (.number 0)
    gas := (x.number? .gas).getD (.number defaultGas)
    gasPrice := (x.number? .gasPrice).getD (.number 1)
    data := (x.options.lookup .data).getD (some "0x")
    asJson := x.has .json
    source := x.keySource }

theorem readSign_eq_ok {rest : List Text} {command : Command} :
    readSign rest = .ok command ↔
      ∃ x nonce, Given.read signGrammar OptionName.stop? admissible rest = .ok x ∧
        x.number? .nonce = some nonce ∧ x.surplus = false ∧
        command = .sign (x.signingRequest nonce) := by
  rw [readSign, bind_finish_eq_ok]
  constructor
  · rintro ⟨x, hx, hrequest, hsurplus⟩
    obtain ⟨nonce, hnonce, rfl⟩ := Option.map_eq_some_iff.mp hrequest
    exact ⟨x, nonce, hx, hnonce, hsurplus, rfl⟩
  · rintro ⟨x, nonce, hx, hnonce, hsurplus, rfl⟩
    exact ⟨x, hx, Option.map_eq_some_iff.mpr ⟨nonce, hnonce, rfl⟩, hsurplus⟩

/-- What each reader gives has the name that the reader stands under. -/
theorem commandReader?_name {word : Text} {reader : List Text → Except Stop Command}
    {rest : List Text} {command : Command} (hreader : commandReader? word = some reader)
    (h : reader rest = .ok command) : word = command.name := by
  obtain ⟨before, behind, hreaders, -⟩ := List.lookup_eq_some_iff.mp hreader
  have hmem := hreaders ▸ (List.mem_append_right before (List.mem_cons_self ..) :
    (word, reader) ∈ before ++ (word, reader) :: behind)
  simp only [List.mem_cons, List.not_mem_nil, or_false, Prod.mk.injEq] at hmem
  rcases hmem with ⟨rfl, rfl⟩ | ⟨rfl, rfl⟩ | ⟨rfl, rfl⟩ | ⟨rfl, rfl⟩ | ⟨rfl, rfl⟩
  · obtain ⟨x, -, hcommand, -⟩ := bind_finish_eq_ok.mp h
    cases hcommand
    rfl
  · obtain ⟨x, -, hcommand, -⟩ := bind_finish_eq_ok.mp h
    cases hcommand
    rfl
  · obtain ⟨x, -, hcommand, -⟩ := bind_finish_eq_ok.mp h
    split at hcommand
    next =>
      obtain ⟨kind, -, rfl⟩ := Option.map_eq_some_iff.mp hcommand
      rfl
    next => cases hcommand
  · obtain ⟨x, nonce, -, -, -, rfl⟩ := readSign_eq_ok.mp h
    rfl
  · obtain ⟨x, -, hcommand, -⟩ := bind_finish_eq_ok.mp h
    split at hcommand
    next =>
      cases hcommand
      rfl
    next => cases hcommand

/-- A command line that asks for a signature: the global options, the word `sign`, and the
options of the request. -/
theorem Invocation.read_sign {args : List Text} {i : Invocation} {request : SigningRequest}
    (h : Invocation.read args = .ok i) (hcommand : i.command = .sign request) :
    ∃ front rest x nonce, args = front ++ Text.ofString "sign" :: rest ∧
      Given.read signGrammar OptionName.stop? admissible rest = .ok x ∧
      x.number? .nonce = some nonce ∧ request = x.signingRequest nonce ∧
      ∀ raw, IsPlain raw →
        Invocation.read (front ++ [Text.ofString "sender", raw])
          = .ok { i with command := .sender (some raw) } := by
  obtain ⟨front, word, rest, reader, hargs, hreader, hread, hsender⟩ := read_sender h
  rw [hcommand] at hread
  obtain rfl : word = Text.ofString "sign" := commandReader?_name hreader hread
  obtain rfl : readSign = reader := Option.some.inj hreader
  obtain ⟨x, nonce, hx, hnonce, -, hrequest⟩ := readSign_eq_ok.mp hread
  exact ⟨front, rest, x, nonce, hargs, hx, hnonce, Command.sign.inj hrequest, hsender⟩

/-! ## Records to decode -/

theorem WireKind.isPlain_name (kind : WireKind) : IsPlain kind.name := by
  intro rest h
  cases kind <;> exact absurd (List.cons.inj h).1 (by decide)

/-- What may stand behind the command to decode. -/
def decodeGrammar : Grammar OptionName := grammar [.fromJson] (.words 2)

theorem readDecode_plain (kind : WireKind) {raw : Text} (h : IsPlain raw) :
    readDecode [kind.name, raw] = .ok (.decode kind (some raw) false) := by
  have hkind : placedValue kind.name = some kind.name := if_neg kind.isPlain_name.ne_separatorText
  have hraw : placedValue raw = some raw := if_neg h.ne_separatorText
  have hevents : decodeGrammar.events [kind.name, raw]
      = [.operand (some kind.name), .operand (some raw)] := by
    rw [Grammar.events, kind.isPlain_name.tokens?_cons h.tokens?]
    show Grammar.eventsFrom _ 2 [(kind.name, Token.word), (raw, Token.word)] = _
    rw [← hkind, ← hraw]
    rfl
  show (Given.read decodeGrammar _ _ _ >>= _) = _
  rw [Given.read, hevents]
  cases kind <;> rfl

theorem readDecode_fromJson (kind : WireKind) {raw : Text} (h : IsPlain raw) :
    readDecode [kind.name, Text.ofString "--from-json", raw]
      = .ok (.decode kind (some raw) true) := by
  have hkind : placedValue kind.name = some kind.name := if_neg kind.isPlain_name.ne_separatorText
  have hraw : placedValue raw = some raw := if_neg h.ne_separatorText
  have hoption : decodeGrammar.tokens? [Text.ofString "--from-json", raw] =
      some [(Text.ofString "--from-json", .option OptionName.fromJson.spec none), (raw, .word)] :=
    Grammar.tokens?_cons (by decide) rfl h.tokens?
  have hevents : decodeGrammar.events [kind.name, Text.ofString "--from-json", raw]
      = [.operand (some kind.name), .option .fromJson none, .operand (some raw)] := by
    rw [Grammar.events, kind.isPlain_name.tokens?_cons hoption]
    show Grammar.eventsFrom _ 2 [(kind.name, Token.word),
      (Text.ofString "--from-json", Token.option OptionName.fromJson.spec none),
      (raw, Token.word)] = _
    rw [← hkind, ← hraw]
    rfl
  show (Given.read decodeGrammar _ _ _ >>= _) = _
  rw [Given.read, hevents]
  cases kind <;> rfl

theorem isPlain_decode : IsPlain (Text.ofString "decode") := by
  intro rest h
  exact absurd (List.cons.inj h).1 (by decide)

/-- Behind the same global options a record can be asked for, of its encoding or of its JSON. -/
theorem GlobalOptions.read_decode {front : List Text} {i : Invocation} (h : GlobalOptions front i)
    (kind : WireKind) {raw : Text} (hraw : IsPlain raw) :
    Invocation.read (front ++ [Text.ofString "decode", kind.name, raw])
      = .ok { i with command := .decode kind (some raw) false } :=
  h.read rfl (readDecode_plain kind hraw)
    (isPlain_decode.tokens?_cons (kind.isPlain_name.tokens?_cons hraw.tokens?))

theorem GlobalOptions.read_decodeJson {front : List Text} {i : Invocation}
    (h : GlobalOptions front i) (kind : WireKind) {raw : Text} (hraw : IsPlain raw) :
    Invocation.read (front ++ [Text.ofString "decode", kind.name, Text.ofString "--from-json", raw])
      = .ok { i with command := .decode kind (some raw) true } := by
  have hoption : globalGrammar.tokens? [Text.ofString "--from-json", raw]
      = some [(Text.ofString "--from-json", .unknownOption), (raw, .word)] :=
    Grammar.tokens?_cons (by decide) rfl hraw.tokens?
  exact h.read rfl (readDecode_fromJson kind hraw)
    (isPlain_decode.tokens?_cons (kind.isPlain_name.tokens?_cons hoption))

end EthWire.CommandLine
