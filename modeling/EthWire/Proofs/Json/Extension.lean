import EthWire.Proofs.Json.Number

/-!
# Texts that go on

What is read from a text is also read where the text goes on with something that can stand behind
a value, and just that is left over then. Only a number looks at what follows it, and a string
ends with its quote. Inside of brackets there are fewer levels left, so there the reader may also
give up.
-/

namespace EthWire.Json

variable {t rest more s : Text} {c p : CodePoint} {n : Nat} {j : Json}

theorem skipSpace_append_of_eq_nil (h : skipSpace t = []) (more : Text) :
    skipSpace (t ++ more) = skipSpace more := by
  unfold skipSpace at h ⊢
  rw [List.dropWhile_append, h]
  rfl

theorem skipSpace_append_of_ne_nil (h : skipSpace t ≠ []) (more : Text) :
    skipSpace (t ++ more) = skipSpace t ++ more := by
  unfold skipSpace at h ⊢
  rw [List.dropWhile_append, if_neg (by simpa using h)]

theorem skipSpace_append_of_cons (h : skipSpace t = c :: rest) (more : Text) :
    skipSpace (t ++ more) = c :: (rest ++ more) := by
  rw [skipSpace_append_of_ne_nil (h ▸ List.cons_ne_nil c rest), h, List.cons_append]

/-! ## Strings -/

theorem hexUnit?_append (h : hexUnit? t = some (n, rest)) (more : Text) :
    hexUnit? (t ++ more) = some (n, rest ++ more) := by
  unfold hexUnit? at h
  split at h
  next a b c d e behind =>
    obtain ⟨ds, hds, h⟩ := Option.bind_eq_some_iff.mp h
    obtain ⟨rfl, rfl⟩ := Prod.mk.inj (Option.some.inj h)
    show ([a, b, c, d].mapM Text.hexDigit?).bind _ = _
    rw [hds]
    rfl
  next => cases h

theorem lowEscape?_append_of_some (h : lowEscape? t = some (n, rest)) (more : Text) :
    lowEscape? (t ++ more) = some (n, rest ++ more) := by
  unfold lowEscape? at h
  split at h
  next c u behind =>
    split_ifs at h with hmark
    obtain ⟨hunit, hlow⟩ := Option.filter_eq_some_iff.mp h
    rw [List.cons_append, List.cons_append, lowEscape?, if_pos hmark, hexUnit?_append hunit]
    exact Option.filter_eq_some_iff.mpr ⟨rfl, hlow⟩
  next => cases h

theorem lowEscape?_of_not_slash (hc : c.val ≠ 0x5c) (t : Text) : lowEscape? (c :: t) = none := by
  cases t with
  | nil => rfl
  | cons u t => rw [lowEscape?, if_neg fun h => hc h.1]

/-- An escape that is cut off is no part of a string, so none is completed by what follows. -/
theorem lowEscape?_append_of_none {found : Option CodePoint × Text} (h : lowEscape? t = none)
    (hpoint : stringPoint t = .ok found) (more : Text) : lowEscape? (t ++ more) = none := by
  cases t with
  | nil => cases hpoint
  | cons c t =>
    by_cases hslash : c.val = 0x5c
    · cases t with
      | nil =>
        rw [stringPoint, if_neg (by omega), if_pos hslash] at hpoint
        cases hpoint
      | cons u t =>
        rw [List.cons_append, List.cons_append, lowEscape?]
        by_cases hu : u.val = 0x75
        · rw [stringPoint, if_neg (by omega), if_pos hslash] at hpoint
          dsimp only at hpoint
          rw [if_pos hu] at hpoint
          obtain ⟨_, hescape, -⟩ := map_eq_ok.mp hpoint
          unfold unicodeEscape at hescape
          split at hescape
          next => cases hescape
          next unit behind hunit =>
            have hunit : hexUnit? t = some (unit, behind) := hunit
            rw [lowEscape?, if_pos ⟨hslash, hu⟩, hunit] at h
            rw [if_pos ⟨hslash, hu⟩, hexUnit?_append hunit]
            rw [Option.filter_some] at h ⊢
            split_ifs at h with hlow
            rw [if_neg hlow]
        · rw [if_neg fun h => hu h.2]
    · exact lowEscape?_of_not_slash hslash _

/-- What a string goes on with tells that an escape is complete. -/
theorem unicodeEscape_append {found : Option CodePoint × Text}
    (h : unicodeEscape t = .ok (p, rest)) (hrest : stringPoint rest = .ok found) (more : Text) :
    unicodeEscape (t ++ more) = .ok (p, rest ++ more) := by
  unfold unicodeEscape at h ⊢
  split at h
  next => cases h
  next high behind hunit =>
    have hdrop : (t ++ more).drop 1 = t.drop 1 ++ more := by
      cases t with
      | nil => cases hunit
      | cons c t => rfl
    rw [hdrop, hexUnit?_append hunit]
    dsimp only
    split at h
    next low after hpair =>
      obtain ⟨rfl, rfl⟩ := Prod.mk.inj (Except.ok.inj h)
      split_ifs at hpair with hhigh
      rw [if_pos hhigh, lowEscape?_append_of_some hpair]
    next hsingle =>
      obtain ⟨rfl, rfl⟩ := Prod.mk.inj (Except.ok.inj h)
      have hnone : (if isHighSurrogate high then lowEscape? (behind ++ more) else none) = none := by
        split_ifs at hsingle ⊢ with hhigh
        · exact lowEscape?_append_of_none hsingle hrest more
        · rfl
      rw [hnone]

theorem stringPoint_append {point : Option CodePoint} (h : stringPoint t = .ok (point, rest))
    (hrest : point ≠ none → ∃ found, stringPoint rest = .ok found) (more : Text) :
    stringPoint (t ++ more) = .ok (point, rest ++ more) := by
  cases t with
  | nil => cases h
  | cons c t =>
    unfold stringPoint at h ⊢
    dsimp only [List.cons_append] at h ⊢
    split_ifs at h ⊢ with hquote hslash hcontrol
    · obtain ⟨rfl, rfl⟩ := Prod.mk.inj (Except.ok.inj h)
      rfl
    · cases t with
      | nil => cases h
      | cons e t =>
        dsimp only [List.cons_append] at h ⊢
        split_ifs at h ⊢ with hu
        · obtain ⟨⟨q, r⟩, hescape, h⟩ := map_eq_ok.mp h
          obtain ⟨rfl, rfl⟩ := Prod.mk.inj h
          obtain ⟨found, hfound⟩ := hrest (Option.some_ne_none q)
          rw [← List.cons_append, unicodeEscape_append hescape hfound]
          rfl
        · split at h
          next q hshort =>
            obtain ⟨rfl, rfl⟩ := Prod.mk.inj (Except.ok.inj h)
            rfl
          next => cases h
    · obtain ⟨rfl, rfl⟩ := Prod.mk.inj (Except.ok.inj h)
      rfl

theorem stringBody_append {fuel fuel' : Nat} (h : stringBody fuel t = .ok (s, rest))
    (hfuel : fuel ≤ fuel') (more : Text) :
    stringBody fuel' (t ++ more) = .ok (s, rest ++ more) := by
  induction fuel generalizing t s fuel' with
  | zero => cases h
  | succ fuel ih =>
    obtain ⟨fuel', rfl⟩ := Nat.exists_eq_add_one_of_ne_zero (Nat.ne_of_gt (Nat.zero_lt_of_lt hfuel))
    obtain ⟨⟨point, behind⟩, hpoint, h⟩ := bind_eq_ok.mp h
    cases point with
    | none =>
      obtain ⟨rfl, rfl⟩ := Prod.mk.inj (Except.ok.inj h)
      rw [stringBody, stringPoint_append hpoint fun hne => absurd rfl hne]
      rfl
    | some p =>
      obtain ⟨⟨after, last⟩, hafter, h⟩ := bind_eq_ok.mp h
      obtain ⟨rfl, rfl⟩ := Prod.mk.inj (Except.ok.inj h)
      have hnext : ∃ found, stringPoint behind = .ok found := by
        cases fuel with
        | zero => cases hafter
        | succ fuel =>
          obtain ⟨found, hfound, -⟩ := bind_eq_ok.mp hafter
          exact ⟨found, hfound⟩
      rw [stringBody, stringPoint_append hpoint fun _ => hnext, ok_bind]
      dsimp only
      rw [ih hafter (Nat.le_of_succ_le_succ hfuel)]
      rfl

theorem string_append (h : string c t = .ok (s, rest)) (more : Text) :
    string c (t ++ more) = .ok (s, rest ++ more) := by
  have hbody := mapError_eq_ok.mp h
  refine mapError_eq_ok.mpr (stringBody_append hbody ?_ more)
  rw [List.length_append]
  omega

/-! ## Numbers and words -/

/-- What may stand behind a value is no part of a number. -/
theorem EndsValue.takeDigits_eq (hmore : EndsValue more) : takeDigits more = ([], more) :=
  takeDigits_append (List.forall_mem_nil _) hmore.stops.1

theorem takeDigits_append_more (hmore : EndsValue more) (t : Text) :
    takeDigits (t ++ more) = ((takeDigits t).1, (takeDigits t).2 ++ more) := by
  induction t with
  | nil => exact hmore.takeDigits_eq
  | cons c t ih =>
    rw [List.cons_append, takeDigits, takeDigits]
    split
    · rw [ih]
    · rfl

theorem wholeDigits_append (hmore : EndsValue more) (h : (wholeDigits t).1.isEmpty = false) :
    wholeDigits (t ++ more) = ((wholeDigits t).1, (wholeDigits t).2 ++ more) := by
  cases t with
  | nil => cases h
  | cons c t =>
    rw [List.cons_append, wholeDigits, wholeDigits]
    split_ifs
    · rfl
    · exact takeDigits_append_more hmore (c :: t)

theorem fraction_append (hmore : EndsValue more) (t : Text) :
    fraction (t ++ more) = ((fraction t).1, (fraction t).2 ++ more) := by
  cases t with
  | nil => exact fraction_text none hmore.stops.1 hmore.stops.2.1
  | cons c t =>
    rw [List.cons_append, fraction, fraction]
    split_ifs
    · rw [takeDigits_append_more hmore]
      cases takeDigits t with
      | mk ds after =>
        cases ds with
        | nil => rfl
        | cons d ds => rfl
    · rfl

theorem splitSign_append (hmore : EndsValue more) (t : Text) :
    Text.splitSign (t ++ more) = ((Text.splitSign t).1, (Text.splitSign t).2 ++ more) := by
  cases t with
  | nil =>
    cases more with
    | nil => rfl
    | cons c more =>
      have hc := hmore c rfl
      show Text.splitSign (c :: more) = (false, c :: more)
      rw [Text.splitSign, if_neg (by omega), if_neg (by omega)]
  | cons c t =>
    rw [List.cons_append, Text.splitSign, Text.splitSign]
    split_ifs
    · rfl
    · rfl
    · rfl

theorem power_append (hmore : EndsValue more) (t : Text) :
    power (t ++ more) = ((power t).1, (power t).2 ++ more) := by
  cases t with
  | nil => exact power_text none hmore.stops.1 hmore.stops.2.2
  | cons c t =>
    rw [List.cons_append, power, power]
    split_ifs
    · rw [splitSign_append hmore]
      dsimp only
      rw [takeDigits_append_more hmore]
      cases takeDigits (Text.splitSign t).2 with
      | mk ds after =>
        cases ds with
        | nil => rfl
        | cons d ds => rfl
    · rfl

theorem number_append (hmore : EndsValue more) (h : number t = .ok (j, rest)) :
    number (t ++ more) = .ok (j, rest ++ more) := by
  cases number_eq_ok_iff.mp h with
  | @parts negative unsigned afterWhole afterPlaces _ whole places exponent hfirst hwhole hnonempty
      hplaces hpower hlimit =>
    have hwholeMore := wholeDigits_append hmore (by rwa [hwhole] : (wholeDigits unsigned).1.isEmpty
      = false)
    have hplacesMore := fraction_append hmore afterWhole
    have hpowerMore := power_append hmore afterPlaces
    rw [hwhole] at hwholeMore
    rw [hplaces] at hplacesMore
    rw [hpower] at hpowerMore
    rw [List.append_assoc]
    refine number_eq_ok negative ?_ hwholeMore hnonempty hplacesMore hpowerMore hlimit
    exact head?_ne_minus (by rwa [hwholeMore])

theorem dropWord?_eq_some {word : Text} (h : dropWord? word t = some rest) : t = word ++ rest := by
  fun_induction dropWord? word t with
  | case1 t =>
    obtain rfl := Option.some.inj h
    rfl
  | case2 => cases h
  | case3 ws w after ih => rw [ih h, List.cons_append]
  | case4 => cases h

/-- A word is read wherever it stands, for none is the start of another one. -/
theorem word?_append (h : word? t = some (j, rest)) (more : Text) :
    word? (t ++ more) = some (j, rest ++ more) := by
  have hwords : ∀ word ∈ words, ∀ behind : Text,
      word? (word.1 ++ behind) = some (word.2, behind) := by
    simp only [words, List.forall_mem_cons, List.not_mem_nil, false_implies, implies_true, and_true]
    exact ⟨fun _ => rfl, fun _ => rfl, fun _ => rfl, fun _ => rfl, fun _ => rfl, fun _ => rfl⟩
  obtain ⟨word, hword, hfound⟩ := List.exists_of_findSome?_eq_some h
  obtain ⟨behind, hdrop, hfound⟩ := Option.map_eq_some_iff.mp hfound
  obtain ⟨rfl, rfl⟩ := Prod.mk.inj hfound
  rw [dropWord?_eq_some hdrop, List.append_assoc]
  exact hwords word hword _

/-- No word starts as a number does, whatever follows. -/
theorem word?_append_of_number (h : number t = .ok (j, rest)) (more : Text) :
    word? (t ++ more) = none := by
  cases number_eq_ok_iff.mp h with
  | @parts negative unsigned afterWhole afterPlaces _ whole places exponent hfirst hwhole hnonempty
      hplaces hpower hlimit =>
    obtain ⟨d, behind, hd, rfl⟩ := exists_eq_digitChar_cons (by rwa [hwhole])
    cases negative with
    | false => exact (word?_digitChar hd _).1
    | true => exact (word?_digitChar hd _).2

/-! ## Arrays and objects -/

section Finds

variable {α β : Type} {x : Except Stop α} {a : α} {b : β}

/-- A run that finds `a`, unless it gives up because of the depth. -/
def Finds (x : Except Stop α) (a : α) : Prop := x = .ok a ∨ x = .error .tooDeep

theorem finds_ok (a : α) : Finds (.ok a) a := .inl rfl

theorem Finds.bind {f : α → Except Stop β} (h : Finds x a) (hrest : Finds (f a) b) :
    Finds (x >>= f) b := by
  rcases h with rfl | rfl
  · exact hrest
  · exact .inr rfl

theorem Finds.map (h : Finds x a) (f : α → β) : Finds (x.map f) (f a) := by
  rcases h with rfl | rfl
  · exact .inl rfl
  · exact .inr rfl

end Finds

/-- A scan that finds in front of `more` what another one finds alone. -/
structure Carries (more : Text) (scan scan' : Scan Json) : Prop where
  nil : ∀ found, scan [] ≠ .ok found
  append : ∀ t j rest, scan t = .ok (j, rest) → Finds (scan' (t ++ more)) (j, rest ++ more)

section Loops

variable {scan scan' : Scan Json} {js : List Json} {ms done : List (Text × Json)} {key : Text}
  {fuel fuel' : Nat}

theorem elements_append (hscan : Carries more scan scan') (hfuel : fuel ≤ fuel')
    (h : elements scan fuel t = .ok (js, rest)) :
    Finds (elements scan' fuel' (t ++ more)) (js, rest ++ more) := by
  induction fuel generalizing t js fuel' with
  | zero => cases h
  | succ fuel ih =>
    obtain ⟨fuel', rfl⟩ := Nat.exists_eq_add_one_of_ne_zero (Nat.ne_of_gt (Nat.zero_lt_of_lt hfuel))
    obtain ⟨⟨first, afterFirst⟩, hfirst, h⟩ := bind_eq_ok.mp h
    refine (hscan.append _ _ _ hfirst).bind ?_
    dsimp only at h ⊢
    split at h
    next => cases h
    next c behind hbehind =>
      rw [skipSpace_append_of_cons hbehind]
      dsimp only
      split_ifs at h ⊢ with hclose hcomma
      · obtain ⟨rfl, rfl⟩ := Prod.mk.inj (Except.ok.inj h)
        exact finds_ok _
      · obtain ⟨⟨others, after⟩, hothers, h⟩ := bind_eq_ok.mp h
        obtain ⟨rfl, rfl⟩ := Prod.mk.inj (Except.ok.inj h)
        have hnext : skipSpace behind ≠ [] := by
          intro hnil
          rw [hnil] at hothers
          cases fuel with
          | zero => cases hothers
          | succ fuel =>
            obtain ⟨found, hfound, -⟩ := bind_eq_ok.mp hothers
            exact hscan.nil found hfound
        rw [skipSpace_append_of_ne_nil hnext]
        exact (ih (Nat.le_of_succ_le_succ hfuel) hothers).bind (finds_ok _)

theorem memberKey_append (h : memberKey t = .ok (key, rest)) (hrest : rest ≠ []) (more : Text) :
    memberKey (t ++ more) = .ok (key, rest ++ more) := by
  unfold memberKey at h
  split at h
  next => cases h
  next c behind =>
    split_ifs at h with hquote
    obtain ⟨⟨k, afterKey⟩, hstring, h⟩ := bind_eq_ok.mp h
    rw [List.cons_append, memberKey, if_pos hquote, string_append hstring, ok_bind]
    dsimp only at h ⊢
    split at h
    next => cases h
    next d after hafter =>
      rw [skipSpace_append_of_cons hafter]
      dsimp only
      split_ifs at h ⊢ with hcolon
      obtain ⟨rfl, rfl⟩ := Prod.mk.inj (Except.ok.inj h)
      rw [skipSpace_append_of_ne_nil hrest]
      rfl

theorem members_append (hscan : Carries more scan scan') (hfuel : fuel ≤ fuel')
    (h : members scan fuel done t = .ok (ms, rest)) :
    Finds (members scan' fuel' done (t ++ more)) (ms, rest ++ more) := by
  induction fuel generalizing t done fuel' with
  | zero => cases h
  | succ fuel ih =>
    obtain ⟨fuel', rfl⟩ := Nat.exists_eq_add_one_of_ne_zero (Nat.ne_of_gt (Nat.zero_lt_of_lt hfuel))
    obtain ⟨⟨key, afterKey⟩, hkey, h⟩ := bind_eq_ok.mp h
    obtain ⟨⟨first, afterFirst⟩, hfirst, h⟩ := bind_eq_ok.mp h
    have hafterKey : afterKey ≠ [] := by
      rintro rfl
      exact hscan.nil _ hfirst
    rw [members, memberKey_append hkey hafterKey, ok_bind]
    refine (hscan.append _ _ _ hfirst).bind ?_
    dsimp only at h ⊢
    split at h
    next => cases h
    next c behind hbehind =>
      rw [skipSpace_append_of_cons hbehind]
      dsimp only
      split_ifs at h ⊢ with hclose hcomma
      · obtain ⟨rfl, rfl⟩ := Prod.mk.inj (Except.ok.inj h)
        exact finds_ok _
      · have hnext : skipSpace behind ≠ [] := by
          intro hnil
          rw [hnil] at h
          cases fuel with
          | zero => cases h
          | succ fuel => cases h
        rw [skipSpace_append_of_ne_nil hnext]
        exact ih (Nat.le_of_succ_le_succ hfuel) h

theorem array_append (hscan : Carries more scan scan') (h : array scan t = .ok (j, rest)) :
    Finds (array scan' (t ++ more)) (j, rest ++ more) := by
  unfold array at h ⊢
  dsimp only at h ⊢
  split at h
  next c behind hbehind =>
    rw [skipSpace_append_of_cons hbehind]
    dsimp only
    split_ifs at h ⊢ with hclose
    · obtain ⟨rfl, rfl⟩ := Prod.mk.inj (Except.ok.inj h)
      exact finds_ok _
    · obtain ⟨⟨js, r⟩, helements, h⟩ := map_eq_ok.mp h
      obtain ⟨rfl, rfl⟩ := Prod.mk.inj h
      have hlength : behind.length + 1 ≤ (behind ++ more).length + 1 := by simp
      exact (elements_append hscan hlength helements).map _
  next => cases h

theorem objectBody_append (hscan : Carries more scan scan')
    (h : objectBody scan t = .ok (j, rest)) :
    Finds (objectBody scan' (t ++ more)) (j, rest ++ more) := by
  unfold objectBody at h ⊢
  dsimp only at h ⊢
  split at h
  next c behind hbehind =>
    rw [skipSpace_append_of_cons hbehind]
    dsimp only
    split_ifs at h ⊢ with hclose
    · obtain ⟨rfl, rfl⟩ := Prod.mk.inj (Except.ok.inj h)
      exact finds_ok _
    · obtain ⟨⟨ms, r⟩, hmembers, h⟩ := map_eq_ok.mp h
      obtain ⟨rfl, rfl⟩ := Prod.mk.inj h
      have hlength : behind.length + 1 ≤ (behind ++ more).length + 1 := by simp
      exact (members_append hscan hlength hmembers).map _
  next => cases h

end Loops

/-! ## Values -/

theorem value_nil (levels : Nat) (found : Json × Text) : value levels [] ≠ .ok found := by
  intro h
  unfold value at h
  cases h

/-- What is inside of brackets is read with one level less in both scans. -/
theorem carries_value_of_inner (hmore : EndsValue more) {levels fewer : Nat}
    (hinner : ∀ inner inner', levels = inner + 1 → fewer = inner' + 1 →
      Carries more (value inner) (value inner')) :
    Carries more (value levels) (value fewer) := by
  refine ⟨value_nil levels, fun t j rest h => ?_⟩
  cases value_eq_ok_iff.mp h with
  | @str _ c t s _ hc hstring =>
    rw [List.cons_append, value_string hc, string_append hstring]
    exact finds_ok _
  | @arr inner c t _ _ hc harray =>
    rw [List.cons_append]
    cases fewer with
    | zero =>
      rw [value, if_neg (by omega), if_pos hc]
      exact .inr rfl
    | succ inner' =>
      rw [value_array hc]
      exact array_append (hinner inner inner' rfl rfl) harray
  | @obj inner c t _ _ hc hobject =>
    rw [List.cons_append]
    cases fewer with
    | zero =>
      rw [value, if_neg (by omega), if_neg (by omega), if_pos hc]
      exact .inr rfl
    | succ inner' =>
      rw [value_object hc]
      exact objectBody_append (hinner inner inner' rfl rfl) hobject
  | word hquote harray hobject hword =>
    exact .inl (value_word hquote harray hobject (word?_append hword more))
  | number hquote harray hobject hword hnumber =>
    have hnone := word?_append_of_number hnumber more
    have hread := number_append hmore hnumber
    rw [List.cons_append] at hnone hread ⊢
    rw [value_number hquote harray hobject hnone, hread]
    exact finds_ok _

/-- With fewer levels the reader may give up, but it never finds something else. -/
theorem carries_value (hmore : EndsValue more) {levels fewer : Nat} (h : fewer ≤ levels) :
    Carries more (value levels) (value fewer) := by
  induction levels generalizing fewer with
  | zero => exact carries_value_of_inner hmore nofun
  | succ levels ih =>
    refine carries_value_of_inner hmore fun inner inner' hlevels hfewer => ?_
    obtain rfl := Nat.succ.inj hlevels
    exact ih (by omega)

/-! ## Arrays of texts -/

/-- A text in which there are only blanks. -/
def Blank (t : Text) : Prop := ∀ c ∈ t, isSpace c = true

theorem blank_iff : Blank t ↔ skipSpace t = [] := List.dropWhile_eq_nil_iff.symm

/-- What stands behind the first element of an array whose other elements are spelled by `ts`. -/
def behindElement (back : Text) (ts : List Text) : Text :=
  ts.flatMap (CodePoint.ofChar ',' :: ·) ++ CodePoint.ofChar ']' :: back

/-- The text of an array whose elements are spelled by `ts`, with any blanks around its brackets
and between them if there are no elements. -/
def SpellsArray (ts : List Text) (text : Text) : Prop :=
  ∃ front inside back, Blank front ∧ Blank inside ∧ Blank back ∧
    text = front ++ CodePoint.ofChar '[' ::
      (inside ++ (Text.join [CodePoint.ofChar ','] ts ++ CodePoint.ofChar ']' :: back))

section Spelled

variable {ts : List Text} {js : List Json} {back text : Text} {levels fuel : Nat}

theorem join_append_eq (t : Text) (ts : List Text) (back : Text) :
    Text.join [CodePoint.ofChar ','] (t :: ts) ++ CodePoint.ofChar ']' :: back
      = t ++ behindElement back ts := by
  rw [Text.join_cons, List.append_assoc]
  rfl

theorem endsValue_behindElement (back : Text) (ts : List Text) :
    EndsValue (behindElement back ts) := by
  intro c hc
  cases ts with
  | nil =>
    obtain rfl := Option.some.inj hc
    exact .inr (.inl rfl)
  | cons t ts =>
    obtain rfl := Option.some.inj hc
    exact .inl rfl

theorem behindElement_cons (back t : Text) (ts : List Text) :
    behindElement back (t :: ts) = CodePoint.ofChar ',' :: (t ++ behindElement back ts) := by
  simp [behindElement]

theorem length_lt_behindElement (back : Text) (ts : List Text) :
    ts.length < (behindElement back ts).length := by
  induction ts with
  | nil => simp [behindElement]
  | cons t ts ih =>
    rw [behindElement_cons, List.length_cons, List.length_cons, List.length_append]
    omega

/-- An element is found in front of what stands behind it. -/
theorem finds_element (h : read t = .ok j) (hlevels : levels ≤ nestingLimit)
    (hmore : EndsValue more) : ∃ rest, Blank rest ∧
      Finds (value levels (skipSpace (t ++ more))) (j, rest ++ more) := by
  obtain ⟨-, rest, hvalue, hrest⟩ := read_eq_ok_iff.mp h
  have hcarries := carries_value hmore hlevels
  have hne : skipSpace t ≠ [] := by
    intro hnil
    rw [hnil] at hvalue
    exact hcarries.nil _ hvalue
  rw [skipSpace_append_of_ne_nil hne]
  exact ⟨rest, blank_iff.mpr hrest, hcarries.append _ _ _ hvalue⟩

/-- The elements are found one after the other, by induction on their texts. -/
theorem finds_elements (ht : read t = .ok j)
    (hts : List.Forall₂ (fun t j => read t = .ok j) ts js) (hlevels : levels ≤ nestingLimit)
    (hfuel : ts.length < fuel) :
    Finds (elements (value levels) fuel (skipSpace (t ++ behindElement back ts)))
      (j :: js, back) := by
  induction hts generalizing t j fuel with
  | nil =>
    obtain ⟨fuel, rfl⟩ := Nat.exists_eq_add_one_of_ne_zero (Nat.ne_of_gt (Nat.zero_lt_of_lt hfuel))
    obtain ⟨rest, hrest, hfinds⟩ := finds_element ht hlevels (endsValue_behindElement back [])
    rw [elements]
    refine hfinds.bind ?_
    dsimp only
    rw [skipSpace_append_of_eq_nil (blank_iff.mp hrest)]
    exact finds_ok _
  | @cons u k us ks hu hus ih =>
    obtain ⟨fuel, rfl⟩ := Nat.exists_eq_add_one_of_ne_zero (Nat.ne_of_gt (Nat.zero_lt_of_lt hfuel))
    obtain ⟨rest, hrest, hfinds⟩ :=
      finds_element ht hlevels (endsValue_behindElement back (u :: us))
    rw [elements]
    refine hfinds.bind ?_
    dsimp only
    rw [skipSpace_append_of_eq_nil (blank_iff.mp hrest), behindElement_cons, skipSpace_cons rfl]
    dsimp only
    rw [if_neg (by decide), if_pos (by decide)]
    exact (ih hu (Nat.lt_of_succ_lt_succ hfuel)).bind (finds_ok _)

/-- No value starts with a closing bracket. -/
theorem value_closing (hc : c.val = 0x5d) (found : Json × Text) :
    value levels (c :: t) ≠ .ok found := by
  intro h
  obtain rfl : c = CodePoint.ofChar ']' := Fin.ext hc
  rw [value_number (by decide) (by decide) (by decide) rfl] at h
  cases h

theorem exists_skipSpace_of_read (h : read t = .ok j) :
    ∃ c rest, skipSpace t = c :: rest ∧ c.val ≠ 0x5d := by
  obtain ⟨-, rest, hvalue, -⟩ := read_eq_ok_iff.mp h
  cases hskip : skipSpace t with
  | nil =>
    rw [hskip] at hvalue
    exact absurd hvalue (value_nil _ _)
  | cons c behind =>
    rw [hskip] at hvalue
    exact ⟨c, behind, rfl, fun hc => value_closing hc _ hvalue⟩

theorem finds_array {inside : Text} (hinside : Blank inside)
    (h : List.Forall₂ (fun t j => read t = .ok j) ts js) (hlevels : levels ≤ nestingLimit) :
    Finds (array (value levels)
        (inside ++ (Text.join [CodePoint.ofChar ','] ts ++ CodePoint.ofChar ']' :: back)))
      (.arr js, back) := by
  have hskip := fun behind => skipSpace_append_of_eq_nil (blank_iff.mp hinside) behind
  cases h with
  | nil =>
    rw [array, hskip]
    exact finds_ok _
  | @cons t j ts js ht hts =>
    obtain ⟨c, behind, hbehind, hc⟩ := exists_skipSpace_of_read ht
    have hfuel : ts.length < (behind ++ behindElement back ts).length + 1 := by
      have hlength := length_lt_behindElement back ts
      rw [List.length_append]
      omega
    have hfinds := @finds_elements t j ts js back levels _ ht hts hlevels hfuel
    rw [skipSpace_append_of_cons hbehind] at hfinds
    rw [array, hskip, join_append_eq, skipSpace_append_of_cons hbehind]
    dsimp only
    rw [if_neg hc]
    exact hfinds.map _

/-- An array of texts that are read each by itself is read as the array of what they are read as,
unless it nests too deep. -/
theorem read_spelled (hspells : SpellsArray ts text)
    (h : List.Forall₂ (fun t j => read t = .ok j) ts js) :
    read text = .ok (.arr js) ∨ read text = .error .tooDeep := by
  obtain ⟨front, inside, back, hfront, hinside, hback, rfl⟩ := hspells
  have harray := @finds_array ts js back 959 inside hinside h (by decide)
  generalize inside ++ (Text.join _ ts ++ _) = behind at harray ⊢
  have hmark : ∀ c, (front ++ CodePoint.ofChar '[' :: behind).head? = some c → c.val ≠ 0xfeff := by
    intro c hc hval
    cases front with
    | nil =>
      obtain rfl := Option.some.inj hc
      cases hval
    | cons d front =>
      obtain rfl := Option.some.inj hc
      have hspace := hfront d List.mem_cons_self
      rw [isSpace, hval] at hspace
      cases hspace
  have hdocument : Finds (document (front ++ CodePoint.ofChar '[' :: behind)) (.arr js) := by
    rw [document_eq hmark, document.read, skipSpace_append_of_eq_nil (blank_iff.mp hfront),
      skipSpace_cons rfl, nestingLimit, value_array rfl]
    refine harray.bind ?_
    dsimp only
    rw [blank_iff.mp hback]
    exact finds_ok _
  rcases hdocument with hok | hdeep
  · exact .inl (mapError_eq_ok.mpr hok)
  · right
    rw [read, hdeep]
    rfl

end Spelled

end EthWire.Json
