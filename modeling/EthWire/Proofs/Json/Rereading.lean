import EthWire.Proofs.Binary64.Overflow
import EthWire.Proofs.Json.Decimal
import EthWire.Proofs.Json.Surrogate
import EthWire.Proofs.Text.Utf8

/-!
# What is read can be written

A document that is read from a text without surrogates is legible: no string has a high surrogate
left in front of a low one, every integer is short enough to be written, every other number is in
its one form, and no object has a key twice. The proof follows the reader; each part of it goes on
behind what it has read, so the text that is left has no surrogates either.
-/

namespace EthWire

theorem Text.Scalar.of_suffix {t u : Text} (h : t.Scalar) (hu : u <:+ t) : u.Scalar :=
  fun c hc => h c (hu.mem hc)

namespace Binary64

theorem canonical_ofDecimal (negative : Bool) (digits : Nat) (exponent : Int) :
    Canonical (ofDecimal negative digits exponent) ∧
      ofDecimal negative digits exponent ≠ .nan false := by
  unfold ofDecimal
  dsimp only
  split
  · exact ⟨⟨by decide, le_refl _, by decide, .inl rfl⟩, nofun⟩
  · split
    · exact ⟨trivial, nofun⟩
    · split
      · exact ⟨canonical_ofRatio _ _ Nat.one_pos, ofRatio_ne_nan⟩
      · exact ⟨canonical_ofRatio _ _ (Nat.pow_pos (by decide)), ofRatio_ne_nan⟩

end Binary64

namespace Json

open Text (Scalar)

variable {t rest s : Text} {n : Nat} {p c : CodePoint}

/-! ## Strings -/

theorem hexUnit?_eq_some (h : hexUnit? t = some (n, rest)) : rest <:+ t ∧ n < 0x10000 := by
  unfold hexUnit? at h
  split at h
  next a b c d e behind =>
    obtain ⟨ds, hds, h⟩ := Option.bind_eq_some_iff.mp h
    obtain ⟨rfl, rfl⟩ := Prod.mk.inj (Option.some.inj h)
    simp only [List.mapM_cons, List.mapM_nil, Option.bind_eq_bind, Option.bind_eq_some_iff,
      Option.pure_def, Option.some.injEq] at hds
    obtain ⟨w, hw, _, ⟨x, hx, _, ⟨y, hy, _, ⟨z, hz, _, rfl, rfl⟩, rfl⟩, rfl⟩, rfl⟩ := hds
    have hdigit : ∀ {c : CodePoint} {d : Nat}, Text.hexDigit? c = some d → d < 16 := by
      intro c d hd
      exact of_decide_eq_true (Option.filter_eq_some_iff.mp hd).2
    have hlt : ∀ d ∈ [w, x, y, z], d < 16 := by
      simp [hdigit hw, hdigit hx, hdigit hy, hdigit hz]
    have hvalue : Positional.value 16 [w, x, y, z] < 16 ^ 4 :=
      Positional.value_lt (by decide) hlt
    exact ⟨⟨[a, b, c, d], rfl⟩, by omega⟩
  next => cases h

theorem lowEscape?_eq_some (h : lowEscape? t = some (n, rest)) :
    rest <:+ t ∧ isLowSurrogate n = true := by
  unfold lowEscape? at h
  split at h
  next c u behind =>
    split at h
    next =>
      obtain ⟨hunit, hlow⟩ := Option.filter_eq_some_iff.mp h
      have hrest : rest <:+ c :: u :: behind :=
        (hexUnit?_eq_some hunit).1.trans ⟨[c, u], rfl⟩
      exact ⟨hrest, hlow⟩
    next => cases h
  next => cases h

theorem CodePoint.val_ofNat (hn : n < 0x110000) : (CodePoint.ofNat n).val = n :=
  Nat.mod_eq_of_lt hn

/-- The code point of a `u` escape in front of `rest`. A high surrogate is left alone only if no
low one follows, and a low one comes from four digits of its own. -/
structure FromEscape (t : Text) (p : CodePoint) (rest : Text) : Prop where
  suffix : rest <:+ t
  high : isHighSurrogate p.val = true → lowEscape? rest = none
  low : isLowSurrogate p.val = true → hexUnit? (t.drop 1) = some (p.val, rest)

theorem fromEscape_of_unicodeEscape (h : unicodeEscape t = .ok (p, rest)) :
    FromEscape t p rest := by
  unfold unicodeEscape at h
  split at h
  next => cases h
  next high behind hunit =>
    obtain ⟨hsuffix, hlt⟩ := hexUnit?_eq_some hunit
    have hbehind : behind <:+ t := hsuffix.trans (List.drop_suffix 1 t)
    split at h
    next low after hpair =>
      obtain ⟨hp, rfl⟩ := Prod.mk.inj (Except.ok.inj h)
      split at hpair
      next hhigh =>
        obtain ⟨hafter, hlow⟩ := lowEscape?_eq_some hpair
        simp only [isHighSurrogate, isLowSurrogate, Bool.and_eq_true, decide_eq_true_eq]
          at hhigh hlow
        have hval : p.val = 0x10000 + (high - 0xd800) * 0x400 + (low - 0xdc00) := by
          rw [← hp, CodePoint.val_ofNat (by omega)]
        refine ⟨hafter.trans hbehind, fun hsurrogate => ?_, fun hsurrogate => ?_⟩
        · simp only [isHighSurrogate, Bool.and_eq_true, decide_eq_true_eq] at hsurrogate
          omega
        · simp only [isLowSurrogate, Bool.and_eq_true, decide_eq_true_eq] at hsurrogate
          omega
      next => cases hpair
    next hsingle =>
      obtain ⟨hp, rfl⟩ := Prod.mk.inj (Except.ok.inj h)
      have hval : p.val = high := by rw [← hp, CodePoint.val_ofNat (by omega)]
      refine ⟨hbehind, fun hsurrogate => ?_, fun _ => ?_⟩
      · rwa [← hval, if_pos hsurrogate] at hsingle
      · rw [hunit, hval]

theorem shortEscape?_not_surrogate (h : shortEscape? c = some p) :
    isHighSurrogate p.val = false ∧ isLowSurrogate p.val = false := by
  have hsmall : p.val < 0x80 := by
    unfold shortEscape? at h
    split_ifs at h with hself
    · obtain rfl := Option.some.inj h
      omega
    all_goals
      obtain rfl := Option.some.inj h
      decide
  simp only [isHighSurrogate, isLowSurrogate, Bool.and_eq_false_iff, decide_eq_false_iff_not]
  omega

/-- A code point of a string in front of `rest`. -/
structure FromString (t : Text) (p : CodePoint) (rest : Text) : Prop where
  suffix : rest <:+ t
  high : isHighSurrogate p.val = true → lowEscape? rest = none
  low : isLowSurrogate p.val = true → lowEscape? t ≠ none

theorem stringPoint_none_suffix (h : stringPoint t = .ok (none, rest)) : rest <:+ t := by
  unfold stringPoint at h
  split at h
  next => cases h
  next c behind =>
    split_ifs at h with hquote hslash
    · obtain ⟨-, rfl⟩ := Prod.mk.inj (Except.ok.inj h)
      exact List.suffix_cons c behind
    · split at h
      next => cases h
      next e after =>
        split_ifs at h
        · obtain ⟨_, -, h⟩ := map_eq_ok.mp h
          cases h
        · split at h
          next => cases h
          next => cases h
    · cases h

theorem fromString_of_stringPoint (ht : t.Scalar) (h : stringPoint t = .ok (some p, rest)) :
    FromString t p rest := by
  unfold stringPoint at h
  split at h
  next => cases h
  next c behind =>
    split_ifs at h with hquote hslash hcontrol
    · cases h
    · split at h
      next => cases h
      next e after =>
        split_ifs at h with hu
        · obtain ⟨⟨q, r⟩, hescape, h⟩ := map_eq_ok.mp h
          obtain ⟨hq, rfl⟩ := Prod.mk.inj h
          obtain rfl := Option.some.inj hq
          obtain ⟨hsuffix, hhigh, hlow⟩ := fromEscape_of_unicodeEscape hescape
          refine ⟨hsuffix.trans (List.suffix_cons c _), hhigh, fun hsurrogate => ?_⟩
          have hunit : hexUnit? after = some (q.val, r) := hlow hsurrogate
          rw [lowEscape?, if_pos ⟨hslash, hu⟩, hunit, Option.filter_some, if_pos hsurrogate]
          exact Option.some_ne_none _
        · split at h
          next q hshort =>
            obtain ⟨hq, rfl⟩ := Prod.mk.inj (Except.ok.inj h)
            obtain rfl := Option.some.inj hq
            obtain ⟨hhigh, hlow⟩ := shortEscape?_not_surrogate hshort
            refine ⟨⟨[c, e], rfl⟩, fun hsurrogate => ?_, fun hsurrogate => ?_⟩
            · rw [hhigh] at hsurrogate
              cases hsurrogate
            · rw [hlow] at hsurrogate
              cases hsurrogate
          next => cases h
    · obtain ⟨hq, rfl⟩ := Prod.mk.inj (Except.ok.inj h)
      obtain rfl := Option.some.inj hq
      have hscalar := CodePoint.isSurrogate_eq_false_iff.mp (ht c (by simp))
      refine ⟨List.suffix_cons c _, fun hsurrogate => ?_, fun hsurrogate => ?_⟩
      · simp only [isHighSurrogate, Bool.and_eq_true, decide_eq_true_eq] at hsurrogate
        omega
      · simp only [isLowSurrogate, Bool.and_eq_true, decide_eq_true_eq] at hsurrogate
        omega

/-- The induction is on the fuel: the text that is left tells whether the next code point can be
a low surrogate, so no high one stands in front of it. -/
theorem stringBody_joined {fuel : Nat} (ht : t.Scalar) (h : stringBody fuel t = .ok (s, rest)) :
    rest <:+ t ∧ s.joined = s ∧
      ∀ q, s.head? = some q → isLowSurrogate q.val = true → lowEscape? t ≠ none := by
  induction fuel generalizing t s with
  | zero => cases h
  | succ fuel ih =>
    obtain ⟨⟨point, behind⟩, hpoint, h⟩ := bind_eq_ok.mp h
    cases point with
    | none =>
      obtain ⟨rfl, rfl⟩ := Prod.mk.inj (Except.ok.inj h)
      exact ⟨stringPoint_none_suffix hpoint, rfl, nofun⟩
    | some p =>
      obtain ⟨⟨more, after⟩, hmore, h⟩ := bind_eq_ok.mp h
      obtain ⟨rfl, rfl⟩ := Prod.mk.inj (Except.ok.inj h)
      obtain ⟨hsuffix, hhigh, hlow⟩ := fromString_of_stringPoint ht hpoint
      obtain ⟨hafter, hjoined, hnext⟩ := ih (ht.of_suffix hsuffix) hmore
      refine ⟨hafter.trans hsuffix, ?_, ?_⟩
      · cases more with
        | nil => rfl
        | cons q more =>
          have hpair : ¬(isHighSurrogate p.val && isLowSurrogate q.val) = true := by
            intro hpair
            rw [Bool.and_eq_true] at hpair
            exact hnext q rfl hpair.2 (hhigh hpair.1)
          rw [Text.joined, if_neg hpair, hjoined]
      · intro q hq hsurrogate
        obtain rfl := Option.some.inj hq
        exact hlow hsurrogate

theorem string_stringReads (ht : t.Scalar) (h : string c t = .ok (s, rest)) :
    StringReads s ∧ rest <:+ t := by
  obtain ⟨hsuffix, hjoined, -⟩ := stringBody_joined ht (mapError_eq_ok.mp h)
  refine ⟨?_, hsuffix⟩
  rw [← hjoined]
  exact stringReads_joined s

/-! ## Numbers and words -/

variable {levels : Nat} {j : Json}

theorem takeDigits_spec (t : Text) :
    (takeDigits t).2 <:+ t ∧ ∀ d ∈ (takeDigits t).1, d < 10 := by
  induction t with
  | nil => exact ⟨List.suffix_rfl, List.forall_mem_nil _⟩
  | cons c t ih =>
    rw [takeDigits]
    split
    next d hd =>
      have hlt : d < 10 := of_decide_eq_true (Option.filter_eq_some_iff.mp hd).2
      exact ⟨ih.1.trans (List.suffix_cons c t), List.forall_mem_cons.mpr ⟨hlt, ih.2⟩⟩
    next => exact ⟨List.suffix_rfl, List.forall_mem_nil _⟩

theorem wholeDigits_spec (t : Text) :
    (wholeDigits t).2 <:+ t ∧ ∀ d ∈ (wholeDigits t).1, d < 10 := by
  unfold wholeDigits
  split
  next c rest =>
    split
    · exact ⟨List.suffix_cons c rest, List.forall_mem_singleton.mpr (by decide)⟩
    · exact takeDigits_spec _
  next => exact ⟨List.suffix_rfl, List.forall_mem_nil _⟩

theorem fraction_suffix (t : Text) : (fraction t).2 <:+ t := by
  unfold fraction
  split
  next c rest =>
    split
    · have hsuffix := (takeDigits_spec rest).1
      split
      next => exact List.suffix_rfl
      next ds after _ htake =>
        rw [htake] at hsuffix
        exact hsuffix.trans (List.suffix_cons c rest)
    · exact List.suffix_rfl
  next => exact List.suffix_rfl

theorem splitSign_suffix (t : Text) : (Text.splitSign t).2 <:+ t := by
  unfold Text.splitSign
  split
  · exact List.suffix_rfl
  next c rest =>
    split_ifs
    · exact List.suffix_cons c rest
    · exact List.suffix_cons c rest
    · exact List.suffix_rfl

theorem power_suffix (t : Text) : (power t).2 <:+ t := by
  unfold power
  split
  next c rest =>
    split
    · have hsign := splitSign_suffix rest
      dsimp only
      have hsuffix := (takeDigits_spec (Text.splitSign rest).2).1
      split
      next => exact List.suffix_rfl
      next ds after _ htake =>
        rw [htake] at hsuffix
        exact (hsuffix.trans hsign).trans (List.suffix_cons c rest)
    · exact List.suffix_rfl
  next => exact List.suffix_rfl

theorem legible_of_number (h : number t = .ok (j, rest)) : Legible levels j ∧ rest <:+ t := by
  cases number_eq_ok_iff.mp h with
  | @parts negative unsigned afterWhole afterPlaces _ whole places exponent hfirst hwhole hnonempty
      hplaces hpower hlimit =>
    obtain ⟨hbehindWhole, hdigits⟩ := wholeDigits_spec unsigned
    have hbehindPlaces := fraction_suffix afterWhole
    have hbehindPower := power_suffix afterPlaces
    rw [hwhole] at hbehindWhole hdigits
    rw [hplaces] at hbehindPlaces
    rw [hpower] at hbehindPower
    have hsuffix : rest <:+ Numeral.signText negative ++ unsigned :=
      ((hbehindPower.trans hbehindPlaces).trans hbehindWhole).trans (List.suffix_append _ _)
    refine ⟨?_, hsuffix⟩
    unfold Numeral.jsonOf
    split
    next hinteger =>
      exact legible_int (Text.isWritten_value hdigits (Nat.not_lt.mp (hlimit hinteger)) negative)
    next =>
      obtain ⟨hcanonical, hshared⟩ := Binary64.canonical_ofDecimal _ _ _
      exact .float (reads_writeFloat hcanonical hshared)

theorem dropWord?_suffix {word : Text} (h : dropWord? word t = some rest) : rest <:+ t := by
  fun_induction dropWord? word t with
  | case1 t =>
    obtain rfl := Option.some.inj h
    exact List.suffix_rfl
  | case2 => cases h
  | case3 ws w after ih => exact (ih h).trans (List.suffix_cons w after)
  | case4 => cases h

theorem legible_of_word? (h : word? t = some (j, rest)) : Legible levels j ∧ rest <:+ t := by
  have hwords : ∀ word ∈ words, Legible levels word.2 := by
    have hfloat : ∀ x : Binary64, x.Canonical → x ≠ .nan false → Legible levels (.float x) :=
      fun x hcanonical hshared => .float (reads_writeFloat hcanonical hshared)
    simp only [words, List.forall_mem_cons, List.not_mem_nil, false_implies, implies_true, and_true]
    exact ⟨.null, .bool true, .bool false, hfloat _ trivial nofun, hfloat _ trivial nofun,
      hfloat _ trivial nofun⟩
  obtain ⟨word, hword, hfound⟩ := List.exists_of_findSome?_eq_some h
  obtain ⟨behind, hdrop, hfound⟩ := Option.map_eq_some_iff.mp hfound
  obtain ⟨rfl, rfl⟩ := Prod.mk.inj hfound
  exact ⟨hwords word hword, dropWord?_suffix hdrop⟩

/-! ## Arrays and objects -/

theorem skipSpace_suffix (t : Text) : skipSpace t <:+ t := List.dropWhile_suffix isSpace

/-- A scan of which all that it reads is legible. -/
def ReadsLegible (levels : Nat) (scan : Scan Json) : Prop :=
  ∀ t j rest, Scalar t → scan t = .ok (j, rest) → Legible levels j ∧ rest <:+ t

section Loops

variable {scan : Scan Json} {js : List Json} {ms done : List (Text × Json)} {key : Text}
  {fuel : Nat}

theorem elements_legible (hscan : ReadsLegible levels scan) (ht : t.Scalar)
    (h : elements scan fuel t = .ok (js, rest)) : (∀ j ∈ js, Legible levels j) ∧ rest <:+ t := by
  induction fuel generalizing t js with
  | zero => cases h
  | succ fuel ih =>
    obtain ⟨⟨first, afterFirst⟩, hfirst, h⟩ := bind_eq_ok.mp h
    obtain ⟨hlegible, hsuffix⟩ := hscan t first afterFirst ht hfirst
    have hskip := (skipSpace_suffix afterFirst).trans hsuffix
    dsimp only at h
    split at h
    next => cases h
    next c behind hbehind =>
      rw [hbehind] at hskip
      have hbehindSuffix := (List.suffix_cons c behind).trans hskip
      split_ifs at h with hclose hcomma
      · obtain ⟨rfl, rfl⟩ := Prod.mk.inj (Except.ok.inj h)
        exact ⟨List.forall_mem_singleton.mpr hlegible, hbehindSuffix⟩
      · obtain ⟨⟨more, after⟩, hmore, h⟩ := bind_eq_ok.mp h
        obtain ⟨rfl, rfl⟩ := Prod.mk.inj (Except.ok.inj h)
        have hnext := (skipSpace_suffix behind).trans hbehindSuffix
        obtain ⟨hall, hafter⟩ := ih (ht.of_suffix hnext) hmore
        exact ⟨List.forall_mem_cons.mpr ⟨hlegible, hall⟩, hafter.trans hnext⟩

theorem memberKey_stringReads (ht : t.Scalar) (h : memberKey t = .ok (key, rest)) :
    StringReads key ∧ rest <:+ t := by
  unfold memberKey at h
  split at h
  next => cases h
  next c behind =>
    split_ifs at h with hquote
    · obtain ⟨⟨k, afterKey⟩, hstring, h⟩ := bind_eq_ok.mp h
      have hbehind := List.suffix_cons c behind
      obtain ⟨hreads, hsuffix⟩ := string_stringReads (ht.of_suffix hbehind) hstring
      have hskip := (skipSpace_suffix afterKey).trans (hsuffix.trans hbehind)
      dsimp only at h
      split at h
      next => cases h
      next d more hmore =>
        rw [hmore] at hskip
        split_ifs at h with hcolon
        · obtain ⟨rfl, rfl⟩ := Prod.mk.inj (Except.ok.inj h)
          have hrest := (skipSpace_suffix more).trans (List.suffix_cons d more)
          exact ⟨hreads, hrest.trans hskip⟩

theorem mem_put {α : Type} {key : Text} {v : α} {ms : List (Text × α)} {m : Text × α}
    (h : m ∈ put key v ms) : m = (key, v) ∨ m ∈ ms := by
  induction ms with
  | nil => exact .inl (List.mem_singleton.mp h)
  | cons n ms ih =>
    rw [put] at h
    split_ifs at h with hkey
    · exact (List.mem_cons.mp h).imp_right (List.mem_cons_of_mem n)
    · rcases List.mem_cons.mp h with rfl | h
      · exact .inr List.mem_cons_self
      · exact (ih h).imp_right (List.mem_cons_of_mem n)

/-- A key that is there keeps its place, and no other one is touched. -/
theorem nodup_put {α : Type} {key : Text} {v : α} {ms : List (Text × α)}
    (h : (ms.map Prod.fst).Nodup) : ((put key v ms).map Prod.fst).Nodup := by
  induction ms with
  | nil => exact List.nodup_singleton key
  | cons n ms ih =>
    rw [List.map_cons, List.nodup_cons] at h
    rw [put]
    split_ifs with hkey
    · rw [List.map_cons, List.nodup_cons]
      exact hkey ▸ h
    · rw [List.map_cons, List.nodup_cons]
      refine ⟨fun hmem => ?_, ih h.2⟩
      obtain ⟨m, hm, hfirst⟩ := List.mem_map.mp hmem
      rcases mem_put hm with rfl | hm
      · exact hkey hfirst.symm
      · exact h.1 (List.mem_map.mpr ⟨m, hm, hfirst⟩)

/-- Members that an object may have: legible ones of different keys. -/
structure LegibleRow (levels : Nat) (ms : List (Text × Json)) : Prop where
  keys : (ms.map Prod.fst).Nodup
  names : ∀ m ∈ ms, StringReads m.1
  values : ∀ m ∈ ms, Legible levels m.2

theorem LegibleRow.put (h : LegibleRow levels done) (hkey : StringReads key)
    (hj : Legible levels j) : LegibleRow levels (Json.put key j done) where
  keys := nodup_put h.keys
  names := by
    intro m hm
    rcases mem_put hm with rfl | hm
    · exact hkey
    · exact h.names m hm
  values := by
    intro m hm
    rcases mem_put hm with rfl | hm
    · exact hj
    · exact h.values m hm

theorem members_legible (hscan : ReadsLegible levels scan) (ht : t.Scalar)
    (hdone : LegibleRow levels done) (h : members scan fuel done t = .ok (ms, rest)) :
    LegibleRow levels ms ∧ rest <:+ t := by
  induction fuel generalizing t done with
  | zero => cases h
  | succ fuel ih =>
    obtain ⟨⟨key, afterKey⟩, hkey, h⟩ := bind_eq_ok.mp h
    obtain ⟨hname, hkeySuffix⟩ := memberKey_stringReads ht hkey
    obtain ⟨⟨first, afterFirst⟩, hfirst, h⟩ := bind_eq_ok.mp h
    obtain ⟨hlegible, hsuffix⟩ := hscan _ first afterFirst (ht.of_suffix hkeySuffix) hfirst
    have hskip := (skipSpace_suffix afterFirst).trans (hsuffix.trans hkeySuffix)
    have hrow := hdone.put hname hlegible
    dsimp only at h
    split at h
    next => cases h
    next c behind hbehind =>
      rw [hbehind] at hskip
      have hbehindSuffix := (List.suffix_cons c behind).trans hskip
      split_ifs at h with hclose hcomma
      · obtain ⟨rfl, rfl⟩ := Prod.mk.inj (Except.ok.inj h)
        exact ⟨hrow, hbehindSuffix⟩
      · have hnext := (skipSpace_suffix behind).trans hbehindSuffix
        obtain ⟨hall, hafter⟩ := ih (ht.of_suffix hnext) hrow h
        exact ⟨hall, hafter.trans hnext⟩

theorem array_legible (hscan : ReadsLegible levels scan) :
    ReadsLegible (levels + 1) (array scan) := by
  intro t j rest ht h
  have hskip := skipSpace_suffix t
  unfold array at h
  dsimp only at h
  split at h
  next c behind hbehind =>
    rw [hbehind] at hskip
    split_ifs at h with hclose
    · obtain ⟨rfl, rfl⟩ := Prod.mk.inj (Except.ok.inj h)
      exact ⟨.arr (List.forall_mem_nil _), (List.suffix_cons c behind).trans hskip⟩
    · obtain ⟨⟨js, r⟩, helements, h⟩ := map_eq_ok.mp h
      obtain ⟨rfl, rfl⟩ := Prod.mk.inj h
      obtain ⟨hall, hsuffix⟩ := elements_legible hscan (ht.of_suffix hskip) helements
      exact ⟨.arr hall, hsuffix.trans hskip⟩
  next => cases h

theorem objectBody_legible (hscan : ReadsLegible levels scan) :
    ReadsLegible (levels + 1) (objectBody scan) := by
  intro t j rest ht h
  have hskip := skipSpace_suffix t
  have hempty : LegibleRow levels [] :=
    ⟨List.nodup_nil, List.forall_mem_nil _, List.forall_mem_nil _⟩
  unfold objectBody at h
  dsimp only at h
  split at h
  next c behind hbehind =>
    rw [hbehind] at hskip
    split_ifs at h with hclose
    · obtain ⟨rfl, rfl⟩ := Prod.mk.inj (Except.ok.inj h)
      exact ⟨.obj hempty.keys hempty.names hempty.values, (List.suffix_cons c behind).trans hskip⟩
    · obtain ⟨⟨ms, r⟩, hmembers, h⟩ := map_eq_ok.mp h
      obtain ⟨rfl, rfl⟩ := Prod.mk.inj h
      obtain ⟨hrow, hsuffix⟩ := members_legible hscan (ht.of_suffix hskip) hempty hmembers
      exact ⟨.obj hrow.keys hrow.names hrow.values, hsuffix.trans hskip⟩
  next => cases h

end Loops

/-! ## Documents -/

/-- What is inside brackets is read with one level less. -/
theorem value_legible_of_inner
    (hinner : ∀ inner, levels = inner + 1 → ReadsLegible inner (value inner)) :
    ReadsLegible levels (value levels) := by
  intro t j rest ht h
  cases value_eq_ok_iff.mp h with
  | @str _ c t s _ hc hstring =>
    have hbehind := List.suffix_cons c t
    obtain ⟨hreads, hsuffix⟩ := string_stringReads (ht.of_suffix hbehind) hstring
    exact ⟨.str hreads, hsuffix.trans hbehind⟩
  | @arr inner c t _ _ hc harray =>
    have hbehind := List.suffix_cons c t
    have hlegible := array_legible (hinner inner rfl) t j rest (ht.of_suffix hbehind) harray
    exact ⟨hlegible.1, hlegible.2.trans hbehind⟩
  | @obj inner c t _ _ hc hobject =>
    have hbehind := List.suffix_cons c t
    have hlegible := objectBody_legible (hinner inner rfl) t j rest (ht.of_suffix hbehind) hobject
    exact ⟨hlegible.1, hlegible.2.trans hbehind⟩
  | word _ _ _ hword => exact legible_of_word? hword
  | number _ _ _ _ hnumber => exact legible_of_number hnumber

theorem value_legible (levels : Nat) : ReadsLegible levels (value levels) := by
  induction levels with
  | zero => exact value_legible_of_inner nofun
  | succ levels ih =>
    refine value_legible_of_inner fun inner hinner => ?_
    obtain rfl := Nat.succ.inj hinner
    exact ih

theorem legible_of_read (ht : t.Scalar) (h : read t = .ok j) : Legible nestingLimit j := by
  obtain ⟨-, rest, hvalue, -⟩ := read_eq_ok_iff.mp h
  exact (value_legible nestingLimit _ _ _ (ht.of_suffix (skipSpace_suffix t)) hvalue).1

/-- A document that has been read is read again from what is written of it, in any layout. -/
theorem read_write_of_read {layout : Layout} (ht : t.Scalar) (h : read t = .ok j) :
    read (j.write layout) = .ok (arranged layout j) :=
  read_write (legible_of_read ht h)

end Json

end EthWire
