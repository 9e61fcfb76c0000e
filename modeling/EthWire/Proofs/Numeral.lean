import EthWire.Text.Numeral
import Mathlib.Data.List.Forall2
import Mathlib.Data.List.TakeWhile

/-!
# The spelling of integers

A grammar of integers written by hand. The reader of integers accepts what the grammar
spells, once blanks and digits of other scripts have been brought to their ASCII forms.
-/

namespace EthWire.Text

/-! ## Both ends of a text -/

section Strip

variable {p : CodePoint → Bool} {before core after t : Text}

theorem dropWhile_append_eq (hbefore : ∀ c ∈ before, p c = true)
    (hcore : ∀ c ∈ core.head?, p c = false) (hafter : ∀ c ∈ after, p c = true) :
    (before ++ core ++ after).dropWhile p = if core = [] then [] else core ++ after := by
  rw [List.append_assoc, List.dropWhile_append_of_pos hbefore]
  cases core with
  | nil => rw [List.nil_append, if_pos rfl, List.dropWhile_eq_nil_iff.mpr hafter]
  | cons c rest =>
    have hc : p c = false := hcore c rfl
    rw [if_neg (List.cons_ne_nil c rest), List.cons_append,
      List.dropWhile_cons_of_neg (by simp [hc])]

/-- What is stripped off both ends, up to points that are not of the class. -/
theorem strip_around (hbefore : ∀ c ∈ before, p c = true)
    (hfirst : ∀ c ∈ core.head?, p c = false) (hlast : ∀ c ∈ core.getLast?, p c = false)
    (hafter : ∀ c ∈ after, p c = true) : strip p (before ++ core ++ after) = core := by
  rw [strip, dropWhile_append_eq hbefore hfirst hafter]
  split
  next hnil => rw [hnil]; rfl
  next hne =>
    have hafter' : ∀ c ∈ after.reverse, p c = true := fun c hc => hafter c (List.mem_reverse.mp hc)
    have hlast' : ∀ c ∈ core.reverse.head?, p c = false := by rwa [List.head?_reverse]
    have hback := @dropWhile_append_eq p _ _ [] hafter' hlast' (by simp)
    rw [List.append_nil, if_neg (by simpa using hne), List.append_nil] at hback
    rw [List.reverse_append, hback, List.reverse_reverse]

theorem strip_append (hfirst : ∀ c ∈ core.head?, p c = false)
    (hlast : ∀ c ∈ core.getLast?, p c = false) (hafter : ∀ c ∈ after, p c = true) :
    strip p (core ++ after) = core :=
  @strip_around p [] core after (by simp) hfirst hlast hafter

theorem strip_eq_self (h : ∀ c ∈ t, p c = false) : strip p t = t := by
  have hends := @strip_append p t [] (fun c hc => h c (List.mem_of_mem_head? hc))
    (fun c hc => h c (List.mem_of_getLast? hc)) (by simp)
  rwa [List.append_nil] at hends

/-- A text is what is left of it between two runs of the class. -/
theorem exists_around_strip (p : CodePoint → Bool) (t : Text) :
    ∃ before after : Text, (∀ c ∈ before, p c = true) ∧ (∀ c ∈ after, p c = true) ∧
      t = before ++ strip p t ++ after := by
  have hsplit : ∀ u : Text, (∀ c ∈ u.takeWhile p, p c = true) ∧
      u = u.takeWhile p ++ u.dropWhile p :=
    fun u => ⟨fun c hc => List.mem_takeWhile_imp hc, List.takeWhile_append_dropWhile.symm⟩
  obtain ⟨hbefore, hfront⟩ := hsplit t
  obtain ⟨hafter, hback⟩ := hsplit (t.dropWhile p).reverse
  refine ⟨_, ((t.dropWhile p).reverse.takeWhile p).reverse, hbefore,
    fun c hc => hafter c (List.mem_reverse.mp hc), ?_⟩
  rw [List.append_assoc, strip, ← List.reverse_append, ← hback, List.reverse_reverse]
  exact hfront

end Strip

/-! ## Digits with underscores -/

/-- Digits of a base with single underscores between them, and the values of the digits. -/
inductive Underscored (base : Nat) : Text → List Nat → Prop
  | last {c : CodePoint} {d : Nat} (hc : digit? c = some d) (hd : d < base) :
      Underscored base [c] [d]
  | digit {c : CodePoint} {d : Nat} {t : Text} {ds : List Nat} (hc : digit? c = some d)
      (hd : d < base) (rest : Underscored base t ds) : Underscored base (c :: t) (d :: ds)
  | separated {c u : CodePoint} {d : Nat} {t : Text} {ds : List Nat} (hc : digit? c = some d)
      (hd : d < base) (hu : u.val = 0x5f) (rest : Underscored base t ds) :
      Underscored base (c :: u :: t) (d :: ds)

section Underscored

variable {base d : Nat} {c : CodePoint} {t : Text} {ds : List Nat}

theorem filter_digit? (hc : digit? c = some d) (hd : d < base) :
    (digit? c).filter (· < base) = some d := by
  rw [hc, Option.filter_some]
  simp [hd]

theorem digit?_underscore (hc : c.val = 0x5f) : digit? c = none := by
  simp [digit?, hc]

/-- Where digits have to stand it does not matter whether an underscore could. -/
theorem Underscored.read (h : Underscored base t ds) (separated : Bool) :
    underscoredDigits? base separated t = some ds := by
  induction h generalizing separated with
  | last hc hd =>
    rw [underscoredDigits?, filter_digit? hc hd]
    rfl
  | digit hc hd _ ih =>
    rw [underscoredDigits?, filter_digit? hc hd]
    dsimp only
    rw [ih true]
    rfl
  | separated hc hd hu _ ih =>
    rw [underscoredDigits?, filter_digit? hc hd]
    dsimp only
    rw [underscoredDigits?, digit?_underscore hu]
    simp [hu, ih false]

/-- Behind a digit the text may end, go on, or have one underscore first. -/
theorem underscored_of_read {separated : Bool} (h : underscoredDigits? base separated t = some ds) :
    Underscored base t ds ∨ separated = true ∧
      (t = [] ∧ ds = [] ∨ ∃ u rest, t = u :: rest ∧ u.val = 0x5f ∧ Underscored base rest ds) := by
  induction t generalizing separated ds with
  | nil =>
    cases separated with
    | false => exact absurd h (by simp [underscoredDigits?])
    | true => exact .inr ⟨rfl, .inl ⟨rfl, (Option.some.inj h).symm⟩⟩
  | cons c rest ih =>
    rw [underscoredDigits?] at h
    split at h
    next d hd =>
      obtain ⟨hc, hlt⟩ := Option.filter_eq_some_iff.mp hd
      have hlt : d < base := by simpa using hlt
      obtain ⟨es, hes, rfl⟩ := Option.map_eq_some_iff.mp h
      rcases ih hes with hrest | ⟨-, ⟨rfl, rfl⟩ | ⟨u, after, rfl, hu, hafter⟩⟩
      · exact .inl (.digit hc hlt hrest)
      · exact .inl (.last hc hlt)
      · exact .inl (.separated hc hlt hu hafter)
    next =>
      split at h
      next hsep =>
        rw [Bool.and_eq_true, beq_iff_eq] at hsep
        have hrest := (ih h).resolve_right fun hfalse => absurd hfalse.1 (by decide)
        exact .inr ⟨hsep.1, .inr ⟨c, rest, rfl, hsep.2, hrest⟩⟩
      next => cases h

theorem underscoredDigits?_eq_some_iff :
    underscoredDigits? base false t = some ds ↔ Underscored base t ds :=
  ⟨fun h => (underscored_of_read h).resolve_right fun hfalse => absurd hfalse.1 (by decide),
    fun h => h.read false⟩

theorem Underscored.mem (h : Underscored base t ds) :
    ∀ c ∈ t, c.val = 0x5f ∨ ∃ d < base, digit? c = some d := by
  induction h with
  | last hc hd => exact fun c h => .inr (List.mem_singleton.mp h ▸ ⟨_, hd, hc⟩)
  | digit hc hd _ ih => exact List.forall_mem_cons.mpr ⟨.inr ⟨_, hd, hc⟩, ih⟩
  | separated hc hd hu _ ih =>
    exact List.forall_mem_cons.mpr ⟨.inr ⟨_, hd, hc⟩, List.forall_mem_cons.mpr ⟨.inl hu, ih⟩⟩

theorem Underscored.lt (h : Underscored base t ds) : ∀ d ∈ ds, d < base := by
  induction h with
  | last _ hd => exact fun e he => List.mem_singleton.mp he ▸ hd
  | digit _ hd _ ih => exact List.forall_mem_cons.mpr ⟨hd, ih⟩
  | separated _ hd _ _ ih => exact List.forall_mem_cons.mpr ⟨hd, ih⟩

theorem Underscored.exists_cons (h : Underscored base t ds) :
    ∃ c rest d, t = c :: rest ∧ digit? c = some d := by
  cases h with
  | last hc _ => exact ⟨_, _, _, rfl, hc⟩
  | digit hc _ _ => exact ⟨_, _, _, rfl, hc⟩
  | separated hc _ _ _ => exact ⟨_, _, _, rfl, hc⟩

/-- Digits alone are digits without underscores. -/
theorem Underscored.of_forall₂ (h : List.Forall₂ (fun c d => digit? c = some d ∧ d < base) t ds)
    (hne : t ≠ []) : Underscored base t ds := by
  induction h with
  | nil => exact absurd rfl hne
  | @cons c d t ds hcd hrest ih =>
    cases hrest with
    | nil => exact .last hcd.1 hcd.2
    | cons hnext hafter => exact .digit hcd.1 hcd.2 (ih (List.cons_ne_nil _ _))

end Underscored

/-! ## Signs and marks -/

/-- The signs, each with whether it is a minus. -/
def signs : List (Text × Bool) :=
  [(ofString "", false), (ofString "+", false), (ofString "-", true)]

/-- The marks in front of hexadecimal digits. -/
def hexMarks : List Text :=
  [ofString "", ofString "0x", ofString "0X", ofString "0x_", ofString "0X_"]

/-- The marks in front of the digits of a base. -/
def marks (base : Nat) : List Text := if base = 16 then hexMarks else [ofString ""]

section Parts

variable {base : Nat} {c : CodePoint} {t rest : Text}

theorem exists_sign (t : Text) : ∃ sign minus unsigned, splitSign t = (minus, unsigned) ∧
    (sign, minus) ∈ signs ∧ t = sign ++ unsigned := by
  cases t with
  | nil => exact ⟨ofString "", false, [], rfl, by decide, rfl⟩
  | cons c rest =>
    rw [splitSign]
    split
    next hc =>
      have hminus : c = CodePoint.ofChar '-' := Fin.ext hc
      exact ⟨ofString "-", true, rest, rfl, by decide, by rw [hminus]; rfl⟩
    next =>
      split
      next hc =>
        have hplus : c = CodePoint.ofChar '+' := Fin.ext hc
        exact ⟨ofString "+", false, rest, rfl, by decide, by rw [hplus]; rfl⟩
      next => exact ⟨ofString "", false, c :: rest, rfl, by decide, rfl⟩

theorem splitSign_append {sign : Text} {minus : Bool} (hsign : (sign, minus) ∈ signs)
    (ht : ∀ c ∈ t.head?, c.val ≠ 0x2d ∧ c.val ≠ 0x2b) : splitSign (sign ++ t) = (minus, t) := by
  simp only [signs, List.mem_cons, Prod.mk.injEq, List.not_mem_nil, or_false] at hsign
  rcases hsign with ⟨rfl, rfl⟩ | ⟨rfl, rfl⟩ | ⟨rfl, rfl⟩
  · cases t with
    | nil => rfl
    | cons c rest =>
      obtain ⟨hminus, hplus⟩ := ht c rfl
      exact (if_neg hminus).trans (if_neg hplus)
  · rfl
  · rfl

theorem exists_hexMark (t : Text) : ∃ mark ∈ hexMarks, t = mark ++ dropHexMark t := by
  unfold dropHexMark
  split
  next z x rest =>
    split
    next h =>
      have hz : z = CodePoint.ofChar '0' := Fin.ext h.1
      have hx : x = CodePoint.ofChar 'x' ∨ x = CodePoint.ofChar 'X' := h.2.imp Fin.ext Fin.ext
      subst hz
      cases rest with
      | nil =>
        rcases hx with rfl | rfl
        · exact ⟨ofString "0x", by decide, rfl⟩
        · exact ⟨ofString "0X", by decide, rfl⟩
      | cons u after =>
        dsimp only
        split
        next hu =>
          have hu : u = CodePoint.ofChar '_' := Fin.ext hu
          subst hu
          rcases hx with rfl | rfl
          · exact ⟨ofString "0x_", by decide, rfl⟩
          · exact ⟨ofString "0X_", by decide, rfl⟩
        next =>
          rcases hx with rfl | rfl
          · exact ⟨ofString "0x", by decide, rfl⟩
          · exact ⟨ofString "0X", by decide, rfl⟩
    next => exact ⟨ofString "", by decide, rfl⟩
  next => exact ⟨ofString "", by decide, rfl⟩

theorem dropHexMark_append {mark : Text} (hmark : mark ∈ hexMarks) (hfirst : c.val ≠ 0x5f)
    (hrest : ∀ x ∈ rest.head?, x.val ≠ 0x78 ∧ x.val ≠ 0x58) :
    dropHexMark (mark ++ c :: rest) = c :: rest := by
  simp only [hexMarks, List.mem_cons, List.not_mem_nil, or_false] at hmark
  rcases hmark with rfl | rfl | rfl | rfl | rfl
  · cases rest with
    | nil => rfl
    | cons x after =>
      obtain ⟨hlower, hupper⟩ := hrest x rfl
      exact if_neg fun h => h.2.elim hlower hupper
  · exact if_neg hfirst
  · exact if_neg hfirst
  · rfl
  · rfl

end Parts

/-! ## Integers -/

theorem pow_le_pow_decimalLimit {digits : Nat} (h : digits ≤ decimalLimit) :
    Nat.pow 10 digits ≤ Nat.pow 10 decimalLimit := by
  generalize decimalLimit = limit at h ⊢
  exact Nat.pow_le_pow_right (by decide) h

/-- Every word can be written. -/
theorem word_le_pow_decimalLimit : Nat.pow 2 256 ≤ Nat.pow 10 decimalLimit :=
  Nat.le_trans (by decide : Nat.pow 2 256 ≤ Nat.pow 10 78) (pow_le_pow_decimalLimit (by decide))

theorem isWritten_iff {n : Int} : isWritten n = true ↔ n.natAbs < Nat.pow 10 decimalLimit :=
  decide_eq_true_iff

theorem isWritten_of_le {m n : Int} (h : m.natAbs ≤ n.natAbs) (hn : isWritten n = true) :
    isWritten m = true :=
  isWritten_iff.mpr (Nat.lt_of_le_of_lt h (isWritten_iff.mp hn))

/-- Every number below that of a word can be written. -/
theorem isWritten_of_lt_word {k : Nat} (h : k < Nat.pow 2 256) : isWritten k = true :=
  isWritten_iff.mpr (Nat.lt_of_lt_of_le h word_le_pow_decimalLimit)

/-- An integer in ASCII: blanks around it, a sign, the mark of the base, and digits. -/
inductive Numeral (base : Nat) : Text → Int → Prop
  | mk {before sign mark digits after : Text} {minus : Bool} {ds : List Nat}
      (hbefore : ∀ c ∈ before, c.isAsciiBlank = true) (hsign : (sign, minus) ∈ signs)
      (hmark : mark ∈ marks base) (hdigits : Underscored base digits ds)
      (hlimit : base = 10 → ds.length ≤ decimalLimit)
      (hafter : ∀ c ∈ after, c.isAsciiBlank = true) :
      Numeral base (before ++ (sign ++ (mark ++ digits)) ++ after)
        (if minus then -(Positional.value base ds : Int) else Positional.value base ds)

/-- Neither a blank nor a sign, so part of the mark or a digit. -/
def IsInner (c : CodePoint) : Prop := c.isAsciiBlank = false ∧ c.val ≠ 0x2d ∧ c.val ≠ 0x2b

section Numeral

variable {base : Nat} {t : Text} {n : Int}

theorem Numeral.of_digits {digits : Text} {ds : List Nat} (h : Underscored base digits ds)
    (hlimit : base = 10 → ds.length ≤ decimalLimit) :
    Numeral base digits (Positional.value base ds) := by
  have hmark : ofString "" ∈ marks base := by
    unfold marks
    split
    next => exact List.mem_cons_self
    next => exact List.mem_singleton_self _
  have hspelled := @mk base [] (ofString "") (ofString "") digits [] false ds (by simp)
    List.mem_cons_self hmark h hlimit (by simp)
  rwa [List.append_nil] at hspelled

theorem isAsciiBlank_sign {sign : Text} {minus : Bool} (h : (sign, minus) ∈ signs) :
    ∀ c ∈ sign, c.isAsciiBlank = false := by
  have hsigns : (signs.all fun s => s.1.all fun c => !c.isAsciiBlank) = true := by decide
  intro c hc
  simpa using List.all_eq_true.mp (List.all_eq_true.mp hsigns _ h) c hc

theorem isInner_of_digit? {c : CodePoint} {d : Nat} (h : digit? c = some d) : IsInner c := by
  unfold digit? at h
  unfold IsInner CodePoint.isAsciiBlank
  grind

theorem isInner_mark {mark : Text} (h : mark ∈ marks base) : ∀ c ∈ mark, IsInner c := by
  have hmarks : (hexMarks.all fun m =>
      m.all fun c => !c.isAsciiBlank && c.val != 0x2d && c.val != 0x2b) = true := by decide
  have hmem : mark ∈ hexMarks := by
    unfold marks at h
    split at h
    next => exact h
    next => exact List.mem_singleton.mp h ▸ List.mem_cons_self
  intro c hc
  simpa [IsInner, and_assoc] using List.all_eq_true.mp (List.all_eq_true.mp hmarks _ hmem) c hc

theorem Underscored.isInner {digits : Text} {ds : List Nat} (h : Underscored base digits ds) :
    ∀ c ∈ digits, IsInner c := by
  intro c hc
  rcases h.mem c hc with hu | ⟨d, -, hd⟩
  · simp [IsInner, CodePoint.isAsciiBlank, hu]
  · exact isInner_of_digit? hd

theorem exists_mark (base : Nat) (t : Text) :
    ∃ mark ∈ marks base, t = mark ++ if base = 16 then dropHexMark t else t := by
  unfold marks
  split
  next => exact exists_hexMark t
  next => exact ⟨ofString "", by simp, rfl⟩

theorem drop_mark_append {mark digits : Text} {ds : List Nat} (hmark : mark ∈ marks base)
    (hdigits : Underscored base digits ds) :
    (if base = 16 then dropHexMark (mark ++ digits) else mark ++ digits) = digits := by
  unfold marks at hmark
  split at hmark
  next h16 =>
    subst h16
    have hne : ∀ c ∈ digits, c.val ≠ 0x78 ∧ c.val ≠ 0x58 := by
      intro c hc
      rcases hdigits.mem c hc with hu | ⟨d, hlt, hd⟩
      · omega
      · unfold digit? at hd
        grind
    obtain ⟨c, rest, d, rfl, hc⟩ := hdigits.exists_cons
    have hfirst : c.val ≠ 0x5f := fun hu => by simp [digit?_underscore hu] at hc
    rw [if_pos rfl, dropHexMark_append hmark hfirst]
    exact fun x hx => hne x (List.mem_cons_of_mem _ (List.mem_of_mem_head? hx))
  next h16 =>
    rw [if_neg h16, List.mem_singleton.mp hmark]
    rfl

/-- A numeral read from its digits, once what stands around them has been taken off. -/
theorem readInt?_of_parts {body unsigned digits : Text} {minus : Bool}
    (hbody : strip CodePoint.isAsciiBlank (t.map foldToAscii) = body)
    (hsign : splitSign body = (minus, unsigned))
    (hdigits : (if base = 16 then dropHexMark unsigned else unsigned) = digits) :
    readInt? base t = some n ↔ ∃ ds, Underscored base digits ds ∧
      (base = 10 → ds.length ≤ decimalLimit) ∧
      (if minus then -(Positional.value base ds : Int) else Positional.value base ds) = n := by
  rw [readInt?, hbody]
  dsimp only
  rw [hsign]
  dsimp only
  rw [hdigits]
  cases hds : underscoredDigits? base false digits with
  | none =>
    constructor
    · intro h
      cases h
    · rintro ⟨ds, hspelled, -⟩
      rw [hspelled.read] at hds
      cases hds
  | some ds =>
    have hunique : ∀ es, Underscored base digits es ↔ es = ds := by
      intro es
      rw [← underscoredDigits?_eq_some_iff, hds, Option.some_inj, eq_comm]
    have hlong : (base = 10 && decimalLimit < ds.length) = true ↔
        ¬(base = 10 → ds.length ≤ decimalLimit) := by
      simp
    simp only [hunique, exists_eq_left]
    split
    next h => simp [hlong.mp h]
    next h => rw [and_iff_right (not_not.mp (h ∘ hlong.mpr)), Option.some_inj]

/-- What is read of a text is what its ASCII form spells. -/
theorem readInt?_eq_some_iff : readInt? base t = some n ↔ Numeral base (t.map foldToAscii) n := by
  constructor
  · intro h
    obtain ⟨before, after, hbefore, hafter, hstrip⟩ :=
      exists_around_strip CodePoint.isAsciiBlank (t.map foldToAscii)
    obtain ⟨sign, minus, unsigned, hsplit, hsign, hbody⟩ :=
      exists_sign (strip CodePoint.isAsciiBlank (t.map foldToAscii))
    obtain ⟨mark, hmark, hunsigned⟩ := exists_mark base unsigned
    obtain ⟨ds, hdigits, hlimit, rfl⟩ := (readInt?_of_parts rfl hsplit rfl).mp h
    have hspelled := Numeral.mk hbefore hsign hmark hdigits hlimit hafter
    rwa [← hunsigned, ← hbody, ← hstrip] at hspelled
  · intro h
    generalize hfolded : t.map foldToAscii = u at h
    cases h with
    | @mk before sign mark digits after minus ds hbefore hsign hmark hdigits hlimit hafter =>
      have hinner : ∀ c ∈ mark ++ digits, IsInner c :=
        List.forall_mem_append.mpr ⟨isInner_mark hmark, hdigits.isInner⟩
      have hcore : ∀ c ∈ sign ++ (mark ++ digits), c.isAsciiBlank = false :=
        List.forall_mem_append.mpr ⟨isAsciiBlank_sign hsign, fun c hc => (hinner c hc).1⟩
      have hbody : strip CodePoint.isAsciiBlank (t.map foldToAscii) = sign ++ (mark ++ digits) := by
        rw [hfolded]
        exact strip_around hbefore (fun c hc => hcore c (List.mem_of_mem_head? hc))
          (fun c hc => hcore c (List.mem_of_getLast? hc)) hafter
      have hsplit : splitSign (sign ++ (mark ++ digits)) = (minus, mark ++ digits) :=
        splitSign_append hsign fun c hc => (hinner c (List.mem_of_mem_head? hc)).2
      exact (readInt?_of_parts hbody hsplit (drop_mark_append hmark hdigits)).mpr
        ⟨ds, hdigits, hlimit, rfl⟩

end Numeral

end EthWire.Text
