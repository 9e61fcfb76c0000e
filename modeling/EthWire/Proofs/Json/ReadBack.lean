import EthWire.Proofs.Json.Text

/-!
# Documents read back

The reader on what the writer leaves, in any layout: the same document, with the members of
each object in the order in which they were written. The induction is over the document,
and every part of it is read with any text behind it that can stand behind a value.
-/

namespace EthWire.Json

/-- What may stand behind a value: nothing, a comma, a closing bracket or a line break. -/
def EndsValue (rest : Text) : Prop :=
  ∀ c, rest.head? = some c → c.val = 0x2c ∨ c.val = 0x5d ∨ c.val = 0x7d ∨ c.val = 0xa

/-- A code point that a written value can start with: no blank, no closing bracket and no
byte order mark. -/
def opensValue (c : CodePoint) : Bool :=
  !isSpace c && c.val != 0x5d && c.val != 0xfeff

theorem opensValue_iff {c : CodePoint} :
    opensValue c = true ↔ isSpace c = false ∧ c.val ≠ 0x5d ∧ c.val ≠ 0xfeff := by
  simp [opensValue, and_assoc]

/-- A text that a scan reads as one value. -/
structure Reads (scan : Scan Json) (t : Text) (j : Json) : Prop where
  opens : ∃ c more, t = c :: more ∧ opensValue c = true
  reads : ∀ rest, EndsValue rest → scan (t ++ rest) = .ok (j, rest)

theorem Reads.skipSpace_append {scan : Scan Json} {t : Text} {j : Json} (h : Reads scan t j)
    (rest : Text) : skipSpace (t ++ rest) = t ++ rest := by
  obtain ⟨c, more, rfl, hc⟩ := h.opens
  rw [List.cons_append, skipSpace_cons (opensValue_iff.mp hc).1]

/-! ## Parts between brackets -/

/-- What stands behind the first of the parts between brackets, the other parts at the depth
`inside` and the closing bracket at `depth`. -/
def behindPart (layout : Layout) (inside depth : Nat) (closing : CodePoint) (rest : Text) :
    List Text → Text
  | [] => lineBreak layout depth ++ closing :: rest
  | part :: parts =>
      CodePoint.ofChar ',' ::
        (lineBreak layout inside ++ (part ++ behindPart layout inside depth closing rest parts))

section Parts

variable {layout : Layout} {inside depth : Nat} {closing : CodePoint} {rest : Text}

theorem enclose_cons (opening closing : Char) (part : Text) (parts : List Text) :
    enclose layout depth opening closing (part :: parts) ++ rest
      = CodePoint.ofChar opening :: (lineBreak layout (depth + 1)
          ++ (part ++ behindPart layout (depth + 1) depth closing rest parts)) := by
  have hbehind : ∀ parts : List Text,
      (parts.map (lineBreak layout (depth + 1) ++ ·)).flatMap ([CodePoint.ofChar ','] ++ ·)
          ++ (lineBreak layout depth ++ CodePoint.ofChar closing :: rest)
        = behindPart layout (depth + 1) depth closing rest parts := by
    intro parts
    induction parts with
    | nil => rfl
    | cons part parts ih =>
      rw [behindPart, ← ih]
      simp
  rw [← hbehind, enclose, List.map_cons, Text.join_cons]
  · simp
  · exact List.cons_ne_nil _ _

theorem enclose_nonempty (opening closing : Char) (part : Text) (parts : List Text) :
    enclose layout depth opening closing (part :: parts) = CodePoint.ofChar opening ::
      (Text.join [CodePoint.ofChar ','] ((part :: parts).map (lineBreak layout (depth + 1) ++ ·))
        ++ lineBreak layout depth ++ [CodePoint.ofChar closing]) := by
  rw [enclose]
  · simp
  · exact List.cons_ne_nil _ _

theorem endsValue_behindPart (hclosing : closing.val = 0x5d ∨ closing.val = 0x7d)
    (parts : List Text) : EndsValue (behindPart layout inside depth closing rest parts) := by
  intro c hc
  cases parts with
  | cons part parts =>
    cases hc
    exact .inl rfl
  | nil =>
    rw [behindPart, lineBreak] at hc
    split at hc
    · cases hc
      exact .inr (hclosing.imp_right .inl)
    · cases hc
      exact .inr (.inr (.inr rfl))

theorem skipSpace_behindPart_nil (hclosing : closing.val = 0x5d ∨ closing.val = 0x7d) :
    skipSpace (behindPart layout inside depth closing rest []) = closing :: rest := by
  have hspace : isSpace closing = false := by
    rcases hclosing with h | h
    · rw [isSpace, h]; rfl
    · rw [isSpace, h]; rfl
  rw [behindPart, skipSpace_lineBreak, skipSpace_cons hspace]

theorem skipSpace_behindPart_cons (part : Text) (parts : List Text) :
    skipSpace (behindPart layout inside depth closing rest (part :: parts))
      = CodePoint.ofChar ',' :: (lineBreak layout inside
          ++ (part ++ behindPart layout inside depth closing rest parts)) := by
  rw [behindPart, skipSpace_cons rfl]

theorem length_lt_behindPart (parts : List Text) :
    parts.length < (behindPart layout inside depth closing rest parts).length := by
  induction parts with
  | nil =>
    rw [behindPart, List.length_append, List.length_cons, List.length_nil]
    omega
  | cons part parts ih =>
    rw [behindPart, List.length_cons, List.length_cons, List.length_append, List.length_append]
    omega

end Parts

section Loops

variable {scan : Scan Json} {layout : Layout} {inside depth fuel : Nat} {closing : CodePoint}
  {rest : Text}

/-- The elements of an array, read one after the other up to the closing bracket. -/
theorem elements_reads {α : Type} {write : α → Text} {view : α → Json}
    (hclosing : closing.val = 0x5d) {x : α} {xs : List α}
    (h : ∀ y ∈ x :: xs, Reads scan (write y) (view y)) (hfuel : xs.length < fuel) :
    elements scan fuel (write x ++ behindPart layout inside depth closing rest (xs.map write))
      = .ok ((x :: xs).map view, rest) := by
  have hends : ∀ parts, EndsValue (behindPart layout inside depth closing rest parts) :=
    endsValue_behindPart (.inl hclosing)
  induction xs generalizing x fuel with
  | nil =>
    obtain ⟨fuel, rfl⟩ := Nat.exists_eq_add_one_of_ne_zero (Nat.ne_of_gt hfuel)
    rw [elements, (h x (by simp)).reads _ (hends _), ok_bind]
    dsimp only
    rw [List.map_nil, skipSpace_behindPart_nil (.inl hclosing)]
    dsimp only
    rw [if_pos hclosing]
    rfl
  | cons y ys ih =>
    rw [List.length_cons] at hfuel
    obtain ⟨fuel, rfl⟩ := Nat.exists_eq_add_one_of_ne_zero (Nat.ne_of_gt (by omega : 0 < fuel))
    have hy := (h y (by simp)).skipSpace_append
    have hmore := ih (fun z hz => h z (List.mem_cons_of_mem _ hz)) (by omega : ys.length < fuel)
    rw [elements, (h x (by simp)).reads _ (hends _), ok_bind]
    dsimp only
    rw [List.map_cons, skipSpace_behindPart_cons]
    dsimp only
    rw [if_neg (by decide), if_pos (by decide), skipSpace_lineBreak, hy, hmore]
    rfl

/-- A member as it is written. -/
def memberText {α : Type} (layout : Layout) (write : α → Text) (m : Text × α) : Text :=
  writeString m.1 ++ keySeparator layout ++ write m.2

theorem memberKey_reads {key : Text} (hkey : StringReads key) (t : Text) :
    memberKey (writeString key ++ keySeparator layout ++ t) = .ok (key, skipSpace t) := by
  obtain ⟨blanks, hseparator, hblanks⟩ := keySeparator_eq layout
  have hstring := hkey (CodePoint.ofChar '"') (CodePoint.ofChar '"')
    (CodePoint.ofChar ':' :: (blanks ++ t)) rfl
  have hsplit : writeString key ++ keySeparator layout ++ t
      = CodePoint.ofChar '"' :: (key.flatMap escapePoint
          ++ CodePoint.ofChar '"' :: CodePoint.ofChar ':' :: (blanks ++ t)) := by
    rw [hseparator, writeString]
    simp
  rw [hsplit]
  unfold memberKey
  dsimp only
  rw [if_pos (by decide), hstring, ok_bind]
  dsimp only
  rw [skipSpace_cons rfl]
  dsimp only
  rw [if_pos (by decide), hblanks]
  rfl

theorem put_of_not_mem {α : Type} {key : Text} {done : List (Text × α)} (v : α)
    (h : key ∉ done.map Prod.fst) : put key v done = done ++ [(key, v)] := by
  induction done with
  | nil => rfl
  | cons m done ih =>
    rw [List.map_cons, List.mem_cons, not_or] at h
    rw [put, if_neg (Ne.symm h.1), ih h.2, List.cons_append]

/-- The loop over the members behind one of them, whose key is new. -/
theorem members_succ {α : Type} {write : α → Text} {view : α → Json} {m : Text × α}
    {done : List (Text × Json)} (hname : StringReads m.1)
    (hvalue : Reads scan (write m.2) (view m.2)) (hkey : m.1 ∉ done.map Prod.fst) {t : Text}
    (ht : EndsValue t) :
    members scan (fuel + 1) done (memberText layout write m ++ t)
      = match skipSpace t with
        | [] => .error (.problem .comma [])
        | c :: more =>
            if c.val = 0x7d then .ok (done ++ [(m.1, view m.2)], more)
            else if c.val = 0x2c then
              members scan fuel (done ++ [(m.1, view m.2)]) (skipSpace more)
            else .error (.problem .comma (c :: more)) := by
  rw [members, memberText, List.append_assoc, memberKey_reads hname, ok_bind]
  dsimp only
  rw [hvalue.skipSpace_append, hvalue.reads _ ht, ok_bind]
  dsimp only
  rw [put_of_not_mem _ hkey]
  rfl

/-- The members of an object, read one after the other up to the closing brace. Since no key
comes twice, each is added behind those that are there. -/
theorem members_reads {α : Type} {write : α → Text} {view : α → Json}
    (hclosing : closing.val = 0x7d) {m : Text × α} {ms : List (Text × α)}
    (hnames : ∀ n ∈ m :: ms, StringReads n.1)
    (h : ∀ n ∈ m :: ms, Reads scan (write n.2) (view n.2)) {done : List (Text × Json)}
    (hkeys : (done.map Prod.fst ++ (m :: ms).map Prod.fst).Nodup) (hfuel : ms.length < fuel) :
    members scan fuel done (memberText layout write m
        ++ behindPart layout inside depth closing rest (ms.map (memberText layout write)))
      = .ok (done ++ (m :: ms).map fun n => (n.1, view n.2), rest) := by
  have hends : ∀ parts, EndsValue (behindPart layout inside depth closing rest parts) :=
    endsValue_behindPart (.inr hclosing)
  induction ms generalizing m fuel done with
  | nil =>
    have hkey : m.1 ∉ done.map Prod.fst := fun hm =>
      (List.nodup_append.mp hkeys).2.2 _ hm _ (by simp) rfl
    obtain ⟨fuel, rfl⟩ := Nat.exists_eq_add_one_of_ne_zero (Nat.ne_of_gt hfuel)
    rw [members_succ (hnames m (by simp)) (h m (by simp)) hkey (hends _), List.map_nil,
      skipSpace_behindPart_nil (.inr hclosing)]
    dsimp only
    rw [if_pos hclosing]
    rfl
  | cons n ns ih =>
    rw [List.length_cons] at hfuel
    have hkey : m.1 ∉ done.map Prod.fst := fun hm =>
      (List.nodup_append.mp hkeys).2.2 _ hm _ (by simp) rfl
    have hquote : ∀ t,
        skipSpace (memberText layout write n ++ t) = memberText layout write n ++ t :=
      fun t => skipSpace_cons rfl _
    obtain ⟨fuel, rfl⟩ := Nat.exists_eq_add_one_of_ne_zero (Nat.ne_of_gt (by omega : 0 < fuel))
    have hmore : members scan fuel (done ++ [(m.1, view m.2)]) (memberText layout write n
          ++ behindPart layout inside depth closing rest (ns.map (memberText layout write)))
        = .ok (done ++ [(m.1, view m.2)] ++ (n :: ns).map fun k => (k.1, view k.2), rest) :=
      ih (fun k hk => hnames k (List.mem_cons_of_mem _ hk))
        (fun k hk => h k (List.mem_cons_of_mem _ hk)) (by simpa using hkeys) (by omega)
    rw [members_succ (hnames m (by simp)) (h m (by simp)) hkey (hends _), List.map_cons,
      skipSpace_behindPart_cons]
    dsimp only
    rw [if_neg (by decide), if_pos (by decide), skipSpace_lineBreak, hquote, hmore,
      List.append_assoc]
    rfl

end Loops

/-! ## Values -/

section Value

variable {levels depth : Nat} {layout : Layout}

theorem value_word {c : CodePoint} {t : Text} {found : Json × Text} (hquote : c.val ≠ 0x22)
    (harray : c.val ≠ 0x5b) (hobject : c.val ≠ 0x7b) (hword : word? (c :: t) = some found) :
    value levels (c :: t) = .ok found := by
  unfold value
  rw [if_neg hquote, if_neg harray, if_neg hobject, hword]

theorem reads_null : Reads (value levels) "null" .null where
  opens := ⟨_, _, rfl, rfl⟩
  reads := fun rest _ =>
    @value_word levels 0x6e _ (.null, rest) (by decide) (by decide) (by decide) rfl

theorem reads_bool (b : Bool) :
    Reads (value levels) (if b then Text.ofString "true" else "false") (.bool b) := by
  cases b with
  | true =>
    exact ⟨⟨_, _, rfl, rfl⟩, fun rest _ =>
      @value_word levels 0x74 _ (.bool true, rest) (by decide) (by decide) (by decide) rfl⟩
  | false =>
    exact ⟨⟨_, _, rfl, rfl⟩, fun rest _ =>
      @value_word levels 0x66 _ (.bool false, rest) (by decide) (by decide) (by decide) rfl⟩

theorem reads_str {s : Text} (hs : StringReads s) :
    Reads (value levels) (writeString s) (.str s) where
  opens := ⟨_, _, rfl, rfl⟩
  reads := by
    intro rest _
    have hstring := hs (CodePoint.ofChar '"') (CodePoint.ofChar '"') rest rfl
    have hsplit : writeString s ++ rest
        = CodePoint.ofChar '"' :: (s.flatMap escapePoint ++ CodePoint.ofChar '"' :: rest) := by
      simp [writeString]
    rw [hsplit]
    unfold value
    rw [if_pos (by decide), hstring]
    rfl

theorem value_array {c : CodePoint} (hc : c.val = 0x5b) (t : Text) :
    value (levels + 1) (c :: t) = array (value levels) t := by
  rw [value.eq_def]
  dsimp only
  rw [if_neg (by omega), if_pos hc]

theorem value_object {c : CodePoint} (hc : c.val = 0x7b) (t : Text) :
    value (levels + 1) (c :: t) = objectBody (value levels) t := by
  rw [value.eq_def]
  dsimp only
  rw [if_neg (by omega), if_neg (by omega), if_pos hc]

theorem reads_arr {α : Type} {write : α → Text} {view : α → Json} {xs : List α}
    (h : ∀ x ∈ xs, Reads (value levels) (write x) (view x)) :
    Reads (value (levels + 1)) (enclose layout depth '[' ']' (xs.map write))
      (.arr (xs.map view)) := by
  cases xs with
  | nil => exact ⟨⟨_, _, rfl, rfl⟩, fun rest _ => value_array rfl _⟩
  | cons x xs =>
    have hx := h x (by simp)
    refine ⟨⟨_, _, enclose_nonempty _ _ _ _, rfl⟩, fun rest _ => ?_⟩
    rw [List.map_cons, enclose_cons, value_array rfl, array, skipSpace_lineBreak,
      hx.skipSpace_append]
    generalize hbehind : behindPart layout (depth + 1) depth (CodePoint.ofChar ']') rest
      (xs.map write) = behind
    have hfuel : xs.length < behind.length := by
      have hlength : (xs.map write).length = xs.length := List.length_map write
      rw [← hbehind, ← hlength]
      exact length_lt_behindPart _
    have hread : elements (value levels) (write x ++ behind).length (write x ++ behind)
        = .ok ((x :: xs).map view, rest) := by
      rw [← hbehind] at hfuel ⊢
      exact elements_reads rfl h (by rw [List.length_append]; omega)
    obtain ⟨c, more, hopens, hc⟩ := hx.opens
    rw [hopens, List.cons_append, List.length_cons] at hread
    rw [hopens, List.cons_append]
    dsimp only
    rw [if_neg (opensValue_iff.mp hc).2.1, hread]
    rfl

theorem reads_obj {α : Type} {write : α → Text} {view : α → Json} {ms : List (Text × α)}
    (hkeys : (ms.map Prod.fst).Nodup) (hnames : ∀ m ∈ ms, StringReads m.1)
    (h : ∀ m ∈ ms, Reads (value levels) (write m.2) (view m.2)) :
    Reads (value (levels + 1))
      (enclose layout depth '\x7b' '\x7d' (ms.map (memberText layout write)))
      (.obj (ms.map fun m => (m.1, view m.2))) := by
  cases ms with
  | nil => exact ⟨⟨_, _, rfl, rfl⟩, fun rest _ => value_object rfl _⟩
  | cons m ms =>
    refine ⟨⟨_, _, enclose_nonempty _ _ _ _, rfl⟩, fun rest _ => ?_⟩
    have hquote : ∀ t, memberText layout write m ++ t = CodePoint.ofChar '"' ::
        (m.1.flatMap escapePoint ++ CodePoint.ofChar '"' ::
          (keySeparator layout ++ write m.2 ++ t)) := by
      intro t
      simp [memberText, writeString]
    rw [List.map_cons, enclose_cons, value_object rfl, objectBody, skipSpace_lineBreak]
    generalize hbehind : behindPart layout (depth + 1) depth (CodePoint.ofChar '\x7d') rest
      (ms.map (memberText layout write)) = behind
    have hfuel : ms.length < behind.length := by
      have hlength : (ms.map (memberText layout write)).length = ms.length := List.length_map _
      rw [← hbehind, ← hlength]
      exact length_lt_behindPart _
    have hread : members (value levels) (memberText layout write m ++ behind).length []
        (memberText layout write m ++ behind)
        = .ok ((m :: ms).map fun n => (n.1, view n.2), rest) := by
      rw [← hbehind] at hfuel ⊢
      exact members_reads rfl hnames h (by simpa using hkeys) (by rw [List.length_append]; omega)
    rw [hquote, List.length_cons] at hread
    rw [hquote, skipSpace_cons rfl]
    dsimp only
    rw [if_neg (by decide), hread]
    rfl

end Value

/-! ## Documents -/

mutual

/-- A document with the members of each object in the order in which they are written. -/
def arranged (layout : Layout) : Json → Json
  | .arr js => .arr (arrangedElements layout js)
  | .obj ms => .obj (arrange layout (arrangedMembers layout ms))
  | j => j

def arrangedElements (layout : Layout) : List Json → List Json
  | [] => []
  | j :: js => arranged layout j :: arrangedElements layout js

def arrangedMembers (layout : Layout) : List (Text × Json) → List (Text × Json)
  | [] => []
  | (key, j) :: ms => (key, arranged layout j) :: arrangedMembers layout ms

end

section Document

variable {layout : Layout}

theorem arrangedElements_eq_map (js : List Json) :
    arrangedElements layout js = js.map (arranged layout) := by
  induction js with
  | nil => rw [arrangedElements]; rfl
  | cons j js ih => rw [arrangedElements, ih]; rfl

theorem arrangedMembers_eq_map (ms : List (Text × Json)) :
    arrangedMembers layout ms = ms.map fun m => (m.1, arranged layout m.2) := by
  induction ms with
  | nil => rw [arrangedMembers]; rfl
  | cons m ms ih => rw [arrangedMembers, ih]; rfl

@[simp] theorem arranged_null : arranged layout .null = .null := by rw [arranged.eq_def]

@[simp] theorem arranged_bool (b : Bool) : arranged layout (.bool b) = .bool b := by
  rw [arranged.eq_def]

@[simp] theorem arranged_int (n : Int) : arranged layout (.int n) = .int n := by
  rw [arranged.eq_def]

@[simp] theorem arranged_float (x : Binary64) : arranged layout (.float x) = .float x := by
  rw [arranged.eq_def]

@[simp] theorem arranged_str (s : Text) : arranged layout (.str s) = .str s := by
  rw [arranged.eq_def]

@[simp] theorem arranged_arr (js : List Json) :
    arranged layout (.arr js) = .arr (js.map (arranged layout)) := by
  rw [arranged, arrangedElements_eq_map]

theorem writeElements_eq_map (depth : Nat) (js : List Json) :
    writeElements layout depth js = js.map (writeAt layout depth) := by
  induction js with
  | nil => rw [writeElements]; rfl
  | cons j js ih => rw [writeElements, ih]; rfl

theorem writeMembers_eq_map (depth : Nat) (ms : List (Text × Json)) :
    writeMembers layout depth ms = ms.map fun m => (m.1, writeAt layout depth m.2) := by
  induction ms with
  | nil => rw [writeMembers]; rfl
  | cons m ms ih => rw [writeMembers, ih]; rfl

/-- The order of members depends on their keys alone. -/
theorem arrange_map {α β : Type} (f : α → β) (ms : List (Text × α)) :
    arrange layout (ms.map fun m => (m.1, f m.2))
      = (arrange layout ms).map fun m => (m.1, f m.2) := by
  unfold arrange
  split
  · symm
    apply List.map_mergeSort
    intro a _ b _
    rfl
  · rfl

theorem arrange_perm {α : Type} (ms : List (Text × α)) : (arrange layout ms).Perm ms := by
  unfold arrange
  split
  · exact List.mergeSort_perm _ _
  · exact .rfl

mutual

/-- A layout that does not sort the keys leaves every document as it is. -/
theorem arranged_eq_self (h : layout.sortKeys = false) : ∀ j : Json, arranged layout j = j
  | .null => arranged_null
  | .bool b => arranged_bool b
  | .int n => arranged_int n
  | .float x => arranged_float x
  | .str s => arranged_str s
  | .arr js => by rw [arranged, arrangedElements_eq_self h js]
  | .obj ms => by rw [arranged, arrangedMembers_eq_self h ms, arrange, h, if_neg (by decide)]

theorem arrangedElements_eq_self (h : layout.sortKeys = false) :
    ∀ js : List Json, arrangedElements layout js = js
  | [] => by rw [arrangedElements]
  | j :: js => by rw [arrangedElements, arranged_eq_self h j, arrangedElements_eq_self h js]

theorem arrangedMembers_eq_self (h : layout.sortKeys = false) :
    ∀ ms : List (Text × Json), arrangedMembers layout ms = ms
  | [] => by rw [arrangedMembers]
  | (key, j) :: ms => by
    rw [arrangedMembers, arranged_eq_self h j, arrangedMembers_eq_self h ms]

end

/-- A document of at most `levels` nested arrays and objects, in which no object has a key
twice and every string and every number is read back. -/
inductive Legible : (levels : Nat) → Json → Prop
  | null {levels : Nat} : Legible levels .null
  | bool {levels : Nat} (b : Bool) : Legible levels (.bool b)
  | int {levels : Nat} {n : Int} (h : Reads (value levels) (Text.ofInt n) (.int n))
      (hwritten : Text.isWritten n = true) : Legible levels (.int n)
  | float {levels : Nat} {x : Binary64} (h : Reads (value levels) (writeFloat x) (.float x)) :
      Legible levels (.float x)
  | str {levels : Nat} {s : Text} (h : StringReads s) : Legible levels (.str s)
  | arr {levels : Nat} {js : List Json} (h : ∀ j ∈ js, Legible levels j) :
      Legible (levels + 1) (.arr js)
  | obj {levels : Nat} {ms : List (Text × Json)} (hkeys : (ms.map Prod.fst).Nodup)
      (hnames : ∀ m ∈ ms, StringReads m.1) (h : ∀ m ∈ ms, Legible levels m.2) :
      Legible (levels + 1) (.obj ms)

theorem reads_writeAt {levels : Nat} {j : Json} (h : Legible levels j) (depth : Nat) :
    Reads (value levels) (writeAt layout depth j) (arranged layout j) := by
  induction h generalizing depth with
  | null =>
    rw [writeAt, arranged_null]
    exact reads_null
  | bool b =>
    rw [writeAt, arranged_bool]
    exact reads_bool b
  | int h _ => rwa [writeAt, arranged.eq_def]
  | float h => rwa [writeAt, arranged.eq_def]
  | str h =>
    rw [writeAt, arranged_str]
    exact reads_str h
  | arr h ih =>
    rw [writeAt, arranged_arr, writeElements_eq_map]
    exact reads_arr fun j hj => ih j hj (depth + 1)
  | @obj levels ms hkeys hnames h ih =>
    rw [writeAt, arranged, writeMembers_eq_map, arrangedMembers_eq_map, arrange_map, arrange_map,
      List.map_map]
    have hperm := @arrange_perm layout Json ms
    refine reads_obj ?_ ?_ ?_
    · exact (hperm.map Prod.fst).nodup_iff.mpr hkeys
    · exact fun m hm => hnames m (hperm.mem_iff.mp hm)
    · exact fun m hm => ih m (hperm.mem_iff.mp hm) (depth + 1)

/-- A text that does not start with a byte order mark is read from its start. -/
theorem document_eq {t : Text} (h : ∀ c, t.head? = some c → c.val ≠ 0xfeff) :
    document t = document.read t := by
  cases t with
  | nil => rfl
  | cons c t => rw [document, if_neg (h c rfl)]

theorem read_eq_ok_iff {t : Text} {j : Json} : read t = .ok j ↔
    (∀ c, t.head? = some c → c.val ≠ 0xfeff) ∧
      ∃ rest, value nestingLimit (skipSpace t) = .ok (j, rest) ∧ skipSpace rest = [] := by
  rw [read, mapError_eq_ok]
  constructor
  · intro h
    have hmark : ∀ c, t.head? = some c → c.val ≠ 0xfeff := by
      intro c hc hval
      obtain ⟨t, rfl⟩ := List.head?_eq_some_iff.mp hc
      rw [document, if_pos hval] at h
      cases h
    rw [document_eq hmark] at h
    obtain ⟨⟨found, rest⟩, hvalue, h⟩ := bind_eq_ok.mp h
    dsimp only at h
    split at h
    next hrest =>
      obtain rfl := Except.ok.inj h
      exact ⟨hmark, rest, hvalue, hrest⟩
    next => cases h
  · intro h
    obtain ⟨hmark, rest, hvalue, hrest⟩ := h
    rw [document_eq hmark, document.read, hvalue, ok_bind]
    dsimp only
    rw [hrest]
    rfl

/-- A legible document is read back from its text in any layout. -/
theorem read_write {j : Json} (h : Legible nestingLimit j) :
    read (write layout j) = .ok (arranged layout j) := by
  have hreads := @reads_writeAt layout _ _ h 0
  have hspace := hreads.skipSpace_append []
  have hends : EndsValue [] := by
    intro c hc
    cases hc
  have hvalue := hreads.reads [] hends
  rw [List.append_nil] at hspace hvalue
  refine read_eq_ok_iff.mpr ⟨?_, [], ?_, rfl⟩
  · obtain ⟨c, more, hopens, hc⟩ := hreads.opens
    intro d hd
    rw [write, hopens] at hd
    obtain rfl := Option.some.inj hd
    exact (opensValue_iff.mp hc).2.2
  · rw [write, hspace, hvalue]

theorem read_write_self {j : Json} (h : Legible nestingLimit j)
    (hlayout : layout.sortKeys = false) : read (write layout j) = .ok j := by
  rw [read_write h, arranged_eq_self hlayout]

end Document

end EthWire.Json
