import EthWire.Json.Reader
import EthWire.Json.Writer
import EthWire.Proofs.Result

/-!
# Strings and blanks of JSON text

What the reader makes of the strings and of the line breaks that the writer leaves.
-/

namespace EthWire

theorem Text.join_cons (separator t : Text) (ts : List Text) :
    Text.join separator (t :: ts) = t ++ ts.flatMap fun u => separator ++ u := by
  induction ts generalizing t with
  | nil => rw [Text.join, List.flatMap_nil, List.append_nil]
  | cons u us ih => rw [Text.join, ih, List.flatMap_cons, List.append_assoc, List.append_assoc]

namespace Json

/-! ## Strings -/

/-- A string that is read back from its escapes. -/
def StringReads (s : Text) : Prop :=
  ∀ (quote close : CodePoint) (rest : Text), close.val = 0x22 →
    string quote (s.flatMap escapePoint ++ close :: rest) = .ok (s, rest)

/-- A code point that stands for itself in a string. -/
def isPlain (c : CodePoint) : Bool :=
  0x20 ≤ c.val && c.val ≤ 0x7e && c.val != 0x22 && c.val != 0x5c

theorem isPlain_iff {c : CodePoint} :
    isPlain c = true ↔ 0x20 ≤ c.val ∧ c.val ≤ 0x7e ∧ c.val ≠ 0x22 ∧ c.val ≠ 0x5c := by
  simp [isPlain, and_assoc]

theorem escapePoint_plain {c : CodePoint} (hc : isPlain c = true) : escapePoint c = [c] := by
  rw [isPlain_iff] at hc
  unfold escapePoint
  repeat rw [if_neg (by omega)]
  rw [if_pos (by omega)]

theorem flatMap_escapePoint_plain {s : Text} (hs : s.all isPlain = true) :
    s.flatMap escapePoint = s := by
  induction s with
  | nil => rfl
  | cons c s ih =>
    rw [List.all_cons, Bool.and_eq_true] at hs
    rw [List.flatMap_cons, escapePoint_plain hs.1, ih hs.2, List.singleton_append]

theorem stringPoint_plain {c : CodePoint} (hc : isPlain c = true) (rest : Text) :
    stringPoint (c :: rest) = .ok (some c, rest) := by
  rw [isPlain_iff] at hc
  unfold stringPoint
  dsimp only
  rw [if_neg (by omega), if_neg (by omega), if_neg (by omega)]

theorem stringPoint_close {c : CodePoint} (hc : c.val = 0x22) (rest : Text) :
    stringPoint (c :: rest) = .ok (none, rest) := by
  unfold stringPoint
  dsimp only
  rw [if_pos hc]

theorem stringBody_plain {s : Text} (hs : s.all isPlain = true) {close : CodePoint}
    (hclose : close.val = 0x22) (rest : Text) {fuel : Nat} (hfuel : s.length < fuel) :
    stringBody fuel (s ++ close :: rest) = .ok (s, rest) := by
  induction s generalizing fuel with
  | nil =>
    obtain ⟨fuel, rfl⟩ := Nat.exists_eq_add_one_of_ne_zero (Nat.ne_of_gt hfuel)
    rw [List.nil_append, stringBody, stringPoint_close hclose]
    rfl
  | cons c s ih =>
    rw [List.all_cons, Bool.and_eq_true] at hs
    rw [List.length_cons] at hfuel
    obtain ⟨fuel, rfl⟩ := Nat.exists_eq_add_one_of_ne_zero (Nat.ne_of_gt (by omega : 0 < fuel))
    rw [List.cons_append, stringBody, stringPoint_plain hs.1, ok_bind]
    dsimp only
    rw [ih hs.2 (by omega)]
    rfl

theorem stringReads_plain {s : Text} (hs : s.all isPlain = true) : StringReads s := by
  intro quote close rest hclose
  have hfuel : s.length < (s ++ close :: rest).length + 1 := by
    rw [List.length_append]
    omega
  rw [flatMap_escapePoint_plain hs, string, stringBody_plain hs hclose rest hfuel]
  rfl

/-! ## Blanks -/

theorem skipSpace_cons {c : CodePoint} (hc : isSpace c = false) (t : Text) :
    skipSpace (c :: t) = c :: t := by
  rw [skipSpace, List.dropWhile_cons_of_neg (by simp [hc])]

theorem skipSpace_lineBreak (layout : Layout) (depth : Nat) (t : Text) :
    skipSpace (lineBreak layout depth ++ t) = skipSpace t := by
  have hspaces : ∀ c ∈ lineBreak layout depth, isSpace c = true := by
    unfold lineBreak
    intro c hc
    split at hc
    · cases hc
    · rcases List.mem_cons.mp hc with rfl | hc
      · rfl
      · rw [List.eq_of_mem_replicate hc]
        rfl
  rw [skipSpace, List.dropWhile_append_of_pos hspaces]
  rfl

/-- Behind the colon of a key there is at most a blank. -/
theorem keySeparator_eq (layout : Layout) :
    ∃ blanks : Text, keySeparator layout = CodePoint.ofChar ':' :: blanks ∧
      ∀ t, skipSpace (blanks ++ t) = skipSpace t := by
  unfold keySeparator
  split
  · exact ⟨[CodePoint.ofChar ' '], rfl, fun t => rfl⟩
  · exact ⟨[], rfl, fun t => rfl⟩

end Json

end EthWire
