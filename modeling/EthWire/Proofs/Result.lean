import EthWire.Fault.Basic
import Mathlib.Data.List.Forall2

/-!
# Results that may be faults

How a sequence of steps succeeds or fails, step by step.
-/

namespace EthWire

variable {ε α β γ : Type}

@[simp] theorem ok_bind (a : α) (f : α → Except ε β) : (Except.ok a >>= f) = f a := rfl

@[simp] theorem error_bind (e : ε) (f : α → Except ε β) :
    ((Except.error e : Except ε α) >>= f) = .error e := rfl

@[simp] theorem pure_eq_ok (a : α) : (pure a : Except ε α) = .ok a := rfl

@[simp] theorem map_ok (f : α → β) (a : α) : (Except.ok a : Except ε α).map f = .ok (f a) := rfl

theorem bind_eq_ok {x : Except ε α} {f : α → Except ε β} {b : β} :
    (x >>= f) = .ok b ↔ ∃ a, x = .ok a ∧ f a = .ok b := by
  cases x with
  | error e => simp
  | ok a => simp

theorem bind_eq_error {x : Except ε α} {f : α → Except ε β} {e : ε} :
    (x >>= f) = .error e ↔ x = .error e ∨ ∃ a, x = .ok a ∧ f a = .error e := by
  cases x with
  | error e => simp
  | ok a => simp

theorem map_eq_ok {x : Except ε α} {f : α → β} {b : β} :
    x.map f = .ok b ↔ ∃ a, x = .ok a ∧ f a = b := by
  cases x with
  | error e => simp [Except.map]
  | ok a => simp

theorem mapError_eq_ok {δ : Type} {x : Except ε α} {f : ε → δ} {a : α} :
    x.mapError f = .ok a ↔ x = .ok a := by
  cases x with
  | error e =>
    constructor
    · intro h
      cases h
    · intro h
      cases h
  | ok b =>
    constructor
    · intro h
      obtain rfl := Except.ok.inj h
      rfl
    · intro h
      obtain rfl := Except.ok.inj h
      rfl

theorem exists_mapError_eq_ok {δ : Type} {x : Except ε α} (h : x.isOk = true) (f : ε → δ) :
    ∃ a, x.mapError f = .ok a := by
  cases x with
  | error e => cases h
  | ok a => exact ⟨a, rfl⟩

theorem mapError_eq_error {δ : Type} {x : Except ε α} {f : ε → δ} {d : δ} :
    x.mapError f = .error d ↔ ∃ e, x = .error e ∧ f e = d := by
  cases x with
  | error e => simp [Except.mapError]
  | ok a => simp [Except.mapError]

theorem toOption_eq_some {x : Except ε α} {a : α} : x.toOption = some a ↔ x = .ok a := by
  cases x with
  | error e => simp [Except.toOption]
  | ok b => simp [Except.toOption]

@[simp] theorem mapM_ok (as : List α) : as.mapM (fun a => (.ok a : Except ε α)) = .ok as := by
  have h := @List.mapM_pure (Except ε) α α _ _ as id
  rwa [List.map_id] at h

/-- Each element is read back from what is written for it. -/
theorem mapM_map_ok {write : α → β} {read : β → Except ε γ} {view : α → γ}
    (h : ∀ a, read (write a) = .ok (view a)) (as : List α) :
    (as.map write).mapM read = .ok (as.map view) := by
  induction as with
  | nil => rfl
  | cons a as ih => rw [List.map_cons, List.mapM_cons, h, ih]; rfl

/-- What is read from a list is written as that list, if each element is. -/
theorem map_of_mapM_eq_ok {write : γ → β} {read : β → Except ε γ}
    (h : ∀ b c, read b = .ok c → write c = b) {bs : List β} {cs : List γ}
    (hread : bs.mapM read = .ok cs) : cs.map write = bs := by
  induction bs generalizing cs with
  | nil =>
    obtain rfl := Except.ok.inj hread
    rfl
  | cons b bs ih =>
    rw [List.mapM_cons] at hread
    obtain ⟨c, hc, hread⟩ := bind_eq_ok.mp hread
    obtain ⟨ds, hds, hread⟩ := bind_eq_ok.mp hread
    obtain rfl := Except.ok.inj hread
    rw [List.map_cons, h b c hc, ih hds]

theorem mapM_eq_ok {read : α → Except ε β} {as : List α} {bs : List β} :
    as.mapM read = .ok bs ↔ List.Forall₂ (fun a b => read a = .ok b) as bs := by
  induction as generalizing bs with
  | nil =>
    rw [List.mapM_nil, List.forall₂_nil_left_iff]
    exact ⟨fun h => (Except.ok.inj h).symm, fun h => h ▸ rfl⟩
  | cons a as ih =>
    rw [List.mapM_cons, List.forall₂_cons_left_iff]
    simp only [bind_eq_ok, ih, pure_eq_ok, Except.ok.injEq]
    constructor
    · intro h
      obtain ⟨b, hb, cs, hcs, rfl⟩ := h
      exact ⟨b, cs, hb, hcs, rfl⟩
    · intro h
      obtain ⟨b, cs, hb, hcs, rfl⟩ := h
      exact ⟨b, hb, cs, hcs, rfl⟩

/-- The first element that cannot be read is reported. -/
theorem mapM_eq_error {read : α → Except ε β} {as : List α} {e : ε} :
    as.mapM read = .error e ↔ ∃ before a after, as = before ++ a :: after ∧
      (∀ b ∈ before, ∃ c, read b = .ok c) ∧ read a = .error e := by
  induction as with
  | nil => simp
  | cons a as ih =>
    rw [List.mapM_cons, bind_eq_error]
    constructor
    · intro h
      rcases h with ha | ⟨c, hc, h⟩
      · exact ⟨[], a, as, rfl, List.forall_mem_nil _, ha⟩
      · rcases bind_eq_error.mp h with h | ⟨cs, -, hcs⟩
        · obtain ⟨before, b, after, rfl, hbefore, hb⟩ := ih.mp h
          exact ⟨a :: before, b, after, rfl, List.forall_mem_cons.mpr ⟨⟨c, hc⟩, hbefore⟩, hb⟩
        · cases hcs
    · intro h
      obtain ⟨before, b, after, hsplit, hbefore, hb⟩ := h
      cases before with
      | nil =>
        obtain ⟨rfl, -⟩ := List.cons.inj hsplit
        exact .inl hb
      | cons d before =>
        obtain ⟨rfl, rfl⟩ := List.cons.inj hsplit
        obtain ⟨⟨c, hc⟩, hbefore⟩ := List.forall_mem_cons.mp hbefore
        refine .inr ⟨c, hc, ?_⟩
        rw [ih.mpr ⟨before, b, after, rfl, hbefore, hb⟩]
        rfl

theorem mapM_append_error {read : α → Except ε β} {as : List α} {e : ε}
    (h : as.mapM read = .error e) (more : List α) : (as ++ more).mapM read = .error e := by
  rw [List.mapM_append, h]
  rfl

/-- Each element of the second list has its partner in the first. -/
theorem exists_of_mem_right {R : α → β → Prop} {as : List α} {bs : List β}
    (h : List.Forall₂ R as bs) {b : β} (hb : b ∈ bs) : ∃ a ∈ as, R a b := by
  induction h with
  | nil => cases hb
  | @cons a _ as _ hab _ ih =>
    rcases List.mem_cons.mp hb with rfl | hb
    · exact ⟨a, List.mem_cons_self, hab⟩
    · obtain ⟨x, hx, hxb⟩ := ih hb
      exact ⟨x, List.mem_cons_of_mem a hx, hxb⟩

theorem forall_mem_of_forall₂ {R : α → β → Prop} {as : List α} {bs : List β}
    (h : List.Forall₂ R as bs) : ∀ a ∈ as, ∃ b, R a b := by
  intro a ha
  obtain ⟨b, -, hab⟩ := exists_of_mem_right h.flip ha
  exact ⟨b, hab⟩

/-- All elements are read if each of them is. -/
theorem exists_mapM_eq_ok {read : α → Except ε β} {as : List α} :
    (∃ bs, as.mapM read = .ok bs) ↔ ∀ a ∈ as, ∃ b, read a = .ok b := by
  constructor
  · intro h
    obtain ⟨bs, hbs⟩ := h
    exact forall_mem_of_forall₂ (mapM_eq_ok.mp hbs)
  · intro h
    cases hread : as.mapM read with
    | ok bs => exact ⟨bs, rfl⟩
    | error e =>
      obtain ⟨before, a, after, rfl, -, ha⟩ := mapM_eq_error.mp hread
      obtain ⟨b, hb⟩ := h a (by simp)
      rw [ha] at hb
      cases hb

/-! ## Two results -/

/-- Two runs end alike if both end in a fault, or both in a value and the values are related. -/
inductive EndAlike (R : α → β → Prop) : Except ε α → Except ε β → Prop
  | faults {e f : ε} : EndAlike R (.error e) (.error f)
  | values {a : α} {b : β} (h : R a b) : EndAlike R (.ok a) (.ok b)

namespace EndAlike

variable {δ : Type} {R : α → β → Prop} {S : γ → δ → Prop}

theorem refl (x : Except ε α) : EndAlike Eq x x := by
  cases x with
  | error e => exact .faults
  | ok a => exact .values rfl

theorem bind {x : Except ε α} {y : Except ε β} {f : α → Except ε γ} {g : β → Except ε δ}
    (h : EndAlike R x y) (hrest : ∀ a b, R a b → EndAlike S (f a) (g b)) :
    EndAlike S (x >>= f) (y >>= g) := by
  cases h with
  | faults => exact .faults
  | values hab => exact hrest _ _ hab

/-- Runs that have come to the same value go on from there. -/
theorem bind_same {x y : Except ε α} {f : α → Except ε γ} {g : α → Except ε δ}
    (h : EndAlike Eq x y) (hrest : ∀ a, EndAlike S (f a) (g a)) :
    EndAlike S (x >>= f) (y >>= g) :=
  h.bind fun a _ hab => hab ▸ hrest a

theorem map {f : α → γ} {g : β → δ} {x : Except ε α} {y : Except ε β} (h : EndAlike R x y)
    (hvalues : ∀ a b, R a b → S (f a) (g b)) : EndAlike S (x.map f) (y.map g) := by
  cases h with
  | faults => exact .faults
  | values hab => exact .values (hvalues _ _ hab)

theorem of_map {f : α → γ} (hf : Function.Injective f) {x y : Except ε α}
    (h : EndAlike Eq (x.map f) (y.map f)) : EndAlike Eq x y := by
  cases x with
  | error e =>
    cases y with
    | error e' => exact .faults
    | ok b => cases h
  | ok a =>
    cases y with
    | error e => cases h
    | ok b =>
      obtain _ | hab := h
      exact .values (hf hab)

/-- Lists are read alike if their elements are, one by one. -/
theorem mapM {read : α → Except ε γ} {read' : β → Except ε γ}
    (h : ∀ a b, R a b → EndAlike Eq (read a) (read' b)) {as : List α} {bs : List β}
    (hlists : List.Forall₂ R as bs) : EndAlike Eq (as.mapM read) (bs.mapM read') := by
  induction hlists with
  | nil => exact .refl _
  | cons hab _ ih =>
    rw [List.mapM_cons, List.mapM_cons]
    exact (h _ _ hab).bind_same fun c => ih.bind_same fun cs => .refl _

end EndAlike

theorem endAlike_eq_iff {x y : Except ε α} : EndAlike Eq x y ↔ ∀ a, x = .ok a ↔ y = .ok a := by
  constructor
  · rintro (_ | ⟨rfl⟩) a
    · simp
    · rfl
  · intro h
    cases x with
    | ok a => exact (h a).mp rfl ▸ .refl _
    | error e =>
      cases y with
      | ok b => cases (h b).mpr rfl
      | error f => exact .faults

/-! ## What a result is known for -/

/-- Whatever comes out has the property. -/
def Yields (P : α → Prop) (x : Except ε α) : Prop := ∀ a, x = .ok a → P a

@[simp] theorem yields_ok {P : α → Prop} {a : α} : Yields P (.ok a : Except ε α) ↔ P a := by
  constructor
  · intro h
    exact h a rfl
  · intro h b hb
    obtain rfl := Except.ok.inj hb
    exact h

@[simp] theorem yields_error {P : α → Prop} {e : ε} : Yields P (.error e : Except ε α) := by
  intro a ha
  cases ha

@[simp] theorem yields_bind {P : β → Prop} {x : Except ε α} {f : α → Except ε β} :
    Yields P (x >>= f) ↔ ∀ a, x = .ok a → Yields P (f a) := by
  cases x with
  | error e => simp
  | ok a => simp

theorem yields_mapM {P : β → Prop} {read : α → Except ε β} (h : ∀ a, Yields P (read a))
    (as : List α) : Yields (fun bs => ∀ b ∈ bs, P b) (as.mapM read) := by
  induction as with
  | nil => simp
  | cons a as ih =>
    rw [List.mapM_cons, yields_bind]
    intro b hb
    rw [yields_bind]
    intro bs hbs
    have hhead : P b := h a b hb
    have htail : ∀ c ∈ bs, P c := ih bs hbs
    rw [pure_eq_ok, yields_ok, List.forall_mem_cons]
    exact ⟨hhead, htail⟩

end EthWire
