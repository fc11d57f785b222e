import Mathlib.Data.List.Forall2

/-!
# Computations that can fail

A computation in `Except` gives a value or an error, and a sequence of them gives up at the first
error.

* `bind_eq_ok_iff` takes a sequence of two apart.
* `mapM_eq_ok_iff` says that the values of a list are those of its elements, one by one, and
  `exists_mapM_iff` that there are any if and only if every element has a value.
* `foldlM_induction` says that what every step keeps holds after all of them.
* An `Intake` is a step that takes in one more element, unless what is there speaks against it.
  Which elements are taken in can be told from the list (`Intake.exists_foldlM_iff`), and so can
  what is there in the end (`Intake.foldlM_has_iff`).
-/

set_option autoImplicit false

namespace RightOfWay

variable {ε α β σ : Type}

theorem bind_eq_ok_iff {x : Except ε α} {f : α → Except ε β} {b : β} :
    x >>= f = .ok b ↔ ∃ a, x = .ok a ∧ f a = .ok b := by
  rcases x with e | a
  · exact iff_of_false nofun fun ⟨_, h, _⟩ ↦ nomatch h
  · exact ⟨fun h ↦ ⟨a, rfl, h⟩, fun ⟨_, ha, h⟩ ↦ Except.ok.inj ha ▸ h⟩

/-- A value that has been mapped comes from a value. -/
theorem exists_of_map_eq_ok {f : α → β} {x : Except ε α} {b : β} (h : x.map f = .ok b) :
    ∃ a, x = .ok a ∧ b = f a := by
  cases x with
  | error e => cases h
  | ok a =>
    cases h
    exact ⟨a, rfl, rfl⟩

theorem exists_of_isOk {x : Except ε α} (h : x.isOk = true) : ∃ a, x = .ok a := by
  cases x with
  | error e => cases h
  | ok a => exact ⟨a, rfl⟩

theorem exists_map_eq_ok_iff {f : α → β} {x : Except ε α} :
    (∃ b, x.map f = .ok b) ↔ ∃ a, x = .ok a := by
  constructor
  · rintro ⟨b, h⟩
    obtain ⟨a, ha, -⟩ := exists_of_map_eq_ok h
    exact ⟨a, ha⟩
  · rintro ⟨a, rfl⟩
    exact ⟨f a, rfl⟩

theorem isOk_iff {x : Except ε α} : x.isOk = true ↔ ∃ a, x = .ok a :=
  ⟨exists_of_isOk, fun ⟨_, h⟩ ↦ h ▸ rfl⟩

/-- The values of a list are the values of its elements. -/
theorem mapM_eq_ok_iff {f : α → Except ε β} {as : List α} {bs : List β} :
    as.mapM f = .ok bs ↔ as.Forall₂ (fun a b ↦ f a = .ok b) bs := by
  induction as generalizing bs with
  | nil =>
    rw [List.forall₂_nil_left_iff]
    exact ⟨fun h ↦ (Except.ok.inj h).symm, fun h ↦ h ▸ rfl⟩
  | cons a as ih =>
    rw [List.mapM_cons, bind_eq_ok_iff, List.forall₂_cons_left_iff]
    simp only [bind_eq_ok_iff, ih]
    constructor
    · rintro ⟨b, hb, bs, hbs, h⟩
      exact ⟨b, bs, hb, hbs, (Except.ok.inj h).symm⟩
    · rintro ⟨b, bs, hb, hbs, rfl⟩
      exact ⟨b, hb, bs, hbs, rfl⟩

/-- A list has values if all its elements have. -/
theorem exists_mapM_iff {f : α → Except ε β} {as : List α} :
    (∃ bs, as.mapM f = .ok bs) ↔ ∀ a ∈ as, ∃ b, f a = .ok b := by
  simp only [mapM_eq_ok_iff]
  induction as with
  | nil => exact iff_of_true ⟨[], .nil⟩ nofun
  | cons a as ih =>
    rw [List.forall_mem_cons, ← ih]
    constructor
    · rintro ⟨_, _ | ⟨hb, hbs⟩⟩
      exact ⟨⟨_, hb⟩, _, hbs⟩
    · rintro ⟨⟨b, hb⟩, bs, hbs⟩
      exact ⟨b :: bs, .cons hb hbs⟩

theorem mem_of_mapM_eq_ok {f : α → Except ε β} {as : List α} {bs : List β}
    (h : as.mapM f = .ok bs) {b : β} : b ∈ bs ↔ ∃ a ∈ as, f a = .ok b := by
  rw [mapM_eq_ok_iff] at h
  induction h with
  | nil => simp
  | cons hab _ ih => rw [List.mem_cons, List.exists_mem_cons_iff, ih, hab, Except.ok.injEq, eq_comm]

/-- What every step keeps holds after all of them. -/
theorem foldlM_induction {P : σ → Prop} {f : σ → α → Except ε σ}
    (hstep : ∀ s a s', f s a = .ok s' → P s → P s') {as : List α} {s s' : σ}
    (h : as.foldlM f s = .ok s') (hs : P s) : P s' := by
  induction as generalizing s with
  | nil =>
    cases h
    exact hs
  | cons a as ih =>
    rw [List.foldlM_cons] at h
    obtain ⟨next, hnext, h⟩ := bind_eq_ok_iff.1 h
    exact ih h (hstep s a next hnext hs)

/-! ## Elements taken in one by one -/

/-- The step takes in an element that is sound and goes with all that is there.  The element brings
something with it, and nothing else changes in what is there. -/
structure Intake (f : σ → α → Except ε σ) (inv : σ → Prop) (has : σ → β → Prop)
    (sound : α → Prop) (fits : β → α → Prop) (brings : α → β → Prop) : Prop where
  keeps : ∀ s a s', f s a = .ok s' → inv s → inv s'
  exists_iff : ∀ s a, inv s → ((∃ s', f s a = .ok s') ↔ sound a ∧ ∀ b, has s b → fits b a)
  has_iff : ∀ s a s', f s a = .ok s' → inv s → ∀ b, has s' b ↔ has s b ∨ brings a b

namespace Intake

variable {f : σ → α → Except ε σ} {inv : σ → Prop} {has : σ → β → Prop} {sound : α → Prop}
  {fits : β → α → Prop} {brings : α → β → Prop} {as : List α} {s s' : σ}

/-- What there is in the end was there before or has come with an element. -/
theorem foldlM_has_iff (h : Intake f inv has sound fits brings) (hs : inv s)
    (hrun : as.foldlM f s = .ok s') (b : β) : has s' b ↔ has s b ∨ ∃ a ∈ as, brings a b := by
  induction as generalizing s with
  | nil =>
    cases hrun
    simp
  | cons a as ih =>
    rw [List.foldlM_cons] at hrun
    obtain ⟨next, hnext, hrun⟩ := bind_eq_ok_iff.1 hrun
    rw [ih (h.keeps s a next hnext hs) hrun, h.has_iff s a next hnext hs, List.exists_mem_cons_iff,
      or_assoc]

/-- **All elements are taken in if each is sound and goes with what was there before and with what
those before it bring.** -/
theorem exists_foldlM_iff (h : Intake f inv has sound fits brings) (hs : inv s) :
    (∃ s', as.foldlM f s = .ok s') ↔ (∀ a ∈ as, sound a) ∧ (∀ a ∈ as, ∀ b, has s b → fits b a) ∧
      as.Pairwise fun a a' ↦ ∀ b, brings a b → fits b a' := by
  induction as generalizing s with
  | nil => exact iff_of_true ⟨s, rfl⟩ ⟨nofun, nofun, .nil⟩
  | cons a as ih =>
    simp only [List.foldlM_cons, bind_eq_ok_iff, List.forall_mem_cons, List.pairwise_cons]
    constructor
    · rintro ⟨s', next, hnext, hrun⟩
      obtain ⟨hsound, hfits⟩ := (h.exists_iff s a hs).1 ⟨next, hnext⟩
      obtain ⟨hsounds, hrest, hpairs⟩ := (ih (h.keeps s a next hnext hs)).1 ⟨s', hrun⟩
      have hhas := h.has_iff s a next hnext hs
      exact ⟨⟨hsound, hsounds⟩, ⟨hfits, fun a' ha' b hb ↦ hrest a' ha' b ((hhas b).2 (.inl hb))⟩,
        fun a' ha' b hb ↦ hrest a' ha' b ((hhas b).2 (.inr hb)), hpairs⟩
    · rintro ⟨⟨hsound, hsounds⟩, ⟨hfits, hrest⟩, hfirst, hpairs⟩
      obtain ⟨next, hnext⟩ := (h.exists_iff s a hs).2 ⟨hsound, hfits⟩
      have hhas := h.has_iff s a next hnext hs
      obtain ⟨s', hrun⟩ := (ih (h.keeps s a next hnext hs)).2 ⟨hsounds, fun a' ha' b hb ↦
        ((hhas b).1 hb).elim (hrest a' ha' b) (hfirst a' ha' b), hpairs⟩
      exact ⟨s', next, hnext, hrun⟩

end Intake

end RightOfWay
