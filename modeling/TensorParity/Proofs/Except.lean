import Mathlib

/-!
Steps that may be refused, one after the other over a list. A walk that succeeds is a pure fold
where each step is one, and carries an invariant that each step keeps.
-/
namespace TensorParity

variable {ε α β σ : Type}

@[simp]
theorem ok_bind (a : α) (f : α → Except ε β) : (Except.ok a >>= f) = f a := rfl

@[simp]
theorem error_bind (e : ε) (f : α → Except ε β) : (Except.error e >>= f) = .error e := rfl

/-- What succeeds in two steps succeeds in each. -/
theorem bind_eq_ok {x : Except ε α} {f : α → Except ε β} {b : β} :
    (x >>= f) = .ok b ↔ ∃ a, x = .ok a ∧ f a = .ok b := by
  cases x <;> simp

/-- What is refused in two steps is refused in one of them. -/
theorem bind_eq_error {x : Except ε α} {f : α → Except ε β} {e : ε} :
    (x >>= f) = .error e ↔ x = .error e ∨ ∃ a, x = .ok a ∧ f a = .error e := by
  cases x <;> simp

theorem map_eq_ok {x : Except ε α} {f : α → β} {b : β} :
    f <$> x = .ok b ↔ ∃ a, x = .ok a ∧ f a = b := by
  cases x <;> simp [Functor.map, Except.map]

theorem throw_ne_ok {e : ε} {a : α} : (throw e : Except ε α) ≠ .ok a := by
  simp [throw, throwThe, MonadExceptOf.throw]

theorem mapError_eq_ok {ε' : Type} {f : ε → ε'} {x : Except ε α} {a : α} :
    x.mapError f = .ok a ↔ x = .ok a := by
  cases x <;> simp [Except.mapError]

theorem mapError_eq_error {ε' : Type} {f : ε → ε'} {x : Except ε α} {e' : ε'} :
    x.mapError f = .error e' ↔ ∃ e, x = .error e ∧ e' = f e := by
  cases x <;> simp [Except.mapError, eq_comm]

/-- A fold whose steps all succeed is a pure fold. -/
theorem foldlM_ok {step : σ → α → Except ε σ} {next : σ → α → σ} {items : List α}
    (h : ∀ a ∈ items, ∀ s, step s a = .ok (next s a)) (s : σ) :
    items.foldlM step s = .ok (items.foldl next s) := by
  induction items generalizing s with
  | nil => rfl
  | cons a items ih =>
    rw [List.foldlM_cons, h a (by simp) s]
    exact ih (fun b hb => h b (by simp [hb])) _

/-- What every step keeps holds at the end. -/
theorem foldlM_invariant (inv : σ → Prop) {step : σ → α → Except ε σ} {items : List α}
    (hstep : ∀ a ∈ items, ∀ s s', inv s → step s a = .ok s' → inv s') {s s' : σ} (hs : inv s)
    (h : items.foldlM step s = .ok s') : inv s' := by
  induction items generalizing s with
  | nil =>
    obtain rfl : s = s' := by simpa [pure, Except.pure] using h
    exact hs
  | cons a items ih =>
    rw [List.foldlM_cons] at h
    obtain ⟨middle, hfirst, hrest⟩ := bind_eq_ok.mp h
    exact ih (fun b hb => hstep b (by simp [hb])) (hstep a (by simp) s middle hs hfirst) hrest

/-- In a fold that succeeds every item had its step. -/
theorem foldlM_step {step : σ → α → Except ε σ} {items : List α} {s s' : σ}
    (h : items.foldlM step s = .ok s') :
    ∀ a ∈ items, ∃ before after, step before a = .ok after := by
  induction items generalizing s with
  | nil => simp
  | cons a items ih =>
    rw [List.foldlM_cons] at h
    obtain ⟨middle, hfirst, hrest⟩ := bind_eq_ok.mp h
    exact List.forall_mem_cons.mpr ⟨⟨s, middle, hfirst⟩, ih hrest⟩

/-- What an item's step brings about, and later steps keep, holds at the end for every item. -/
theorem foldlM_reaches {step : σ → α → Except ε σ} (reached : α → σ → Prop)
    (hreach : ∀ a s s', step s a = .ok s' → reached a s')
    (hkeep : ∀ a b s s', reached a s → step s b = .ok s' → reached a s') {items : List α} {s s' : σ}
    (h : items.foldlM step s = .ok s') : ∀ a ∈ items, reached a s' := by
  induction items generalizing s with
  | nil => simp
  | cons a items ih =>
    rw [List.foldlM_cons] at h
    obtain ⟨middle, hfirst, hrest⟩ := bind_eq_ok.mp h
    have hlast : reached a s' := foldlM_invariant (reached a) (fun b _ s s' => hkeep a b s s')
      (hreach a s middle hfirst) hrest
    exact List.forall_mem_cons.mpr ⟨hlast, ih hrest⟩

/-- A fold is refused by the first step that refuses, and only by that. -/
theorem foldlM_eq_error_iff {step : σ → α → Except ε σ} {items : List α} {s : σ} {e : ε} :
    items.foldlM step s = .error e ↔ ∃ before a after middle, items = before ++ a :: after ∧
      before.foldlM step s = .ok middle ∧ step middle a = .error e := by
  induction items generalizing s with
  | nil =>
    constructor
    · intro h
      cases h
    · rintro ⟨before, a, after, middle, hitems, -⟩
      simp at hitems
  | cons a items ih =>
    rw [List.foldlM_cons, bind_eq_error]
    simp only [ih]
    constructor
    · rintro (hfirst | ⟨next, hfirst, before, b, after, middle, rfl, hbefore, hstep⟩)
      · exact ⟨[], a, items, s, rfl, rfl, hfirst⟩
      · refine ⟨a :: before, b, after, middle, rfl, ?_, hstep⟩
        rw [List.foldlM_cons, hfirst, ok_bind, hbefore]
    · rintro ⟨before, b, after, middle, hitems, hbefore, hstep⟩
      cases before with
      | nil =>
        obtain ⟨rfl, rfl⟩ := List.cons.inj hitems
        obtain rfl := Except.ok.inj hbefore
        exact .inl hstep
      | cons first before =>
        obtain ⟨rfl, rfl⟩ := List.cons.inj hitems
        rw [List.foldlM_cons] at hbefore
        obtain ⟨next, hfirst, hrest⟩ := bind_eq_ok.mp hbefore
        exact .inr ⟨next, hfirst, before, b, after, middle, rfl, hrest, hstep⟩

theorem foldlM_eq_error {step : σ → α → Except ε σ} {items : List α} {s : σ} {e : ε}
    (h : items.foldlM step s = .error e) : ∃ a ∈ items, ∃ before, step before a = .error e := by
  obtain ⟨before, a, after, middle, rfl, -, hstep⟩ := foldlM_eq_error_iff.mp h
  exact ⟨a, by simp, middle, hstep⟩

theorem mapM_ok {f : α → Except ε β} {g : α → β} {items : List α}
    (h : ∀ a ∈ items, f a = .ok (g a)) : items.mapM f = .ok (items.map g) := by
  induction items with
  | nil => rfl
  | cons a items ih =>
    rw [List.mapM_cons, h a (by simp), ih fun b hb => h b (by simp [hb])]
    rfl

theorem mapM_congr {f g : α → Except ε β} {items : List α} (h : ∀ a ∈ items, f a = g a) :
    items.mapM f = items.mapM g := by
  induction items with
  | nil => rfl
  | cons a items ih =>
    rw [List.mapM_cons, List.mapM_cons, h a (by simp), ih fun b hb => h b (by simp [hb])]

theorem mapM_total {f : α → Except ε β} {items : List α} (h : ∀ a ∈ items, ∃ b, f a = .ok b) :
    ∃ results, items.mapM f = .ok results := by
  induction items with
  | nil => exact ⟨[], rfl⟩
  | cons a items ih =>
    obtain ⟨⟨b, hfirst⟩, hrest⟩ := List.forall_mem_cons.mp h
    obtain ⟨results, hresults⟩ := ih hrest
    rw [List.mapM_cons, hfirst, hresults]
    exact ⟨b :: results, rfl⟩

/-- A walk yields one result for each item, in order. -/
theorem mapM_eq_ok_iff {f : α → Except ε β} {items : List α} {results : List β} :
    items.mapM f = .ok results ↔ List.Forall₂ (fun a b => f a = .ok b) items results := by
  induction items generalizing results with
  | nil => simp [pure, Except.pure, eq_comm]
  | cons a items ih =>
    rw [List.mapM_cons, bind_eq_ok, List.forall₂_cons_left_iff]
    simp only [bind_eq_ok, ih, pure, Except.pure, Except.ok.injEq]
    constructor
    · rintro ⟨b, hfirst, rest, hrest, rfl⟩
      exact ⟨b, rest, hfirst, hrest, rfl⟩
    · rintro ⟨b, rest, hfirst, hrest, rfl⟩
      exact ⟨b, hfirst, rest, hrest, rfl⟩

/-- Every result of a walk comes from one of the items. -/
theorem mapM_mem {f : α → Except ε β} {items : List α} {results : List β}
    (h : items.mapM f = .ok results) : ∀ b ∈ results, ∃ a ∈ items, f a = .ok b := by
  induction items generalizing results with
  | nil =>
    obtain rfl : [] = results := by simpa [pure, Except.pure] using h
    simp
  | cons a items ih =>
    rw [List.mapM_cons] at h
    obtain ⟨b, hfirst, h⟩ := bind_eq_ok.mp h
    obtain ⟨rest, hrest, h⟩ := bind_eq_ok.mp h
    obtain rfl : b :: rest = results := by simpa [pure, Except.pure] using h
    intro b' hb'
    rcases List.mem_cons.mp hb' with rfl | hb'
    · exact ⟨a, by simp, hfirst⟩
    · obtain ⟨a', ha', hread⟩ := ih hrest b' hb'
      exact ⟨a', by simp [ha'], hread⟩

/-- The results of a walk whose steps can only yield one thing. -/
theorem mapM_eq_map {f : α → Except ε β} {g : α → β} (hstep : ∀ a b, f a = .ok b → b = g a)
    {items : List α} {results : List β} (h : items.mapM f = .ok results) :
    results = items.map g := by
  induction items generalizing results with
  | nil => exact (Except.ok.inj h).symm
  | cons a items ih =>
    rw [List.mapM_cons] at h
    obtain ⟨b, hfirst, h⟩ := bind_eq_ok.mp h
    obtain ⟨rest, hrest, h⟩ := bind_eq_ok.mp h
    rw [← Except.ok.inj h, List.map_cons, hstep a b hfirst, ih hrest]

/-- In a walk that succeeds every item has its result among the results. -/
theorem mapM_result {f : α → Except ε β} {items : List α} {results : List β}
    (h : items.mapM f = .ok results) : ∀ a ∈ items, ∃ b ∈ results, f a = .ok b := by
  induction items generalizing results with
  | nil => simp
  | cons a items ih =>
    rw [List.mapM_cons] at h
    obtain ⟨b, hfirst, h⟩ := bind_eq_ok.mp h
    obtain ⟨rest, hrest, h⟩ := bind_eq_ok.mp h
    obtain rfl : b :: rest = results := by simpa [pure, Except.pure] using h
    refine List.forall_mem_cons.mpr ⟨⟨b, List.mem_cons_self, hfirst⟩, fun a' ha' => ?_⟩
    obtain ⟨b', hb', hread⟩ := ih hrest a' ha'
    exact ⟨b', List.mem_cons_of_mem b hb', hread⟩

theorem mapM_step {f : α → Except ε β} {items : List α} {results : List β}
    (h : items.mapM f = .ok results) : ∀ a ∈ items, ∃ b, f a = .ok b := by
  intro a ha
  obtain ⟨b, -, hread⟩ := mapM_result h a ha
  exact ⟨b, hread⟩

/-- A walk is refused for the first item that is. -/
theorem mapM_eq_error_iff {f : α → Except ε β} {items : List α} {e : ε} :
    items.mapM f = .error e ↔ ∃ before a after, items = before ++ a :: after ∧
      (∀ b ∈ before, ∃ result, f b = .ok result) ∧ f a = .error e := by
  induction items with
  | nil =>
    constructor
    · intro h
      cases h
    · rintro ⟨before, a, after, hitems, -⟩
      simp at hitems
  | cons a items ih =>
    have hrest (b : β) : (do let bs ← items.mapM f; pure (b :: bs)) = .error e ↔
        items.mapM f = .error e := by
      cases items.mapM f <;> simp [pure, Except.pure]
    rw [List.mapM_cons, bind_eq_error]
    simp only [hrest, ih]
    constructor
    · rintro (hfirst | ⟨b, hfirst, before, later, after, rfl, hbefore, hlater⟩)
      · exact ⟨[], a, items, rfl, by simp, hfirst⟩
      · exact ⟨a :: before, later, after, rfl, List.forall_mem_cons.mpr ⟨⟨b, hfirst⟩, hbefore⟩,
          hlater⟩
    · rintro ⟨before, later, after, hitems, hbefore, hlater⟩
      cases before with
      | nil =>
        obtain ⟨rfl, rfl⟩ := List.cons.inj hitems
        exact .inl hlater
      | cons first before =>
        obtain ⟨rfl, rfl⟩ := List.cons.inj hitems
        obtain ⟨⟨b, hfirst⟩, hothers⟩ := List.forall_mem_cons.mp hbefore
        exact .inr ⟨b, hfirst, before, later, after, rfl, hothers, hlater⟩

/-- A walk whose items can be refused in one way only is refused in that way. -/
theorem mapM_eq_error {f : α → Except ε β} {items : List α} {e : ε}
    (honly : ∀ a ∈ items, ∀ e', f a = .error e' → e' = e)
    (hrefused : ∃ a ∈ items, ∃ e', f a = .error e') : items.mapM f = .error e := by
  cases hwalk : items.mapM f with
  | ok results =>
    obtain ⟨a, hmem, e', ha⟩ := hrefused
    obtain ⟨b, hb⟩ := mapM_step hwalk a hmem
    rw [ha] at hb
    cases hb
  | error e' =>
    obtain ⟨before, a, after, rfl, -, ha⟩ := mapM_eq_error_iff.mp hwalk
    rw [honly a (by simp) e' ha]

/-- What a computation with a state yields, one step after the other. -/
theorem run_run_bind (x : ExceptT ε (StateM σ) α) (f : α → ExceptT ε (StateM σ) β) (s : σ) :
    (x >>= f).run.run s =
      match x.run.run s with
      | (.ok a, s') => (f a).run.run s'
      | (.error e, s') => (.error e, s') := by
  cases hx : x.run.run s with
  | mk result s' =>
    simp only [ExceptT.run_bind, StateT.run_bind, hx]
    cases result <;> rfl

end TensorParity
