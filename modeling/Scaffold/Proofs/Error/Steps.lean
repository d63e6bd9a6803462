/-!
# Steps that may fail

When a sequence of steps in `Except` succeeds: every step does, and the results belong to the inputs
one by one. When it fails, one of its steps does.
-/

namespace Scaffold

variable {ε α β γ : Type}

@[simp] theorem ok_bind (a : α) (f : α → Except ε β) : (Except.ok a >>= f) = f a := rfl

theorem bind_eq_ok_iff {x : Except ε α} {f : α → Except ε β} {b : β} :
    (x >>= f) = .ok b ↔ ∃ a, x = .ok a ∧ f a = .ok b := by
  cases x with
  | error e => simp [bind, Except.bind]
  | ok a => simp [bind, Except.bind]

@[simp] theorem mapError_ok {δ : Type} (f : ε → δ) (a : α) :
    (Except.ok a : Except ε α).mapError f = .ok a := rfl

@[simp] theorem mapError_error {δ : Type} (f : ε → δ) (e : ε) :
    (Except.error e : Except ε α).mapError f = .error (f e) := rfl

theorem mapError_eq_ok_iff {δ : Type} {f : ε → δ} {x : Except ε α} {a : α} :
    x.mapError f = .ok a ↔ x = .ok a := by
  cases x <;> simp

theorem mapError_eq_error_iff {δ : Type} {f : ε → δ} {x : Except ε α} {e : δ} :
    x.mapError f = .error e ↔ ∃ cause, x = .error cause ∧ f cause = e := by
  cases x <;> simp

theorem bind_eq_error_iff {x : Except ε α} {f : α → Except ε β} {e : ε} :
    (x >>= f) = .error e ↔ x = .error e ∨ ∃ a, x = .ok a ∧ f a = .error e := by
  cases x <;> simp [bind, Except.bind]

/-- To tell of errors in another way makes no other steps. -/
theorem mapError_bind {δ : Type} (g : ε → δ) (x : Except ε α) (f : α → Except ε β) :
    (x >>= f).mapError g = x.mapError g >>= fun a => (f a).mapError g := by
  cases x <;> rfl

/-- A result that can be looked at. -/
theorem exists_of_any_toOption (x : Except ε α) (good : α → Bool)
    (h : x.toOption.any good = true) : ∃ a, x = .ok a ∧ good a = true := by
  cases x with
  | error e => simp [Except.toOption] at h
  | ok a => exact ⟨a, rfl, by simpa [Except.toOption] using h⟩

theorem mapM_cons_eq_ok_iff {f : α → Except ε β} {a : α} {l : List α} {bs : List β} :
    (a :: l).mapM f = .ok bs ↔ ∃ b rest, f a = .ok b ∧ l.mapM f = .ok rest ∧ bs = b :: rest := by
  simp only [List.mapM_cons, bind_eq_ok_iff]
  constructor
  · rintro ⟨b, hb, rest, hrest, h⟩
    exact ⟨b, rest, hb, hrest, (Except.ok.inj h).symm⟩
  · rintro ⟨b, rest, hb, hrest, rfl⟩
    exact ⟨b, hb, rest, hrest, rfl⟩

theorem exists_of_mapM_eq_error {f : α → Except ε β} {l : List α} {e : ε}
    (h : l.mapM f = .error e) : ∃ a ∈ l, f a = .error e := by
  induction l with
  | nil => cases h
  | cons a l ih =>
    rw [List.mapM_cons, bind_eq_error_iff] at h
    rcases h with ha | ⟨b, -, h⟩
    · exact ⟨a, by simp, ha⟩
    · rcases bind_eq_error_iff.1 h with hl | ⟨rest, -, hrest⟩
      · obtain ⟨c, hc, hfail⟩ := ih hl
        exact ⟨c, List.mem_cons_of_mem _ hc, hfail⟩
      · cases hrest

theorem exists_of_forM_eq_error {f : α → Except ε Unit} {l : List α} {e : ε}
    (h : l.forM f = .error e) : ∃ a ∈ l, f a = .error e := by
  induction l with
  | nil => cases h
  | cons a l ih =>
    rcases bind_eq_error_iff.1 h with ha | ⟨_, -, hl⟩
    · exact ⟨a, by simp, ha⟩
    · obtain ⟨c, hc, hfail⟩ := ih hl
      exact ⟨c, List.mem_cons_of_mem _ hc, hfail⟩

theorem mapError_mapM {δ : Type} (g : ε → δ) (f : α → Except ε β) (l : List α) :
    (l.mapM f).mapError g = l.mapM fun a => (f a).mapError g := by
  induction l with
  | nil => rfl
  | cons a l ih =>
    rw [List.mapM_cons, List.mapM_cons, mapError_bind, ← ih]
    exact congrArg _ (funext fun b => mapError_bind g _ _)

theorem mapError_forM {δ : Type} (g : ε → δ) (f : α → Except ε Unit) (l : List α) :
    (l.forM f).mapError g = l.forM fun a => (f a).mapError g := by
  induction l with
  | nil => rfl
  | cons a l ih =>
    have hstep := mapError_bind g (f a) fun _ => l.forM f
    rw [ih] at hstep
    exact hstep

/-- What every step keeps of its input is kept of all inputs. -/
theorem map_eq_of_mapM_eq_ok {f : α → Except ε β} {g : β → γ} {h : α → γ}
    (hstep : ∀ a b, f a = .ok b → g b = h a) {l : List α} {bs : List β} (hl : l.mapM f = .ok bs) :
    bs.map g = l.map h := by
  induction l generalizing bs with
  | nil =>
    cases hl
    rfl
  | cons a l ih =>
    obtain ⟨b, rest, hb, hrest, rfl⟩ := mapM_cons_eq_ok_iff.1 hl
    rw [List.map_cons, List.map_cons, hstep a b hb, ih hrest]

theorem flatMap_eq_of_mapM_eq_ok {f : α → Except ε β} {g : β → List γ} {h : α → List γ}
    (hstep : ∀ a b, f a = .ok b → g b = h a) {l : List α} {bs : List β} (hl : l.mapM f = .ok bs) :
    bs.flatMap g = l.flatMap h := by
  rw [List.flatMap_def, List.flatMap_def, map_eq_of_mapM_eq_ok hstep hl]

theorem exists_of_mem_of_mapM_eq_ok {f : α → Except ε β} {l : List α} {bs : List β}
    (hl : l.mapM f = .ok bs) {b : β} (hb : b ∈ bs) : ∃ a ∈ l, f a = .ok b := by
  induction l generalizing bs with
  | nil =>
    cases hl
    simp at hb
  | cons a l ih =>
    obtain ⟨b', rest, hb', hrest, rfl⟩ := mapM_cons_eq_ok_iff.1 hl
    rcases List.mem_cons.1 hb with rfl | hb
    · exact ⟨a, by simp, hb'⟩
    · obtain ⟨c, hc, h⟩ := ih hrest hb
      exact ⟨c, List.mem_cons_of_mem _ hc, h⟩

theorem exists_mem_of_mapM_eq_ok {f : α → Except ε β} {l : List α} {bs : List β}
    (hl : l.mapM f = .ok bs) {a : α} (ha : a ∈ l) : ∃ b ∈ bs, f a = .ok b := by
  induction l generalizing bs with
  | nil => simp at ha
  | cons a' l ih =>
    obtain ⟨b, rest, hb, hrest, rfl⟩ := mapM_cons_eq_ok_iff.1 hl
    rcases List.mem_cons.1 ha with rfl | ha
    · exact ⟨b, by simp, hb⟩
    · obtain ⟨c, hc, h⟩ := ih hrest ha
      exact ⟨c, List.mem_cons_of_mem _ hc, h⟩

theorem mem_iff_of_mapM_eq_ok {f : α → Except ε β} {l : List α} {bs : List β}
    (hl : l.mapM f = .ok bs) {b : β} : b ∈ bs ↔ ∃ a ∈ l, f a = .ok b := by
  refine ⟨exists_of_mem_of_mapM_eq_ok hl, ?_⟩
  rintro ⟨a, ha, hb⟩
  obtain ⟨b', hb', h⟩ := exists_mem_of_mapM_eq_ok hl ha
  cases hb.symm.trans h
  exact hb'

/-- If no step fails, the sequence does not. -/
theorem exists_mapM_eq_ok {f : α → Except ε β} {l : List α} (h : ∀ a ∈ l, ∃ b, f a = .ok b) :
    ∃ bs, l.mapM f = .ok bs := by
  induction l with
  | nil => exact ⟨[], rfl⟩
  | cons a l ih =>
    obtain ⟨b, hb⟩ := h a (by simp)
    obtain ⟨rest, hrest⟩ := ih fun c hc => h c (by simp [hc])
    exact ⟨b :: rest, mapM_cons_eq_ok_iff.2 ⟨b, rest, hb, hrest, rfl⟩⟩

theorem exists_mapM_eq_ok_iff {f : α → Except ε β} {l : List α} :
    (∃ bs, l.mapM f = .ok bs) ↔ ∀ a ∈ l, ∃ b, f a = .ok b := by
  refine ⟨?_, exists_mapM_eq_ok⟩
  rintro ⟨bs, hbs⟩ a ha
  obtain ⟨b, -, hb⟩ := exists_mem_of_mapM_eq_ok hbs ha
  exact ⟨b, hb⟩

/-- Steps do not depend on each other, so that they succeed in any order. -/
theorem exists_mapM_perm {f : α → Except ε β} {l m : List α} (hperm : l.Perm m) {bs : List β}
    (hl : l.mapM f = .ok bs) : ∃ cs, m.mapM f = .ok cs ∧ bs.Perm cs := by
  induction hperm generalizing bs with
  | nil => exact ⟨bs, hl, .refl bs⟩
  | cons a _ ih =>
    obtain ⟨b, rest, hb, hrest, rfl⟩ := mapM_cons_eq_ok_iff.1 hl
    obtain ⟨cs, hcs, hbs⟩ := ih hrest
    exact ⟨b :: cs, mapM_cons_eq_ok_iff.2 ⟨b, cs, hb, hcs, rfl⟩, hbs.cons b⟩
  | swap a a' l =>
    obtain ⟨b', _, hb', hmore, rfl⟩ := mapM_cons_eq_ok_iff.1 hl
    obtain ⟨b, rest, hb, hrest, rfl⟩ := mapM_cons_eq_ok_iff.1 hmore
    have hbehind := mapM_cons_eq_ok_iff.2 ⟨b', rest, hb', hrest, rfl⟩
    exact ⟨_, mapM_cons_eq_ok_iff.2 ⟨b, _, hb, hbehind, rfl⟩, .swap b b' rest⟩
  | trans _ _ ih ih' =>
    obtain ⟨cs, hcs, hbs⟩ := ih hl
    obtain ⟨ds, hds, hcd⟩ := ih' hcs
    exact ⟨ds, hds, hbs.trans hcd⟩

/-- Steps that are the same for all inputs give the same results. -/
theorem mapM_congr {f g : α → Except ε β} {l : List α} (h : ∀ a ∈ l, f a = g a) :
    l.mapM f = l.mapM g := by
  induction l with
  | nil => rfl
  | cons a l ih =>
    rw [List.mapM_cons, List.mapM_cons, h a (by simp), ih fun b hb => h b (by simp [hb])]

end Scaffold
