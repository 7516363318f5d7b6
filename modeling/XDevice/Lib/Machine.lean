import Mathlib.Algebra.Ring.Nat
import Mathlib.Tactic.ByContra
/-!
# Machines and their runs

A machine steps on an action, gives an output, and may get stuck (`none`), as
code does at undefined behaviour. A run is the list of actions given to it. The
rules below turn one fact about a step into a fact about every run: an
invariant, a condition met at every step, or a simulation of one machine by
another that gives the same outputs.
-/

namespace Lib

/-- From a state, an action gives the next state and an output, or gets stuck. -/
structure Machine (σ α β : Type) where
  step : σ → α → Option (σ × β)

namespace Machine

variable {σ τ α β : Type}

/-- The state after a run, and its outputs in order; `none` if a step is stuck. -/
def run (M : Machine σ α β) (s : σ) : List α → Option (σ × List β)
  | [] => some (s, [])
  | a :: as =>
    match M.step s a with
    | none => none
    | some (s', b) => (run M s' as).map fun r => (r.1, b :: r.2)

/-- `C` holds of every state the run from `s` meets, with the action taken there. -/
def Along (M : Machine σ α β) (C : σ → α → Prop) (s : σ) : List α → Prop
  | [] => True
  | a :: as => C s a ∧ ∀ s' b, M.step s a = some (s', b) → Along M C s' as

/-- `P` holds in every state the run from `s` visits, the first and last included. -/
def Always (M : Machine σ α β) (P : σ → Prop) (s : σ) : List α → Prop
  | [] => P s
  | a :: as => P s ∧ ∀ s' b, M.step s a = some (s', b) → Always M P s' as

/-- Some run by actions that `A` allows leads there. -/
def Reaches (M : Machine σ α β) (A : α → Prop) (s s' : σ) : Prop :=
  ∃ as bs, (∀ a ∈ as, A a) ∧ M.run s as = some (s', bs)

/-- One step keeps `I`. -/
def Keeps (M : Machine σ α β) (I : σ → Prop) : Prop :=
  ∀ s a s' b, I s → M.step s a = some (s', b) → I s'

variable {M : Machine σ α β} {N : Machine τ α β}

@[simp] theorem run_nil (s : σ) : M.run s [] = some (s, []) := rfl

theorem run_cons_eq_some {s s'' : σ} {a : α} {as : List α} {bs : List β} :
    M.run s (a :: as) = some (s'', bs) ↔
      ∃ s' b bs', M.step s a = some (s', b) ∧ M.run s' as = some (s'', bs') ∧ bs = b :: bs' := by
  simp only [run]
  cases h : M.step s a with
  | none => simp
  | some r =>
    obtain ⟨s', b⟩ := r
    simp only [Option.map_eq_some_iff, Prod.mk.injEq, Prod.exists, Option.some.injEq]
    constructor
    · rintro ⟨t, bs', hr, rfl, rfl⟩
      exact ⟨s', b, bs', ⟨rfl, rfl⟩, hr, rfl⟩
    · rintro ⟨_, _, bs', ⟨rfl, rfl⟩, hr, rfl⟩
      exact ⟨s'', bs', hr, rfl, rfl⟩

theorem run_append {s s' s'' : σ} {as as' : List α} {bs bs' : List β} (h : M.run s as = some (s', bs))
    (h' : M.run s' as' = some (s'', bs')) : M.run s (as ++ as') = some (s'', bs ++ bs') := by
  induction as generalizing s bs with
  | nil =>
    cases h
    exact h'
  | cons a as ih =>
    obtain ⟨t, b, bs1, hs, hr, rfl⟩ := run_cons_eq_some.1 h
    exact run_cons_eq_some.2 ⟨t, b, bs1 ++ bs', hs, ih hr, rfl⟩

theorem along_cons {C : σ → α → Prop} {s s' : σ} {a : α} {b : β} (h : M.step s a = some (s', b)) (as : List α) :
    M.Along C s (a :: as) ↔ C s a ∧ M.Along C s' as := by
  refine and_congr_right fun _ => ⟨fun hall => hall s' b h, fun has t b' ht => ?_⟩
  rw [h] at ht
  cases ht
  exact has

theorem along_cons_stuck {C : σ → α → Prop} {s : σ} {a : α} (h : M.step s a = none) (as : List α) :
    M.Along C s (a :: as) ↔ C s a := by
  refine and_iff_left fun t b ht => ?_
  rw [h] at ht
  cases ht

theorem along_of_forall {A : α → Prop} {as : List α} (h : ∀ a ∈ as, A a) (s : σ) : M.Along (fun _ a => A a) s as := by
  induction as generalizing s with
  | nil => trivial
  | cons a as ih => exact ⟨h a List.mem_cons_self, fun t _ _ => ih (fun a' ha' => h a' (List.mem_cons_of_mem _ ha')) t⟩

theorem Along.and {C D : σ → α → Prop} {s : σ} {as : List α} (hC : M.Along C s as) (hD : M.Along D s as) :
    M.Along (fun s a => C s a ∧ D s a) s as := by
  induction as generalizing s with
  | nil => trivial
  | cons a as ih => exact ⟨⟨hC.1, hD.1⟩, fun t b hs => ih (hC.2 t b hs) (hD.2 t b hs)⟩

/-- No step of a run is stuck. -/
theorem along_of_run {s s' : σ} {as : List α} {bs : List β} (h : M.run s as = some (s', bs)) :
    M.Along (fun s a => ∃ t b, M.step s a = some (t, b)) s as := by
  induction as generalizing s bs with
  | nil => trivial
  | cons a as ih =>
    obtain ⟨t, b, bs', hs, hr, -⟩ := run_cons_eq_some.1 h
    exact (along_cons hs as).2 ⟨⟨t, b, hs⟩, ih hr⟩

instance decidableAlong (M : Machine σ α β) (C : σ → α → Prop) [∀ s a, Decidable (C s a)] :
    ∀ s as, Decidable (M.Along C s as)
  | _, [] => .isTrue trivial
  | s, a :: as =>
    match h : M.step s a with
    | none => decidable_of_iff _ (along_cons_stuck h as).symm
    | some (s', _) =>
      haveI := decidableAlong M C s' as
      decidable_of_iff _ (along_cons h as).symm

theorem always_cons {P : σ → Prop} {s s' : σ} {a : α} {b : β} (h : M.step s a = some (s', b)) (as : List α) :
    M.Always P s (a :: as) ↔ P s ∧ M.Always P s' as := by
  refine and_congr_right fun _ => ⟨fun hall => hall s' b h, fun has t b' ht => ?_⟩
  rw [h] at ht
  cases ht
  exact has

theorem always_cons_stuck {P : σ → Prop} {s : σ} {a : α} (h : M.step s a = none) (as : List α) :
    M.Always P s (a :: as) ↔ P s := by
  refine and_iff_left fun t b ht => ?_
  rw [h] at ht
  cases ht

instance decidableAlways (M : Machine σ α β) (P : σ → Prop) [∀ s, Decidable (P s)] :
    ∀ s as, Decidable (M.Always P s as)
  | s, [] => inferInstanceAs (Decidable (P s))
  | s, a :: as =>
    match h : M.step s a with
    | none => decidable_of_iff _ (always_cons_stuck h as).symm
    | some (s', _) =>
      haveI := decidableAlways M P s' as
      decidable_of_iff _ (always_cons h as).symm

/-! ## Invariants -/

/-- An invariant that the steps meeting `C` keep holds at the end of every run
that meets `C`. -/
theorem run_inv_along {I : σ → Prop} {C : σ → α → Prop}
    (hI : ∀ s a s' b, I s → C s a → M.step s a = some (s', b) → I s')
    {s : σ} (h0 : I s) {as : List α} (hC : M.Along C s as) {s' : σ} {bs : List β}
    (hr : M.run s as = some (s', bs)) : I s' := by
  induction as generalizing s bs with
  | nil =>
    simp only [run_nil, Option.some.injEq, Prod.mk.injEq] at hr
    exact hr.1 ▸ h0
  | cons a as ih =>
    obtain ⟨t, b, bs', hs, hr', -⟩ := run_cons_eq_some.1 hr
    exact ih (hI s a t b h0 hC.1 hs) (hC.2 t b hs) hr'

/-- An invariant holds at the end of every run. -/
theorem Keeps.run {I : σ → Prop} (hI : M.Keeps I) {s : σ} (h0 : I s) {as : List α} {s' : σ} {bs : List β}
    (hr : M.run s as = some (s', bs)) : I s' := by
  have hall : M.Along (fun _ _ => True) s as := along_of_forall (fun _ _ => trivial) s
  exact run_inv_along (fun s a s' b h _ hs => hI s a s' b h hs) h0 hall hr

/-- A run whose steps meet a condition that keeps the machine going is not stuck. -/
theorem run_of_along {I : σ → Prop} {C : σ → α → Prop}
    (hI : ∀ s a, I s → C s a → ∃ s' b, M.step s a = some (s', b) ∧ I s')
    {s : σ} (h0 : I s) {as : List α} (hC : M.Along C s as) : ∃ s' bs, M.run s as = some (s', bs) ∧ I s' := by
  induction as generalizing s with
  | nil => exact ⟨s, [], rfl, h0⟩
  | cons a as ih =>
    obtain ⟨t, b, hs, ht⟩ := hI s a h0 hC.1
    obtain ⟨s', bs, hr, hs'⟩ := ih ht (hC.2 t b hs)
    exact ⟨s', b :: bs, run_cons_eq_some.2 ⟨t, b, bs, hs, hr, rfl⟩, hs'⟩

/-- A run whose actions draw on a budget that the invariant `I` measures is not stuck,
meets at every step and in every state what follows from `I`, and ends with what
is left. -/
theorem run_of_budget {cost : α → Nat} {I : Nat → σ → Prop} {A : α → Prop} {P : σ → Prop} {C : σ → α → Prop}
    (hstep : ∀ n s a, A a → I (cost a + n) s → ∃ s' b, M.step s a = some (s', b) ∧ I n s')
    (hC : ∀ n s a, A a → I (cost a + n) s → C s a) (hP : ∀ n s, I n s → P s)
    {as : List α} (hA : ∀ a ∈ as, A a) {n : Nat} {s : σ} (h0 : I ((as.map cost).sum + n) s) :
    (∃ s' bs, M.run s as = some (s', bs) ∧ I n s') ∧ M.Along C s as ∧ M.Always P s as := by
  induction as generalizing s with
  | nil =>
    rw [List.map_nil, List.sum_nil, Nat.zero_add] at h0
    exact ⟨⟨s, [], rfl, h0⟩, trivial, hP n s h0⟩
  | cons a as ih =>
    have ha := hA a List.mem_cons_self
    rw [List.map_cons, List.sum_cons, Nat.add_assoc] at h0
    obtain ⟨t, b, hs, ht⟩ := hstep _ s a ha h0
    obtain ⟨⟨s', bs, hr, hend⟩, hall, hevery⟩ := ih (fun a' ha' => hA a' (List.mem_cons_of_mem _ ha')) ht
    refine ⟨⟨s', b :: bs, run_cons_eq_some.2 ⟨t, b, bs, hs, hr, rfl⟩, hend⟩, ?_, hP _ s h0, ?_⟩
    · exact (along_cons hs as).2 ⟨hC _ s a ha h0, hall⟩
    · intro t' b' hs'
      rw [hs] at hs'
      cases hs'
      exact hevery

/-- A condition that follows from another where an invariant holds, which the steps that
meet the other keep. -/
theorem Along.imp {I : σ → Prop} {C D : σ → α → Prop}
    (hI : ∀ s a s' b, I s → C s a → M.step s a = some (s', b) → I s') (hCD : ∀ s a, I s → C s a → D s a)
    {s : σ} (h0 : I s) {as : List α} (h : M.Along C s as) : M.Along D s as := by
  induction as generalizing s with
  | nil => trivial
  | cons a as ih => exact ⟨hCD s a h0 h.1, fun t b hs => ih (hI s a t b h0 h.1 hs) (h.2 t b hs)⟩

/-- What follows from an invariant that the steps meeting `C` keep holds in every state. -/
theorem Along.always {I P : σ → Prop} {C : σ → α → Prop}
    (hI : ∀ s a s' b, I s → C s a → M.step s a = some (s', b) → I s') (hP : ∀ s, I s → P s)
    {s : σ} (h0 : I s) {as : List α} (h : M.Along C s as) : M.Always P s as := by
  induction as generalizing s with
  | nil => exact hP s h0
  | cons a as ih => exact ⟨hP s h0, fun t b hs => ih (hI s a t b h0 h.1 hs) (h.2 t b hs)⟩

/-- Two conditions that agree where the invariant holds, for the actions of the
run, are met by the same runs. It is enough that the steps meeting one of them keep
the invariant. -/
theorem along_iff {I : σ → Prop} {A : α → Prop} {C D : σ → α → Prop}
    (hI : ∀ s a s' b, I s → A a → C s a → M.step s a = some (s', b) → I s')
    (hCD : ∀ s a, I s → A a → (C s a ↔ D s a)) {s : σ} (h0 : I s) {as : List α} (hA : ∀ a ∈ as, A a) :
    M.Along C s as ↔ M.Along D s as := by
  induction as generalizing s with
  | nil => exact Iff.rfl
  | cons a as ih =>
    have ha := hA a List.mem_cons_self
    have hrest : ∀ a' ∈ as, A a' := fun a' ha' => hA a' (List.mem_cons_of_mem _ ha')
    constructor
    · rintro ⟨hC, hall⟩
      exact ⟨(hCD s a h0 ha).1 hC, fun t b hs => (ih (hI s a t b h0 ha hC hs) hrest).1 (hall t b hs)⟩
    · rintro ⟨hD, hall⟩
      have hC := (hCD s a h0 ha).2 hD
      exact ⟨hC, fun t b hs => (ih (hI s a t b h0 ha hC hs) hrest).2 (hall t b hs)⟩

/-- A machine whose steps for the actions of the run are never stuck, and keep a
property just when they meet `C`, has it at the end just when it had it at the start and
the run meets `C`. -/
theorem run_iff_along {I P : σ → Prop} {A : α → Prop} {C : σ → α → Prop}
    (hstep : ∀ s a, I s → A a → ∃ s' b, M.step s a = some (s', b) ∧ I s' ∧ (P s' ↔ P s ∧ C s a))
    {s : σ} (h0 : I s) {as : List α} (hA : ∀ a ∈ as, A a) :
    ∃ s' bs, M.run s as = some (s', bs) ∧ I s' ∧ (P s' ↔ P s ∧ M.Along C s as) := by
  induction as generalizing s with
  | nil => exact ⟨s, [], rfl, h0, (and_iff_left trivial).symm⟩
  | cons a as ih =>
    obtain ⟨t, b, hs, ht, hP⟩ := hstep s a h0 (hA a List.mem_cons_self)
    obtain ⟨s', bs, hr, hs', hP'⟩ := ih ht fun a' ha' => hA a' (List.mem_cons_of_mem _ ha')
    refine ⟨s', b :: bs, run_cons_eq_some.2 ⟨t, b, bs, hs, hr, rfl⟩, hs', ?_⟩
    rw [hP', hP, along_cons hs, and_assoc]

/-- A run whose steps keep a property just when they meet `C` has it at the end just when it
had it at the start and met `C`. -/
theorem last_iff_along {I P : σ → Prop} {C : σ → α → Prop}
    (hstep : ∀ s a s' b, I s → M.step s a = some (s', b) → I s' ∧ (P s' ↔ P s ∧ C s a))
    {s s' : σ} (h0 : I s) {as : List α} {bs : List β} (hr : M.run s as = some (s', bs)) :
    P s' ↔ P s ∧ M.Along C s as := by
  induction as generalizing s bs with
  | nil =>
    cases hr
    exact (and_iff_left trivial).symm
  | cons a as ih =>
    obtain ⟨t, b, bs', hs, hr', -⟩ := run_cons_eq_some.1 hr
    obtain ⟨ht, hP⟩ := hstep s a t b h0 hs
    rw [ih ht hr', hP, along_cons hs, and_assoc]

theorem Always.head {P : σ → Prop} {s : σ} {as : List α} (h : M.Always P s as) : P s := by
  cases as with
  | nil => exact h
  | cons => exact h.1

theorem Always.last {P : σ → Prop} {s s' : σ} {as : List α} {bs : List β} (h : M.Always P s as)
    (hr : M.run s as = some (s', bs)) : P s' := by
  induction as generalizing s bs with
  | nil =>
    cases hr
    exact h
  | cons a as ih =>
    obtain ⟨t, b, bs', hs, hr', -⟩ := run_cons_eq_some.1 hr
    exact ih (h.2 t b hs) hr'

/-- A run whose states all have `Q` and whose steps meet `C`, where the two together keep
an invariant and the machine going, has what follows from the invariant in every state. -/
theorem always_of_along {I P Q : σ → Prop} {C : σ → α → Prop}
    (hstep : ∀ s a, I s → C s a → ∃ s' b, M.step s a = some (s', b) ∧ (Q s' → I s')) (hP : ∀ s, I s → P s)
    {s : σ} (h0 : I s) {as : List α} (hC : M.Along C s as) (hQ : M.Always Q s as) :
    (∃ s' bs, M.run s as = some (s', bs) ∧ I s') ∧ M.Always P s as := by
  induction as generalizing s with
  | nil => exact ⟨⟨s, [], rfl, h0⟩, hP s h0⟩
  | cons a as ih =>
    obtain ⟨t, b, hs, ht⟩ := hstep s a h0 hC.1
    have hQ' := hQ.2 t b hs
    obtain ⟨⟨s', bs, hr, hs'⟩, hevery⟩ := ih (ht hQ'.head) (hC.2 t b hs) hQ'
    refine ⟨⟨s', b :: bs, run_cons_eq_some.2 ⟨t, b, bs, hs, hr, rfl⟩, hs'⟩, hP s h0, fun t' b' hs'' => ?_⟩
    rw [hs] at hs''
    cases hs''
    exact hevery

/-- A property that the steps meeting `C` keep, together with an invariant,
holds along every run that meets `C`; and if a step that fails `C` always breaks
it, along no other run. -/
theorem always_iff_along {I P : σ → Prop} {A : α → Prop} {C : σ → α → Prop}
    (hkeep : ∀ s a s' b, I s → P s → A a → C s a → M.step s a = some (s', b) → I s' ∧ P s')
    (hbreak : ∀ s a, I s → P s → A a → ¬ C s a → ∃ s' b, M.step s a = some (s', b) ∧ ¬ P s')
    {s : σ} (h0 : I s) (hP : P s) {as : List α} (hA : ∀ a ∈ as, A a) : M.Always P s as ↔ M.Along C s as := by
  induction as generalizing s with
  | nil => exact ⟨fun _ => trivial, fun _ => hP⟩
  | cons a as ih =>
    have ha := hA a List.mem_cons_self
    have htail : ∀ {t b}, C s a → M.step s a = some (t, b) → (M.Always P t as ↔ M.Along C t as) := by
      intro t b hC hs
      obtain ⟨hI, hP'⟩ := hkeep s a t b h0 hP ha hC hs
      exact ih hI hP' fun a' ha' => hA a' (List.mem_cons_of_mem _ ha')
    constructor
    · intro h
      have hC : C s a := by
        by_contra hC
        obtain ⟨t, b, hs, hn⟩ := hbreak s a h0 hP ha hC
        exact hn (h.2 t b hs).head
      exact ⟨hC, fun t b hs => (htail hC hs).1 (h.2 t b hs)⟩
    · intro h
      exact ⟨hP, fun t b hs => (htail h.1 hs).2 (h.2 t b hs)⟩

/-- The same for runs that are not stuck, where a step that fails `C` breaks the
property if it can be taken at all. -/
theorem always_iff_along_of_run {I P : σ → Prop} {C : σ → α → Prop}
    (hkeep : ∀ s a s' b, I s → P s → C s a → M.step s a = some (s', b) → I s' ∧ P s')
    (hbreak : ∀ s a s' b, I s → P s → ¬ C s a → M.step s a = some (s', b) → ¬ P s')
    {s s' : σ} {as : List α} {bs : List β} (h0 : I s) (hP : P s) (hr : M.run s as = some (s', bs)) :
    M.Always P s as ↔ M.Along C s as := by
  induction as generalizing s bs with
  | nil => exact ⟨fun _ => trivial, fun _ => hP⟩
  | cons a as ih =>
    obtain ⟨t, b, bs', hs, hr', -⟩ := run_cons_eq_some.1 hr
    rw [along_cons hs]
    constructor
    · intro h
      have ht := h.2 t b hs
      have hC : C s a := by
        by_contra hC
        exact hbreak s a t b h0 hP hC hs ht.head
      obtain ⟨hI, hP'⟩ := hkeep s a t b h0 hP hC hs
      exact ⟨hC, (ih hI hP' hr').1 ht⟩
    · rintro ⟨hC, hall⟩
      obtain ⟨hI, hP'⟩ := hkeep s a t b h0 hP hC hs
      refine ⟨hP, fun t' b' hs' => ?_⟩
      rw [hs] at hs'
      cases hs'
      exact (ih hI hP' hr').2 hall

/-! ## Reaching a state -/

theorem Reaches.refl {A : α → Prop} (s : σ) : M.Reaches A s s := ⟨[], [], nofun, rfl⟩

theorem Reaches.step {A : α → Prop} {s s' s'' : σ} {a : α} {b : β} (h : M.step s a = some (s', b)) (ha : A a)
    (h' : M.Reaches A s' s'') : M.Reaches A s s'' := by
  obtain ⟨as, bs, hA, hr⟩ := h'
  exact ⟨a :: as, b :: bs, List.forall_mem_cons.2 ⟨ha, hA⟩, run_cons_eq_some.2 ⟨s', b, bs, h, hr, rfl⟩⟩

theorem Reaches.trans {A : α → Prop} {s s' s'' : σ} (h : M.Reaches A s s') (h' : M.Reaches A s' s'') :
    M.Reaches A s s'' := by
  obtain ⟨as, bs, hA, hr⟩ := h
  obtain ⟨as', bs', hA', hr'⟩ := h'
  refine ⟨as ++ as', bs ++ bs', fun a ha => ?_, run_append hr hr'⟩
  rcases List.mem_append.1 ha with ha | ha
  · exact hA a ha
  · exact hA' a ha

theorem Reaches.mono {A A' : α → Prop} {s s' : σ} (h : M.Reaches A s s') (hA : ∀ a, A a → A' a) : M.Reaches A' s s' := by
  obtain ⟨as, bs, has, hr⟩ := h
  exact ⟨as, bs, fun a ha => hA a (has a ha), hr⟩

/-- An invariant that the allowed actions keep holds in every state they reach. -/
theorem Reaches.inv {A : α → Prop} {I : σ → Prop} (hI : ∀ s a s' b, I s → A a → M.step s a = some (s', b) → I s')
    {s s' : σ} (h : M.Reaches A s s') (h0 : I s) : I s' := by
  obtain ⟨as, bs, hA, hr⟩ := h
  induction as generalizing s bs with
  | nil =>
    cases hr
    exact h0
  | cons a as ih =>
    obtain ⟨t, b, bs', hs, hr', -⟩ := run_cons_eq_some.1 hr
    obtain ⟨ha, hA'⟩ := List.forall_mem_cons.1 hA
    exact ih (hI s a t b h0 ha hs) bs' hA' hr'

/-- Where the other machine gets to a related state by allowed steps for every allowed step of the
one, what the one reaches the other does too. -/
theorem Reaches.lift {γ δ : Type} {L : Machine τ γ δ} {A : α → Prop} {B : γ → Prop} {R : σ → τ → Prop}
    (hstep : ∀ s t a s' b, A a → R s t → M.step s a = some (s', b) → ∃ t', L.Reaches B t t' ∧ R s' t')
    {s s' : σ} {t : τ} (h : M.Reaches A s s') (h0 : R s t) : ∃ t', L.Reaches B t t' ∧ R s' t' := by
  obtain ⟨as, bs, hA, hr⟩ := h
  induction as generalizing s t bs with
  | nil =>
    cases hr
    exact ⟨t, .refl t, h0⟩
  | cons a as ih =>
    obtain ⟨ha, hA'⟩ := List.forall_mem_cons.1 hA
    obtain ⟨s1, b, bs', hs, hr', -⟩ := run_cons_eq_some.1 hr
    obtain ⟨t1, ht, hR⟩ := hstep s t a s1 b ha h0 hs
    obtain ⟨t', hreach, hR'⟩ := ih hR bs' hA' hr'
    exact ⟨t', ht.trans hreach, hR'⟩

/-! ## Simulation -/

/-- While `C` holds of the left machine's step, related states step to related
states with the same output, and neither machine gets stuck. -/
def Sim (M : Machine σ α β) (N : Machine τ α β) (R : σ → τ → Prop) (C : σ → α → Prop) : Prop :=
  ∀ s t a, R s t → C s a → ∃ s' t' b, M.step s a = some (s', b) ∧ N.step t a = some (t', b) ∧ R s' t'

/-- Along a run that meets the condition, the two machines give the same outputs
and end in related states. -/
theorem Sim.run {R : σ → τ → Prop} {C : σ → α → Prop} (hsim : Sim M N R C) {s : σ} {t : τ} (h0 : R s t)
    {as : List α} (hC : M.Along C s as) :
    ∃ s' t' bs, M.run s as = some (s', bs) ∧ N.run t as = some (t', bs) ∧ R s' t' := by
  induction as generalizing s t with
  | nil => exact ⟨s, t, [], rfl, rfl, h0⟩
  | cons a as ih =>
    obtain ⟨s1, t1, b, hs, ht, hR⟩ := hsim s t a h0 hC.1
    obtain ⟨s2, t2, bs, hs2, ht2, hR2⟩ := ih hR (hC.2 s1 b hs)
    exact ⟨s2, t2, b :: bs, run_cons_eq_some.2 ⟨s1, b, bs, hs, hs2, rfl⟩,
      run_cons_eq_some.2 ⟨t1, b, bs, ht, ht2, rfl⟩, hR2⟩

/-- Related states step alike: both are stuck, or both give the same output and lead to
related states. -/
def Lockstep (M : Machine σ α β) (N : Machine τ α β) (R : σ → τ → Prop) : Prop :=
  ∀ s t a, R s t → M.step s a = none ∧ N.step t a = none ∨
    ∃ s' t' b, M.step s a = some (s', b) ∧ N.step t a = some (t', b) ∧ R s' t'

/-- Every run of the one machine is a run of the other, stuck at the same step if at all. -/
theorem Lockstep.run {R : σ → τ → Prop} (h : Lockstep M N R) {s : σ} {t : τ} (h0 : R s t) (as : List α) :
    M.run s as = none ∧ N.run t as = none ∨
      ∃ s' t' bs, M.run s as = some (s', bs) ∧ N.run t as = some (t', bs) ∧ R s' t' := by
  induction as generalizing s t with
  | nil => exact .inr ⟨s, t, [], rfl, rfl, h0⟩
  | cons a as ih =>
    rcases h s t a h0 with ⟨hs, ht⟩ | ⟨s1, t1, b, hs, ht, hR⟩
    · exact .inl ⟨by rw [Machine.run, hs], by rw [Machine.run, ht]⟩
    · rcases ih hR with ⟨hs2, ht2⟩ | ⟨s2, t2, bs, hs2, ht2, hR2⟩
      · refine .inl ⟨?_, ?_⟩
        · rw [Machine.run, hs]
          dsimp only
          rw [hs2, Option.map_none]
        · rw [Machine.run, ht]
          dsimp only
          rw [ht2, Option.map_none]
      · exact .inr ⟨s2, t2, b :: bs, run_cons_eq_some.2 ⟨s1, b, bs, hs, hs2, rfl⟩,
          run_cons_eq_some.2 ⟨t1, b, bs, ht, ht2, rfl⟩, hR2⟩

/-- What the one machine does, the other does too, but for the actions it knows nothing of. -/
def Follows (M : Machine σ α β) {γ δ : Type} (N : Machine τ γ δ) (f : α → Option γ) (R : σ → τ → Prop) : Prop :=
  ∀ s t a s' b, R s t → M.step s a = some (s', b) →
    match f a with
    | none => R s' t
    | some c => ∃ t' d, N.step t c = some (t', d) ∧ R s' t'

theorem Follows.run {γ δ : Type} {L : Machine τ γ δ} {f : α → Option γ} {R : σ → τ → Prop} (h : Follows M L f R)
    {s s' : σ} {t : τ} (h0 : R s t) {as : List α} {bs : List β} (hr : M.run s as = some (s', bs)) :
    ∃ t' ds, L.run t (as.filterMap f) = some (t', ds) ∧ R s' t' := by
  induction as generalizing s t bs with
  | nil =>
    cases hr
    exact ⟨t, [], rfl, h0⟩
  | cons a as ih =>
    obtain ⟨s1, b, bs', hs, hr', -⟩ := run_cons_eq_some.1 hr
    have hstep := h s t a s1 b h0 hs
    cases hf : f a with
    | none =>
      rw [hf] at hstep
      rw [List.filterMap_cons_none hf]
      exact ih hstep hr'
    | some c =>
      rw [hf] at hstep
      obtain ⟨t1, d, ht, hR⟩ := hstep
      obtain ⟨t', ds, hr2, hR2⟩ := ih hR hr'
      rw [List.filterMap_cons_some hf]
      exact ⟨t', d :: ds, run_cons_eq_some.2 ⟨t1, d, ds, ht, hr2, rfl⟩, hR2⟩

/-- Two machines whose steps, for the actions of the run and while `C` holds, give
the same output just when `D` holds, and then lead to related states: along a run
that meets `C` the outputs are the same just when it meets `D`. -/
theorem same_outputs_iff {R : σ → τ → Prop} {A : α → Prop} {C D : σ → α → Prop}
    (hstep : ∀ s t a, R s t → A a → C s a → ∃ s' b t' b', M.step s a = some (s', b) ∧
      N.step t a = some (t', b') ∧ (b = b' ↔ D s a) ∧ (D s a → R s' t'))
    {s : σ} {t : τ} (h0 : R s t) {as : List α} (hA : ∀ a ∈ as, A a) (hC : M.Along C s as) :
    (∃ bs, (M.run s as).map Prod.snd = some bs ∧ (N.run t as).map Prod.snd = some bs) ↔ M.Along D s as := by
  induction as generalizing s t with
  | nil => exact iff_of_true ⟨[], rfl, rfl⟩ trivial
  | cons a as ih =>
    obtain ⟨s1, b, t1, b', hs, ht, hsame, hR⟩ := hstep s t a h0 (hA a List.mem_cons_self) hC.1
    rw [along_cons hs]
    simp only [run, hs, ht, Option.map_map, Option.map_eq_some_iff, Prod.exists, Function.comp_apply]
    constructor
    · rintro ⟨bs, ⟨s2, bs1, hs2, rfl⟩, ⟨t2, bs2, ht2, he⟩⟩
      obtain ⟨rfl, rfl⟩ := List.cons.inj he
      have hD := hsame.1 rfl
      refine ⟨hD, (ih (hR hD) (fun a' ha' => hA a' (List.mem_cons_of_mem _ ha')) (hC.2 _ _ hs)).1 ⟨bs2, ?_, ?_⟩⟩
      · rw [hs2]
        rfl
      · rw [ht2]
        rfl
    · rintro ⟨hD, hall⟩
      obtain ⟨bs, hM, hN⟩ :=
        (ih (hR hD) (fun a' ha' => hA a' (List.mem_cons_of_mem _ ha')) (hC.2 _ _ hs)).2 hall
      obtain ⟨⟨s2, bs1⟩, hs2, hbs1⟩ := Option.map_eq_some_iff.1 hM
      obtain ⟨⟨t2, bs2⟩, ht2, hbs2⟩ := Option.map_eq_some_iff.1 hN
      obtain rfl : bs1 = bs := hbs1
      obtain rfl : bs2 = bs1 := hbs2
      exact ⟨b :: bs2, ⟨s2, bs2, hs2, rfl⟩, ⟨t2, bs2, ht2, by rw [hsame.2 hD]⟩⟩

end Machine

end Lib
