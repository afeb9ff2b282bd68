import Mathlib.Logic.Relation
import Mathlib.Tactic.Common

/-!
# Effect — stateful computations that may stop with a fault

`Eff ε σ α` is a computation over a mutable state `σ` that returns an `α` or stops with an `ε`.
The state reached is kept in both cases, as it is for a function with `&mut` arguments that leaves
early with `?`.

`Returns m s a s'` says that `m`, run from `s`, returns `a` and leaves `s'`.  The lemmas
`returns_*` take a computation apart at its binds, so a proof about a successful call never has to
unfold the monad.

`Makes step m` says that `m` changes the state by such steps only, also when it stops with a fault;
`Keeps I m Q` that it keeps `I` in any case, and that what it returns meets `Q`.
-/

namespace Kitsune2
namespace Lib

variable {ε σ τ α β : Type}

/-! ## The monad -/

def Eff (ε σ α : Type) : Type :=
  σ → Except ε α × σ

namespace Eff

instance : Monad (Eff ε σ) where
  pure a := fun s => (.ok a, s)
  bind m f := fun s =>
    match m s with
    | (.ok a, s') => f a s'
    | (.error e, s') => (.error e, s')

/-- Stop with a fault. -/
def fail (e : ε) : Eff ε σ α :=
  fun s => (.error e, s)

/-- Read the state. -/
def read : Eff ε σ σ :=
  fun s => (.ok s, s)

def modify (f : σ → σ) : Eff ε σ Unit :=
  fun s => (.ok (), f s)

/-- A pure computation that may fail. -/
def lift (x : Except ε α) : Eff ε σ α :=
  fun s => (x, s)

/-- Run a computation on one component of the state. -/
def zoom (get : τ → σ) (put : σ → τ → τ) (m : Eff ε σ α) : Eff ε τ α :=
  fun t =>
    match m (get t) with
    | (r, s) => (r, put s t)

/-- Run the body once for every element, in order. -/
def each (body : β → Eff ε σ Unit) : List β → Eff ε σ Unit
  | [] => pure ()
  | b :: bs => do
      body b
      each body bs

end Eff

instance : LawfulMonad (Eff ε σ) :=
  LawfulMonad.mk' (Eff ε σ)
    (by
      intro α m
      funext s
      rcases h : m s with ⟨r, s'⟩
      cases r with
      | ok a =>
          simp only [Functor.map, h]
          rfl
      | error e => simp [Functor.map, h])
    (fun _ _ => rfl)
    (by
      intro α β γ m f g
      funext s
      rcases h : m s with ⟨r, s'⟩
      cases r with
      | ok a => simp [bind, h]
      | error e => simp [bind, h])

/-! ## Successful runs -/

/-- `m` run from `s` returns `a` and leaves the state `s'`. -/
def Returns (m : Eff ε σ α) (s : σ) (a : α) (s' : σ) : Prop :=
  m s = (.ok a, s')

section Returns

variable {s s' s'' : σ} {a : α} {b : β}

theorem bind_run (m : Eff ε σ α) (f : α → Eff ε σ β) (s : σ) :
    (m >>= f) s =
      match m s with
      | (.ok a, s') => f a s'
      | (.error e, s') => (.error e, s') :=
  rfl

theorem Returns.bind_run {m : Eff ε σ α} (h : Returns m s a s') (f : α → Eff ε σ β) :
    (m >>= f) s = f a s' := by
  unfold Returns at h
  rw [Lib.bind_run, h]

theorem bind_run_error {m : Eff ε σ α} {e : ε} (h : m s = (.error e, s')) (f : α → Eff ε σ β) :
    (m >>= f) s = (.error e, s') := by
  rw [Lib.bind_run, h]

theorem returns_bind_iff {m : Eff ε σ α} {f : α → Eff ε σ β} :
    Returns (m >>= f) s b s'' ↔ ∃ a s', Returns m s a s' ∧ Returns (f a) s' b s'' := by
  unfold Returns
  rw [bind_run]
  rcases hm : m s with ⟨r, s1⟩
  cases r with
  | error e =>
      simp
  | ok a =>
      simp

theorem returns_pure_iff {a' : α} :
    Returns (pure a : Eff ε σ α) s a' s' ↔ a = a' ∧ s = s' := by
  have hpure : (pure a : Eff ε σ α) s = (.ok a, s) := rfl
  unfold Returns
  rw [hpure]
  simp

@[simp] theorem not_returns_fail {e : ε} : ¬ Returns (Eff.fail e : Eff ε σ α) s a s' := by
  simp [Returns, Eff.fail]

/-- A check that stops with a fault. -/
theorem returns_check_iff {p : Prop} [Decidable p] {e : ε} {m : Eff ε σ α} :
    Returns (if p then Eff.fail e else m) s a s' ↔ ¬ p ∧ Returns m s a s' := by
  by_cases hp : p
  · simp [hp]
  · simp [hp]

theorem returns_read_iff {r : σ} :
    Returns (Eff.read : Eff ε σ σ) s r s' ↔ r = s ∧ s' = s := by
  simp only [Returns, Eff.read, Prod.mk.injEq, Except.ok.injEq]
  constructor
  · rintro ⟨rfl, rfl⟩
    exact ⟨rfl, rfl⟩
  · rintro ⟨rfl, rfl⟩
    exact ⟨rfl, rfl⟩

theorem returns_modify_iff {f : σ → σ} {u : Unit} :
    Returns (Eff.modify f : Eff ε σ Unit) s u s' ↔ s' = f s := by
  simp only [Returns, Eff.modify, Prod.mk.injEq, true_and]
  exact eq_comm

theorem returns_lift_iff {x : Except ε α} :
    Returns (Eff.lift x : Eff ε σ α) s a s' ↔ x = .ok a ∧ s' = s := by
  simp only [Returns, Eff.lift, Prod.mk.injEq]
  constructor
  · rintro ⟨h, rfl⟩
    exact ⟨h, rfl⟩
  · rintro ⟨h, rfl⟩
    exact ⟨h, rfl⟩

/-! The same, in front of a bind. -/

theorem returns_read_bind_iff {f : σ → Eff ε σ β} :
    Returns (Eff.read >>= f) s b s' ↔ Returns (f s) s b s' := by
  rw [returns_bind_iff]
  constructor
  · rintro ⟨r, s1, hread, h⟩
    rcases returns_read_iff.mp hread with ⟨rfl, rfl⟩
    exact h
  · intro h
    exact ⟨s, s, returns_read_iff.mpr ⟨rfl, rfl⟩, h⟩

theorem returns_lift_bind_iff {x : Except ε α} {f : α → Eff ε σ β} :
    Returns (Eff.lift x >>= f) s b s' ↔ ∃ a, x = .ok a ∧ Returns (f a) s b s' := by
  rw [returns_bind_iff]
  constructor
  · rintro ⟨a, s1, hlift, h⟩
    rcases returns_lift_iff.mp hlift with ⟨hx, rfl⟩
    exact ⟨a, hx, h⟩
  · rintro ⟨a, hx, h⟩
    exact ⟨a, s, returns_lift_iff.mpr ⟨hx, rfl⟩, h⟩

theorem returns_modify_bind_iff {g : σ → σ} {f : Unit → Eff ε σ β} :
    Returns (Eff.modify g >>= f) s b s' ↔ Returns (f ()) (g s) b s' := by
  rw [returns_bind_iff]
  constructor
  · rintro ⟨_, s1, hmod, h⟩
    rw [returns_modify_iff] at hmod
    rwa [hmod] at h
  · intro h
    exact ⟨(), g s, returns_modify_iff.mpr rfl, h⟩

theorem returns_zoom_iff {get : τ → σ} {put : σ → τ → τ} {m : Eff ε σ α} {t t' : τ} :
    Returns (Eff.zoom get put m) t a t' ↔ ∃ s', Returns m (get t) a s' ∧ t' = put s' t := by
  unfold Returns Eff.zoom
  rcases hm : m (get t) with ⟨r, s1⟩
  constructor
  · intro h
    simp only [Prod.mk.injEq] at h
    exact ⟨s1, by rw [h.1], h.2.symm⟩
  · rintro ⟨s2, hs2, rfl⟩
    simp only [Prod.mk.injEq] at hs2
    simp [hs2.1, hs2.2]

theorem returns_each_cons_iff {body : β → Eff ε σ Unit} {bs : List β} {u : Unit} :
    Returns (Eff.each body (b :: bs)) s u s'' ↔
      ∃ s', Returns (body b) s () s' ∧ Returns (Eff.each body bs) s' () s'' := by
  have hcons : Eff.each body (b :: bs) = (body b >>= fun _ => Eff.each body bs) := rfl
  rw [hcons, returns_bind_iff]
  constructor
  · rintro ⟨_, s1, h1, h2⟩
    exact ⟨s1, h1, h2⟩
  · rintro ⟨s1, h1, h2⟩
    exact ⟨(), s1, h1, h2⟩

theorem returns_each_append_iff {body : β → Eff ε σ Unit} {bs bs' : List β} {u : Unit} :
    Returns (Eff.each body (bs ++ bs')) s u s'' ↔
      ∃ s', Returns (Eff.each body bs) s () s' ∧ Returns (Eff.each body bs') s' () s'' := by
  induction bs generalizing s with
  | nil =>
      constructor
      · intro h
        exact ⟨s, returns_pure_iff.mpr ⟨rfl, rfl⟩, h⟩
      · rintro ⟨s1, h1, h2⟩
        rcases returns_pure_iff.mp h1 with ⟨_, rfl⟩
        exact h2
  | cons b bs ih =>
      constructor
      · intro h
        rcases returns_each_cons_iff.mp h with ⟨s1, h1, h2⟩
        rcases ih.mp h2 with ⟨s2, h3, h4⟩
        exact ⟨s2, returns_each_cons_iff.mpr ⟨s1, h1, h3⟩, h4⟩
      · rintro ⟨s2, h, h4⟩
        rcases returns_each_cons_iff.mp h with ⟨s1, h1, h3⟩
        exact returns_each_cons_iff.mpr ⟨s1, h1, ih.mpr ⟨s2, h3, h4⟩⟩

/-- A computation returns at most one value. -/
theorem Returns.det {m : Eff ε σ α} {a a' : α} (h : Returns m s a s') (h' : Returns m s a' s'') :
    a = a' ∧ s' = s'' := by
  unfold Returns at h h'
  rw [h] at h'
  simpa using h'

end Returns

/-! ## All outcomes -/

/-- `Q` holds of the outcome of `m` run from `s`, a value or a fault, and of the state it leaves. -/
def Ends (m : Eff ε σ α) (s : σ) (Q : Except ε α → σ → Prop) : Prop :=
  Q (m s).1 (m s).2

section Ends

variable {s : σ} {Q : Except ε α → σ → Prop}

@[simp] theorem ends_pure_iff {a : α} : Ends (pure a : Eff ε σ α) s Q ↔ Q (.ok a) s :=
  Iff.rfl

@[simp] theorem ends_fail_iff {e : ε} : Ends (Eff.fail e : Eff ε σ α) s Q ↔ Q (.error e) s :=
  Iff.rfl

/-- A fault ends the whole computation; after a value the rest follows. -/
theorem ends_bind {m : Eff ε σ β} {f : β → Eff ε σ α}
    (hfault : ∀ e s', m s = (.error e, s') → Q (.error e) s')
    (hnext : ∀ b s', m s = (.ok b, s') → Ends (f b) s' Q) : Ends (m >>= f) s Q := by
  unfold Ends at hnext ⊢
  rw [bind_run]
  rcases hm : m s with ⟨r, s'⟩
  cases r with
  | error e =>
      exact hfault e s' hm
  | ok b =>
      exact hnext b s' hm

theorem ends_read_bind_iff {f : σ → Eff ε σ α} :
    Ends (Eff.read >>= f) s Q ↔ Ends (f s) s Q :=
  Iff.rfl

theorem ends_modify_bind_iff {g : σ → σ} {f : Unit → Eff ε σ α} :
    Ends (Eff.modify g >>= f) s Q ↔ Ends (f ()) (g s) Q :=
  Iff.rfl

theorem Ends.of_run {m : Eff ε σ α} {r : Except ε α} {s' : σ} (h : Ends m s Q)
    (hm : m s = (r, s')) : Q r s' := by
  unfold Ends at h
  rwa [hm] at h

theorem ends_congr {m m' : Eff ε σ α} (heq : m s = m' s) (h : Ends m' s Q) : Ends m s Q := by
  unfold Ends at h ⊢
  rwa [heq]

theorem Ends.mono {m : Eff ε σ α} {Q' : Except ε α → σ → Prop} (h : Ends m s Q)
    (himp : ∀ r s', Q r s' → Q' r s') : Ends m s Q' :=
  himp _ _ h

/-- A pure computation does not change the state. -/
theorem ends_lift_bind {x : Except ε β} {f : β → Eff ε σ α} (hfault : ∀ e, x = .error e → Q (.error e) s)
    (hnext : ∀ b, x = .ok b → Ends (f b) s Q) : Ends (Eff.lift x >>= f) s Q := by
  cases x with
  | error e =>
      exact hfault e rfl
  | ok b =>
      exact hnext b rfl

theorem ends_lift_ok_bind {x : Except ε β} {b : β} {f : β → Eff ε σ α} (hx : x = .ok b)
    (h : Ends (f b) s Q) : Ends (Eff.lift x >>= f) s Q := by
  rw [hx]
  exact h

theorem Returns.ends_bind {m : Eff ε σ β} {b : β} {f : β → Eff ε σ α} {s' : σ} (hm : Returns m s b s')
    (h : Ends (f b) s' Q) : Ends (m >>= f) s Q := by
  unfold Ends at h ⊢
  rwa [hm.bind_run]

theorem Ends.returns {m : Eff ε σ α} {a : α} {s' : σ} (h : Ends m s Q) (hm : Returns m s a s') :
    Q (.ok a) s' := by
  unfold Ends at h
  rwa [show m s = _ from hm] at h

end Ends

/-! ## Loops -/

/-- What one pass of a loop keeps, the whole loop keeps. -/
theorem returns_each_invariant {I : σ → Prop} {body : β → Eff ε σ Unit} :
    ∀ (bs : List β) {s s' : σ} {u : Unit}, I s →
      (∀ b ∈ bs, ∀ s s', I s → Returns (body b) s () s' → I s') →
      Returns (Eff.each body bs) s u s' → I s' := by
  intro bs
  induction bs with
  | nil =>
      intro s s' u hs _ h
      rcases returns_pure_iff.mp h with ⟨_, rfl⟩
      exact hs
  | cons b bs ih =>
      intro s s' u hs hbody h
      rcases returns_each_cons_iff.mp h with ⟨s1, h1, h2⟩
      have hs1 : I s1 := hbody b (by simp) s s1 hs h1
      exact ih hs1 (fun b' hb' => hbody b' (by simp [hb'])) h2

/-- A loop whose body always returns and keeps `I` returns and keeps `I`. -/
theorem each_returns {I : σ → Prop} {body : β → Eff ε σ Unit} :
    ∀ (bs : List β) {s : σ}, I s →
      (∀ b ∈ bs, ∀ s, I s → ∃ s', Returns (body b) s () s' ∧ I s') →
      ∃ s', Returns (Eff.each body bs) s () s' ∧ I s' := by
  intro bs
  induction bs with
  | nil =>
      intro s hs _
      exact ⟨s, returns_pure_iff.mpr ⟨rfl, rfl⟩, hs⟩
  | cons b bs ih =>
      intro s hs hbody
      rcases hbody b (by simp) s hs with ⟨s1, h1, hs1⟩
      rcases ih hs1 (fun b' hb' => hbody b' (by simp [hb'])) with ⟨s2, h2, hs2⟩
      exact ⟨s2, returns_each_cons_iff.mpr ⟨s1, h1, h2⟩, hs2⟩

/-- What one pass of a loop keeps in every outcome, the whole loop keeps in every outcome. -/
theorem ends_each_invariant {I : σ → Prop} {body : β → Eff ε σ Unit} :
    ∀ (bs : List β) {s : σ}, I s →
      (∀ b ∈ bs, ∀ s, I s → Ends (body b) s fun _ s' => I s') →
      Ends (Eff.each body bs) s fun _ s' => I s' := by
  intro bs
  induction bs with
  | nil =>
      intro s hs _
      exact hs
  | cons b bs ih =>
      intro s hs hbody
      have hfirst := hbody b (by simp) s hs
      refine ends_bind ?_ ?_
      · intro e s' hrun
        exact hfirst.of_run hrun
      · intro _ s' hrun
        exact ih (hfirst.of_run hrun) fun b' hb' => hbody b' (by simp [hb'])

/-! ## Schedules of faults -/

section Scheduled

variable {put : List Bool → σ → σ} {putt : List Bool → τ → τ}

/-- A computation whose calls to the outside follow a schedule kept in the state: what it returns
when nothing is scheduled, it returns when its own calls are scheduled to be answered, and it leaves
the rest of the schedule to what comes after it. -/
def Answered (put : List Bool → σ → σ) (m : Eff ε σ α) : Prop :=
  ∀ s a s', Returns m (put [] s) a s' →
    ∃ k s'', s' = put [] s'' ∧
      ∀ rest, Returns m (put (List.replicate k false ++ rest) s) a (put rest s'')

/-- A computation that makes no call. -/
theorem answered_of_silent {m : Eff ε σ α}
    (h : ∀ s a s', Returns m (put [] s) a s' →
      ∃ s'', s' = put [] s'' ∧ ∀ rest, Returns m (put rest s) a (put rest s'')) : Answered put m := by
  intro s a s' hret
  rcases h s a s' hret with ⟨s'', hs', hrest⟩
  exact ⟨0, s'', hs', fun rest => hrest rest⟩

theorem answered_pure (a : α) : Answered put (pure a : Eff ε σ α) := by
  refine answered_of_silent ?_
  intro s a' s' hret
  rcases returns_pure_iff.mp hret with ⟨rfl, rfl⟩
  exact ⟨s, rfl, fun rest => returns_pure_iff.mpr ⟨rfl, rfl⟩⟩

theorem answered_lift (x : Except ε α) : Answered put (Eff.lift x : Eff ε σ α) := by
  refine answered_of_silent ?_
  intro s a s' hret
  rcases returns_lift_iff.mp hret with ⟨hx, rfl⟩
  exact ⟨s, rfl, fun rest => returns_lift_iff.mpr ⟨hx, rfl⟩⟩

theorem answered_fail (e : ε) : Answered put (Eff.fail e : Eff ε σ α) := by
  intro s a s' hret
  exact absurd hret not_returns_fail

theorem answered_modify {g : σ → σ} (hg : ∀ rest s, g (put rest s) = put rest (g s)) :
    Answered put (Eff.modify g : Eff ε σ Unit) := by
  refine answered_of_silent ?_
  intro s _ s' hret
  rw [returns_modify_iff, hg] at hret
  refine ⟨g s, hret, ?_⟩
  intro rest
  rw [returns_modify_iff, hg]

theorem Answered.bind {m : Eff ε σ α} {f : α → Eff ε σ β} (hm : Answered put m)
    (hf : ∀ a, Answered put (f a)) : Answered put (m >>= f) := by
  intro s b s'' hret
  rcases returns_bind_iff.mp hret with ⟨a, s', h1, h2⟩
  rcases hm s a s' h1 with ⟨k, s1, rfl, hfirst⟩
  rcases hf a s1 b s'' h2 with ⟨k', s2, rfl, hnext⟩
  refine ⟨k + k', s2, rfl, ?_⟩
  intro rest
  rw [← List.replicate_append_replicate, List.append_assoc]
  exact returns_bind_iff.mpr ⟨a, _, hfirst _, hnext rest⟩

/-- Reading the state, by a computation that does not look at the schedule. -/
theorem answered_read_bind {f : σ → Eff ε σ β} (hput : ∀ rest s, f (put rest s) = f s)
    (hf : ∀ s, Answered put (f s)) : Answered put (Eff.read >>= f) := by
  intro s b s' hret
  have hret := returns_read_bind_iff.mp hret
  rw [hput] at hret
  rcases hf s s b s' hret with ⟨k, s'', hs', hrun⟩
  refine ⟨k, s'', hs', ?_⟩
  intro rest
  rw [returns_read_bind_iff, hput]
  exact hrun rest

theorem Answered.each {body : β → Eff ε σ Unit} (hbody : ∀ b, Answered put (body b)) :
    ∀ bs : List β, Answered put (Eff.each body bs) := by
  intro bs
  induction bs with
  | nil => exact answered_pure ()
  | cons b bs ih => exact (hbody b).bind fun _ => ih

/-- The schedule is kept in the component the computation runs on. -/
theorem Answered.zoom {get : τ → σ} {set : σ → τ → τ} {m : Eff ε σ α} (hm : Answered put m)
    (hget : ∀ rest t, get (putt rest t) = put rest (get t))
    (hset : ∀ rest s rest' t, set (put rest s) (putt rest' t) = putt rest (set s t)) :
    Answered putt (Eff.zoom get set m) := by
  intro t a t' hret
  rcases returns_zoom_iff.mp hret with ⟨s', h, rfl⟩
  rw [hget] at h
  rcases hm _ a s' h with ⟨k, s'', rfl, hrun⟩
  refine ⟨k, set s'' t, hset [] s'' [] t, ?_⟩
  intro rest
  refine returns_zoom_iff.mpr ⟨put rest s'', ?_, (hset rest s'' _ t).symm⟩
  rw [hget]
  exact hrun rest

end Scheduled

/-! ## Steps on the state -/

section Makes

variable {step : σ → σ → Prop} {s : σ}

/-- Whatever its outcome, the computation has made only such steps on the state. -/
def Makes (step : σ → σ → Prop) (m : Eff ε σ α) : Prop :=
  ∀ s, Relation.ReflTransGen step s (m s).2

theorem makes_pure (a : α) : Makes step (pure a : Eff ε σ α) :=
  fun _ => .refl

theorem makes_fail (e : ε) : Makes step (Eff.fail e : Eff ε σ α) :=
  fun _ => .refl

theorem makes_lift (x : Except ε α) : Makes step (Eff.lift x : Eff ε σ α) :=
  fun _ => .refl

theorem makes_modify {f : σ → σ} (hf : ∀ s, step s (f s)) :
    Makes step (Eff.modify f : Eff ε σ Unit) :=
  fun s => .single (hf s)

theorem makes_read_bind {f : σ → Eff ε σ β} (hf : ∀ s, Makes step (f s)) :
    Makes step (Eff.read >>= f) :=
  fun s => hf s s

theorem Makes.bind {m : Eff ε σ α} {f : α → Eff ε σ β} (hm : Makes step m)
    (hf : ∀ a, Makes step (f a)) : Makes step (m >>= f) := by
  intro s
  have hfirst := hm s
  rw [bind_run]
  rcases hrun : m s with ⟨r, s'⟩
  rw [hrun] at hfirst
  cases r with
  | error e => exact hfirst
  | ok a => exact hfirst.trans (hf a s')

/-- The steps of a run. -/
theorem Makes.of_run {m : Eff ε σ α} {r : Except ε α} {s' : σ} (h : Makes step m)
    (hm : m s = (r, s')) : Relation.ReflTransGen step s s' := by
  have hsteps := h s
  rwa [hm] at hsteps

end Makes

/-! ## Kept facts -/

section Keeps

variable {I : σ → Prop} {Q : α → Prop} {R : β → Prop}

/-- Whatever its outcome, the computation keeps `I`, and what it returns meets `Q`. -/
def Keeps (I : σ → Prop) (m : Eff ε σ α) (Q : α → Prop) : Prop :=
  ∀ s, I s → I (m s).2 ∧ ∀ a, (m s).1 = .ok a → Q a

theorem keeps_pure {a : α} (ha : Q a) : Keeps I (pure a : Eff ε σ α) Q :=
  fun _ hs => ⟨hs, fun _ h => Except.ok.inj h ▸ ha⟩

theorem keeps_fail (e : ε) : Keeps I (Eff.fail e : Eff ε σ α) Q :=
  fun _ hs => ⟨hs, fun _ h => by cases h⟩

theorem keeps_lift {x : Except ε α} (hx : ∀ a, x = .ok a → Q a) : Keeps I (Eff.lift x : Eff ε σ α) Q :=
  fun _ hs => ⟨hs, hx⟩

theorem keeps_modify {f : σ → σ} {Q : Unit → Prop} (hf : ∀ s, I s → I (f s)) (hQ : Q ()) :
    Keeps I (Eff.modify f : Eff ε σ Unit) Q :=
  fun s hs => ⟨hf s hs, fun _ _ => hQ⟩

theorem keeps_read_bind {f : σ → Eff ε σ α} (hf : ∀ s, I s → Keeps I (f s) Q) :
    Keeps I (Eff.read >>= f) Q :=
  fun s hs => hf s hs s hs

theorem Keeps.bind {m : Eff ε σ α} {f : α → Eff ε σ β} (hm : Keeps I m Q)
    (hf : ∀ a, Q a → Keeps I (f a) R) : Keeps I (m >>= f) R := by
  intro s hs
  have hfirst := hm s hs
  rw [bind_run]
  rcases hrun : m s with ⟨r, s'⟩
  rw [hrun] at hfirst
  cases r with
  | error e => exact ⟨hfirst.1, fun _ h => by cases h⟩
  | ok a => exact hf a (hfirst.2 a rfl) s' hfirst.1

end Keeps

end Lib
end Kitsune2
