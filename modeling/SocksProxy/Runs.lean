import Mathlib.Data.List.Basic
import Mathlib.Tactic.Push

/-!
Finite runs of a labelled transition system. A run lists its labels in the
order they happened and grows at its end, so an invariant of one step is an
invariant of the run by induction on the last step. A run whose steps all meet
a condition is a run of the restricted system.
-/
namespace SocksProxy.Runs

variable {σ ε : Type*}

/-- `Run step s es t`: from `s` the labels `es` lead, one step each, to `t`. -/
inductive Run (step : σ → ε → σ → Prop) (s : σ) : List ε → σ → Prop
  | nil : Run step s [] s
  | snoc {es : List ε} {t u : σ} {e : ε} :
      Run step s es t → step t e u → Run step s (es ++ [e]) u

/-- The steps of `step` taken only where `guard` allows the label. -/
def Guarded (step : σ → ε → σ → Prop) (guard : σ → ε → Prop) (s : σ) (e : ε) (t : σ) : Prop :=
  guard s e ∧ step s e t

namespace Run

variable {step : σ → ε → σ → Prop} {s t u : σ} {es fs : List ε} {e : ε}

theorem invariant {I : σ → Prop} (h : Run step s es t) (hs : I s)
    (hstep : ∀ {a b : σ} {e : ε}, I a → step a e b → I b) : I t := by
  induction h with
  | nil => exact hs
  | snoc _ hlast ih => exact hstep ih hlast

/-- A second invariant may use one that is already known of every state. -/
theorem invariant_with {I J : σ → Prop} (h : Run step s es t) (hs : I s) (hJ : J s)
    (hstep : ∀ {a b : σ} {e : ε}, I a → step a e b → I b)
    (hstepJ : ∀ {a b : σ} {e : ε}, I a → I b → J a → step a e b → J b) : J t := by
  have hboth : I t ∧ J t := by
    apply h.invariant (I := fun x => I x ∧ J x) ⟨hs, hJ⟩
    rintro a b e ⟨ha, hja⟩ hab
    have hb : I b := hstep ha hab
    exact ⟨hb, hstepJ ha hb hja hab⟩
  exact hboth.2

theorem mono {step' : σ → ε → σ → Prop} (h : Run step s es t)
    (hle : ∀ {a b : σ} {e : ε}, step a e b → step' a e b) : Run step' s es t := by
  induction h with
  | nil => exact .nil
  | snoc _ hlast ih => exact .snoc ih (hle hlast)

theorem single (h : step s e t) : Run step s [e] t := .snoc .nil h

theorem append (h : Run step s es t) (h' : Run step t fs u) : Run step s (es ++ fs) u := by
  induction h' with
  | nil => simpa using h
  | snoc _ hlast ih =>
    rw [← List.append_assoc]
    exact .snoc ih hlast

theorem cons (h : step s e t) (h' : Run step t fs u) : Run step s (e :: fs) u :=
  (single h).append h'

/-- A run of the restricted system is a run of the system. -/
theorem of_guarded {guard : σ → ε → Prop} (h : Run (Guarded step guard) s es t) :
    Run step s es t := h.mono And.right

/-- A run whose labels are allowed everywhere is a run of the restricted system. -/
theorem guarded {guard : σ → ε → Prop} (h : Run step s es t)
    (hes : ∀ e ∈ es, ∀ a, guard a e) : Run (Guarded step guard) s es t := by
  induction h with
  | nil => exact .nil
  | snoc _ hlast ih =>
    have hinit := ih fun e hmem => hes e (List.mem_append_left _ hmem)
    exact .snoc hinit ⟨hes _ (List.mem_append_right _ List.mem_cons_self) _, hlast⟩

/-- A partial function that refines the relation can be iterated. -/
theorem of_foldlM {next : σ → ε → Option σ}
    (hnext : ∀ {a b : σ} {e : ε}, next a e = some b → step a e b)
    (h : es.foldlM next s = some t) : Run step s es t := by
  induction es generalizing s with
  | nil =>
    rw [List.foldlM_nil] at h
    obtain rfl := Option.some.inj h
    exact .nil
  | cons e es ih =>
    rw [List.foldlM_cons] at h
    obtain ⟨u, hu, ht⟩ := Option.bind_eq_some_iff.mp h
    exact cons (hnext hu) (ih ht)

/-- The same for a function that says why it has no result. -/
theorem of_foldlM_ok {δ : Type*} {next : σ → ε → Except δ σ}
    (hnext : ∀ {a b : σ} {e : ε}, next a e = .ok b → step a e b)
    (h : es.foldlM next s = .ok t) : Run step s es t := by
  induction es generalizing s with
  | nil =>
    obtain rfl := Except.ok.inj h
    exact .nil
  | cons e es ih =>
    rw [List.foldlM_cons] at h
    cases hfirst : next s e with
    | error x =>
      rw [hfirst] at h
      cases h
    | ok u =>
      rw [hfirst] at h
      exact cons (hnext hfirst) (ih h)

/-- The same, where a test is made before each step. -/
theorem of_foldlM_guarded {next : σ → ε → Option σ} {ok : σ → ε → Bool}
    (hnext : ∀ {a b : σ} {e : ε}, next a e = some b → step a e b)
    (h : es.foldlM (fun a e => if ok a e then next a e else none) s = some t) :
    Run (Guarded step fun a e => ok a e = true) s es t := by
  refine of_foldlM (fun {a b e} hab => ?_) h
  by_cases hok : ok a e = true
  · rw [if_pos hok] at hab
    exact ⟨hok, hnext hab⟩
  · rw [if_neg hok] at hab
    exact absurd hab (by simp)

section Measured

/-! Every step uses up some of a finite amount `m`, as long as `I` holds. -/

variable {I : σ → Prop} {m : σ → ℕ}

/-- What a run has used up is at least its length. -/
theorem length_add_le (h : Run step s es t) (hs : I s)
    (hkeep : ∀ {a b : σ} {e : ε}, I a → step a e b → I b)
    (hpay : ∀ {a b : σ} {e : ε}, I a → step a e b → m b < m a) : es.length + m t ≤ m s := by
  have hboth : I t ∧ es.length + m t ≤ m s := by
    induction h with
    | nil => exact ⟨hs, by simp⟩
    | snoc _ hlast ih =>
      obtain ⟨hI, hle⟩ := ih
      have hlt := hpay hI hlast
      refine ⟨hkeep hI hlast, ?_⟩
      rw [List.length_append, List.length_singleton]
      omega
  exact hboth.2

/-- Every run can go on until no step is possible. -/
theorem exists_maximal (hs : I s)
    (hkeep : ∀ {a b : σ} {e : ε}, I a → step a e b → I b)
    (hpay : ∀ {a b : σ} {e : ε}, I a → step a e b → m b < m a) :
    ∃ es t, Run step s es t ∧ ∀ e u, ¬ step t e u := by
  induction hm : m s using Nat.strongRecOn generalizing s with
  | ind n ih =>
    by_cases hstuck : ∀ e u, ¬ step s e u
    · exact ⟨[], s, .nil, hstuck⟩
    · push Not at hstuck
      obtain ⟨e, u, hstep⟩ := hstuck
      have hlt : m u < n := hm ▸ hpay hs hstep
      obtain ⟨es, t, hrun, hend⟩ := ih (m u) hlt (hkeep hs hstep) rfl
      exact ⟨e :: es, t, cons hstep hrun, hend⟩

end Measured

end Run

section Simulated

/-! What one system does step by step, another can follow. -/

variable {τ δ : Type*} {step : σ → ε → σ → Prop} {step' : τ → δ → τ → Prop} {s t u : σ} {e : ε}

/-- Some run leads from `s` to `t`. -/
def Leads (step : σ → ε → σ → Prop) (s t : σ) : Prop := ∃ es, Run step s es t

theorem Leads.refl (step : σ → ε → σ → Prop) (s : σ) : Leads step s s := ⟨[], .nil⟩

theorem Leads.single (h : step s e t) : Leads step s t := ⟨[e], .single h⟩

theorem Leads.trans (h : Leads step s t) (h' : Leads step t u) : Leads step s u := by
  obtain ⟨es, hrun⟩ := h
  obtain ⟨fs, hrun'⟩ := h'
  exact ⟨es ++ fs, hrun.append hrun'⟩

theorem Leads.head (h : step s e t) (h' : Leads step t u) : Leads step s u :=
  (Leads.single h).trans h'

/-- A run of `step` and one of `step'` beside it: `R` holds between them at the beginning
and after each step of the first, which the second answers with some steps of its own. -/
inductive Along (step : σ → ε → σ → Prop) (step' : τ → δ → τ → Prop) (R : σ → τ → Prop)
    (s : σ) (x : τ) : List ε → σ → τ → Prop
  | nil (hR : R s x) : Along step step' R s x [] s x
  | snoc {es : List ε} {t u : σ} {y z : τ} {e : ε} (h : Along step step' R s x es t y)
      (hstep : step t e u) (hleads : Leads step' y z) (hR : R u z) :
      Along step step' R s x (es ++ [e]) u z

variable {R : σ → τ → Prop} {es : List ε} {x y : τ}

theorem Along.holds (h : Along step step' R s x es t y) : R t y := by
  cases h with
  | nil hR => exact hR
  | snoc _ _ _ hR => exact hR

theorem Along.leads (h : Along step step' R s x es t y) : Leads step' x y := by
  induction h with
  | nil => exact .refl step' x
  | snoc _ _ hleads _ ih => exact ih.trans hleads

/-- Where each step is answered by a run that ends in a related state, a run is followed
by one run all along. -/
theorem Run.along (h : Run step s es t) (hx : R s x)
    (hstep : ∀ {a b : σ} {e : ε} {x : τ}, R a x → step a e b → ∃ y, Leads step' x y ∧ R b y) :
    ∃ y, Along step step' R s x es t y := by
  induction h with
  | nil => exact ⟨x, .nil hx⟩
  | snoc _ hlast ih =>
    obtain ⟨y, hy⟩ := ih
    obtain ⟨z, hz, hR⟩ := hstep hy.holds hlast
    exact ⟨z, .snoc hy hlast hz hR⟩

end Simulated

end SocksProxy.Runs
