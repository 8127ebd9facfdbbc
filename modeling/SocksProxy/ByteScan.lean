import Mathlib.Data.List.Basic
import Mathlib.Tactic.Common

/-!
Automata that read one symbol at a time and stop at the first symbol after
which they are done. `Partial` words leave the automaton unfinished after every
symbol; `Ends` words finish it exactly at their last symbol. Every word is one
or the other up to a remainder, the split is unique, and a scan over a word cut
anywhere is the scan over the whole word.
-/
namespace SocksProxy.ByteScan

variable {σ β : Type*} (feed : σ → β → σ) (fin : σ → Bool)

def feedAll (p : σ) (l : List β) : σ := l.foldl feed p

/-- Feed until done; the second component is what was not read. -/
def scan (p : σ) : List β → σ × List β
  | [] => (p, [])
  | c :: l => if fin (feed p c) then (feed p c, l) else scan (feed p c) l

/-- No nonempty prefix finishes the automaton. -/
def Partial (p : σ) : List β → Prop
  | [] => True
  | c :: l => fin (feed p c) = false ∧ Partial (feed p c) l

/-- The word finishes the automaton, with its last symbol and no earlier. -/
def Ends (p : σ) : List β → Prop
  | [] => False
  | c :: l => if fin (feed p c) then l = [] else Ends (feed p c) l

variable {feed fin}

instance decidableEnds [DecidableEq β] : (p : σ) → (m : List β) → Decidable (Ends feed fin p m)
  | _, [] => .isFalse id
  | p, c :: l =>
    if h : fin (feed p c) = true then decidable_of_iff (l = []) (by simp [Ends, h])
    else
      have := decidableEnds (feed p c) l
      decidable_of_iff (Ends feed fin (feed p c) l) (by simp [Ends, h])

@[simp] theorem feedAll_nil (p : σ) : feedAll feed p [] = p := rfl

@[simp] theorem feedAll_cons (p : σ) (c : β) (l : List β) :
    feedAll feed p (c :: l) = feedAll feed (feed p c) l := rfl

theorem feedAll_append (p : σ) (l m : List β) :
    feedAll feed p (l ++ m) = feedAll feed (feedAll feed p l) m := List.foldl_append

theorem partial_append (p : σ) (l m : List β) :
    Partial feed fin p (l ++ m) ↔
      Partial feed fin p l ∧ Partial feed fin (feedAll feed p l) m := by
  induction l generalizing p with
  | nil => simp [Partial]
  | cons c l ih => simp [Partial, ih, and_assoc]

/-- An unfinished prefix moves the start of the automaton. -/
theorem ends_append_of_unfinished {p : σ} {l : List β} (h : Partial feed fin p l) (m : List β) :
    Ends feed fin p (l ++ m) ↔ Ends feed fin (feedAll feed p l) m := by
  induction l generalizing p with
  | nil => simp
  | cons c l ih =>
    obtain ⟨hc, hl⟩ := h
    simp [Ends, hc, ih hl]

theorem Ends.ne_nil {p : σ} {m : List β} (h : Ends feed fin p m) : m ≠ [] := by
  rintro rfl
  exact h

theorem Ends.finished {p : σ} {m : List β} (h : Ends feed fin p m) :
    fin (feedAll feed p m) = true := by
  induction m generalizing p with
  | nil => exact h.elim
  | cons c m ih =>
    by_cases hc : fin (feed p c) = true
    · have hm : m = [] := by simpa [Ends, hc] using h
      simpa [hm] using hc
    · exact ih (by simpa [Ends, hc] using h)

theorem Partial.unfinished {p : σ} {l : List β} (h : Partial feed fin p l) (hne : l ≠ []) :
    fin (feedAll feed p l) = false := by
  induction l generalizing p with
  | nil => exact absurd rfl hne
  | cons c l ih =>
    obtain ⟨hc, hl⟩ := h
    by_cases hnil : l = []
    · simpa [hnil] using hc
    · exact ih hl hnil

/-- An unfinished word has no finishing prefix. -/
theorem Partial.not_ends {p : σ} {m r : List β} (h : Partial feed fin p (m ++ r)) :
    ¬ Ends feed fin p m := by
  induction m generalizing p with
  | nil => exact id
  | cons c m ih =>
    obtain ⟨hc, hm⟩ := h
    simpa [Ends, hc] using ih hm

/-- No finishing word is a proper prefix of another. -/
theorem Ends.unique {p : σ} {m m' r r' : List β} (h : Ends feed fin p m)
    (h' : Ends feed fin p m') (heq : m ++ r = m' ++ r') : m = m' ∧ r = r' := by
  induction m generalizing p m' with
  | nil => exact h.elim
  | cons c m ih =>
    cases m' with
    | nil => exact h'.elim
    | cons c' m' =>
      simp only [List.cons_append, List.cons.injEq] at heq
      obtain ⟨rfl, heq⟩ := heq
      by_cases hc : fin (feed p c) = true
      · have hm : m = [] := by simpa [Ends, hc] using h
        have hm' : m' = [] := by simpa [Ends, hc] using h'
        subst hm hm'
        exact ⟨rfl, heq⟩
      · obtain ⟨rfl, rfl⟩ := ih (by simpa [Ends, hc] using h) (by simpa [Ends, hc] using h') heq
        exact ⟨rfl, rfl⟩

theorem scan_of_unfinished {p : σ} {l : List β} (h : Partial feed fin p l) :
    scan feed fin p l = (feedAll feed p l, []) := by
  induction l generalizing p with
  | nil => rfl
  | cons c l ih =>
    obtain ⟨hc, hl⟩ := h
    simp [scan, hc, ih hl]

theorem scan_of_ends {p : σ} {m : List β} (h : Ends feed fin p m) (r : List β) :
    scan feed fin p (m ++ r) = (feedAll feed p m, r) := by
  induction m generalizing p with
  | nil => exact h.elim
  | cons c m ih =>
    by_cases hc : fin (feed p c) = true
    · have hm : m = [] := by simpa [Ends, hc] using h
      simp [scan, hc, hm]
    · simpa [scan, hc] using ih (by simpa [Ends, hc] using h)

/-- A word is unfinished, or a finishing word and what follows it. -/
theorem partial_or_ends (p : σ) (l : List β) :
    Partial feed fin p l ∨ ∃ m r, l = m ++ r ∧ Ends feed fin p m := by
  induction l generalizing p with
  | nil => exact Or.inl trivial
  | cons c l ih =>
    by_cases hc : fin (feed p c) = true
    · exact Or.inr ⟨[c], l, rfl, by simp [Ends, hc]⟩
    · rcases ih (feed p c) with hl | ⟨m, r, rfl, hm⟩
      · exact Or.inl ⟨by simpa using hc, hl⟩
      · exact Or.inr ⟨c :: m, r, rfl, by simpa [Ends, hc] using hm⟩

section Phases

/-! A phase reads a fixed number of symbols: in `phase (k + 1) w p` the word `w`
was read in it so far and `k + 1` symbols are still to come. -/
variable {phase : ℕ → List β → σ → Prop}

theorem feedAll_phase (hstep : ∀ {k w p} (c : β), phase (k + 1) w p →
      phase k (w ++ [c]) (feed p c))
    {k : ℕ} {w : List β} {p : σ} (u : List β) (hp : phase (k + u.length) w p) :
    phase k (w ++ u) (feedAll feed p u) := by
  induction u generalizing w p with
  | nil => simpa using hp
  | cons c u ih =>
    have hc : phase (k + u.length) (w ++ [c]) (feed p c) := by
      apply hstep c
      simpa only [List.length_cons, Nat.add_assoc] using hp
    simpa only [feedAll_cons, List.append_assoc, List.singleton_append] using ih hc

/-- A phase that hands over unfinished: every finishing word goes through it. -/
theorem ends_through (hstep : ∀ {k w p} (c : β), phase (k + 1) w p →
      phase k (w ++ [c]) (feed p c))
    (hfin : ∀ {k w p}, phase k w p → fin p = false)
    {k : ℕ} {w : List β} {p : σ} {l : List β} (hp : phase k w p) (h : Ends feed fin p l) :
    ∃ u r, l = u ++ r ∧ u.length = k ∧ phase 0 (w ++ u) (feedAll feed p u) ∧
      Ends feed fin (feedAll feed p u) r := by
  induction k generalizing w p l with
  | zero => exact ⟨[], l, rfl, rfl, by simpa using hp, h⟩
  | succ k ih =>
    cases l with
    | nil => exact h.elim
    | cons c l =>
      have hk := hstep c hp
      obtain ⟨u, r, rfl, hlen, hu, hr⟩ := ih hk (by simpa [Ends, hfin hk] using h)
      refine ⟨c :: u, r, rfl, by simpa using hlen, ?_, hr⟩
      simpa only [feedAll_cons, List.append_assoc, List.singleton_append] using hu

/-- Conversely a word of that length leaves the automaton unfinished. -/
theorem partial_through (hstep : ∀ {k w p} (c : β), phase (k + 1) w p →
      phase k (w ++ [c]) (feed p c))
    (hfin : ∀ {k w p}, phase k w p → fin p = false)
    {w : List β} {p : σ} (u : List β) (hp : phase u.length w p) : Partial feed fin p u := by
  induction u generalizing w p with
  | nil => trivial
  | cons c u ih =>
    have hc := hstep c hp
    exact ⟨hfin hc, ih hc⟩

/-- A last phase finishes with its last symbol. -/
theorem ends_iff_of_last (hstep : ∀ {k w p} (c : β), phase (k + 1) w p →
      phase k (w ++ [c]) (feed p c))
    (hfin : ∀ {k w p}, phase (k + 1) w p → fin p = false)
    (hlast : ∀ {w p}, phase 0 w p → fin p = true)
    {k : ℕ} {w : List β} {p : σ} (hp : phase (k + 1) w p) (l : List β) :
    Ends feed fin p l ↔ l.length = k + 1 := by
  induction k generalizing w p l with
  | zero =>
    cases l with
    | nil => simp [Ends]
    | cons c l => simp [Ends, hlast (hstep c hp)]
  | succ k ih =>
    cases l with
    | nil => simp [Ends]
    | cons c l =>
      have hk := hstep c hp
      simpa [Ends, hfin hk] using ih hk l

end Phases

end SocksProxy.ByteScan
