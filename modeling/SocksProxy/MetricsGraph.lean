import Mathlib.Algebra.Ring.Nat
import Mathlib.Data.List.Induction
import Mathlib.Tactic.Common

/-!
The graph of metrics_view.c. Its window is the end of the history of samples, and
the scale of the vertical axis is computed from the visible ones in words of 64
bits that may wrap. A sample inside the scale is still drawn inside the plot.
-/
namespace SocksProxy.MetricsGraph

def METRICS_GRAPH_MAX_POINTS : ℕ := 256

/-- The largest C `int`. -/
def INT_MAX : ℕ := 2147483647

/-- `struct metrics_graph`. -/
structure Graph where
  values : Vector UInt64 METRICS_GRAPH_MAX_POINTS
  count : ℕ
  nextTimeSec : UInt32
  count_le : count ≤ METRICS_GRAPH_MAX_POINTS

def metricsGraphInit : Graph where
  values := Vector.replicate _ 0
  count := 0
  nextTimeSec := 0
  count_le := Nat.zero_le _

/-- values + 1 moved to values, and `v` stored at the end. -/
def shifted (values : Vector UInt64 METRICS_GRAPH_MAX_POINTS) (v : UInt64) :
    Vector UInt64 METRICS_GRAPH_MAX_POINTS :=
  Vector.ofFn fun i => if h : i.val + 1 < METRICS_GRAPH_MAX_POINTS then values[i.val + 1] else v

def metricsGraphRecord (g : Graph) (v : UInt64) : Graph :=
  if h : g.count < METRICS_GRAPH_MAX_POINTS then
    { values := g.values.set g.count v h
      count := g.count + 1
      nextTimeSec := g.nextTimeSec + 1
      count_le := h }
  else
    { g with
      values := shifted g.values v
      nextTimeSec := g.nextTimeSec + 1 }

/-- graph->values[i]. -/
def Graph.value (g : Graph) (i : ℕ) : UInt64 := g.values.toList.getD i 0

section Window

/-- The samples that are kept, oldest first. -/
def Graph.window (g : Graph) : List UInt64 := g.values.toList.take g.count

variable {g : Graph} {v : UInt64} {samples : List UInt64} {i : ℕ}

theorem value_eq (hi : i < g.count) : g.window[i]? = some (g.value i) := by
  have hle := g.count_le
  have hlt : i < g.values.toList.length := by
    rw [Vector.length_toList]
    omega
  rw [Graph.window, List.getElem?_take_of_lt hi, Graph.value, List.getD_eq_getElem?_getD,
    List.getElem?_eq_getElem hlt, Option.getD_some]

theorem shifted_toList (values : Vector UInt64 METRICS_GRAPH_MAX_POINTS) (v : UInt64) :
    (shifted values v).toList = values.toList.drop 1 ++ [v] := by
  have hlen : values.toList.length = METRICS_GRAPH_MAX_POINTS := Vector.length_toList
  rw [shifted, Vector.toList_ofFn]
  apply List.ext_getElem
  · rw [List.length_ofFn, List.length_append, List.length_drop, hlen, List.length_singleton]
    rfl
  · intro i hi _
    rw [List.getElem_ofFn, List.getElem_append]
    rw [List.length_ofFn] at hi
    by_cases hlast : i + 1 < METRICS_GRAPH_MAX_POINTS
    · have hfront : i < (values.toList.drop 1).length := by
        rw [List.length_drop, hlen]
        omega
      rw [dif_pos hlast, dif_pos hfront, List.getElem_drop, Vector.getElem_toList]
      simp only [Nat.add_comm]
    · have hback : ¬ i < (values.toList.drop 1).length := by
        rw [List.length_drop, hlen]
        omega
      rw [dif_neg hlast, dif_neg hback, List.getElem_singleton]

/-- A new sample is the last, and a full window loses its first. -/
theorem window_record (g : Graph) (v : UInt64) :
    (metricsGraphRecord g v).window =
      (if g.count < METRICS_GRAPH_MAX_POINTS then g.window else g.window.drop 1) ++ [v] := by
  have hlen : g.values.toList.length = METRICS_GRAPH_MAX_POINTS := Vector.length_toList
  have hle := g.count_le
  by_cases hroom : g.count < METRICS_GRAPH_MAX_POINTS
  · rw [if_pos hroom, metricsGraphRecord, dif_pos hroom, Graph.window]
    show (g.values.set g.count v hroom).toList.take (g.count + 1) = _
    rw [Vector.toList_set, List.set_eq_take_append_cons_drop, if_pos (by omega)]
    have htake : (g.values.toList.take g.count).length = g.count := by
      rw [List.length_take]
      omega
    rw [List.take_append, htake, List.take_of_length_le (by omega), Nat.add_sub_cancel_left,
      List.take_succ_cons, List.take_zero]
    rfl
  · have hfull : g.count = METRICS_GRAPH_MAX_POINTS := by omega
    have hwindow : g.window = g.values.toList := by
      rw [Graph.window, List.take_of_length_le (by omega)]
    rw [if_neg hroom, hwindow, metricsGraphRecord, dif_neg hroom, Graph.window]
    show (shifted g.values v).toList.take g.count = _
    rw [List.take_of_length_le, shifted_toList]
    rw [Vector.length_toList]
    omega

theorem count_record (g : Graph) (v : UInt64) :
    (metricsGraphRecord g v).count = min (g.count + 1) METRICS_GRAPH_MAX_POINTS := by
  have hle := g.count_le
  unfold metricsGraphRecord
  split
  next hroom => exact (Nat.min_eq_left hroom).symm
  next hroom =>
    show g.count = _
    omega

theorem nextTimeSec_record (g : Graph) (v : UInt64) :
    (metricsGraphRecord g v).nextTimeSec = g.nextTimeSec + 1 := by
  unfold metricsGraphRecord
  split <;> rfl

/-- The graph after the samples of a history. -/
def recorded (samples : List UInt64) : Graph := samples.foldl metricsGraphRecord metricsGraphInit

theorem recorded_append (samples : List UInt64) (v : UInt64) :
    recorded (samples ++ [v]) = metricsGraphRecord (recorded samples) v := by
  simp [recorded]

theorem count_recorded (samples : List UInt64) :
    (recorded samples).count = min samples.length METRICS_GRAPH_MAX_POINTS := by
  induction samples using List.reverseRecOn with
  | nil => rfl
  | append_singleton samples v ih =>
    rw [recorded_append, count_record, ih, List.length_append, List.length_singleton]
    omega

theorem nextTimeSec_recorded (samples : List UInt64) :
    (recorded samples).nextTimeSec = UInt32.ofNat samples.length := by
  induction samples using List.reverseRecOn with
  | nil => rfl
  | append_singleton samples v ih =>
    rw [recorded_append, nextTimeSec_record, ih, List.length_append, List.length_singleton]
    exact (UInt32.ofNat_add _ 1).symm

/-- The window is the end of the history. -/
theorem window_recorded (samples : List UInt64) :
    (recorded samples).window = samples.drop (samples.length - METRICS_GRAPH_MAX_POINTS) := by
  induction samples using List.reverseRecOn with
  | nil => rfl
  | append_singleton samples v ih =>
    rw [recorded_append, window_record, ih, count_recorded, List.length_append,
      List.length_singleton]
    by_cases hroom : samples.length < METRICS_GRAPH_MAX_POINTS
    · have hall : samples.length - METRICS_GRAPH_MAX_POINTS = 0 := by omega
      have hall' : samples.length + 1 - METRICS_GRAPH_MAX_POINTS = 0 := by omega
      rw [if_pos (by omega), hall, hall', List.drop_zero, List.drop_zero]
    · have hnext : samples.length + 1 - METRICS_GRAPH_MAX_POINTS =
          samples.length - METRICS_GRAPH_MAX_POINTS + 1 := by omega
      have hpos : 0 < METRICS_GRAPH_MAX_POINTS := by decide
      rw [if_neg (by omega), List.drop_drop, hnext, List.drop_append_of_le_length (by omega)]

end Window

section Scale

/-- The loop of graph_y_bounds: the least and the greatest visible value. -/
def extremes (g : Graph) (first visible : ℕ) : UInt64 × UInt64 :=
  (List.range (visible - 1)).foldl
    (fun m i =>
      let value := g.value (first + (i + 1))
      (if value < m.1 then value else m.1, if value > m.2 then value else m.2))
    (g.value first, g.value first)

/-- What graph_y_bounds makes of the two. -/
def padded (min max : UInt64) (plotHeight : ℕ) : UInt64 × UInt64 :=
  let span := UInt64.ofNat plotHeight
  if min = max then
    let yMin := if min ≥ span / 2 then min - span / 2 else 0
    (yMin, yMin + span - 1)
  else
    let padding := (max - min) / 10 + 1
    let yMin := if min > padding then min - padding else 0
    let yMax := max + padding
    (yMin, if yMax ≤ yMin then yMin + 1 else yMax)

def graphYBounds (g : Graph) (first visible plotHeight : ℕ) : UInt64 × UInt64 :=
  padded (extremes g first visible).1 (extremes g first visible).2 plotHeight

/-- The quotient is cast to `int`. -/
def graphYForValue (value yMin yMax : UInt64) (plotTop : ℤ) (plotHeight : ℕ) : ℤ :=
  let range := yMax - yMin
  let offset := yMax - value
  plotTop +
    Int.bmod ((offset * UInt64.ofNat (plotHeight - 1) + range / 2) / range).toNat 4294967296

/-- One round of the loop. -/
theorem extremes_succ (g : Graph) (first k : ℕ) :
    extremes g first (k + 2) =
      (if g.value (first + (k + 1)) < (extremes g first (k + 1)).1 then g.value (first + (k + 1))
        else (extremes g first (k + 1)).1,
      if g.value (first + (k + 1)) > (extremes g first (k + 1)).2 then g.value (first + (k + 1))
        else (extremes g first (k + 1)).2) := by
  simp only [extremes, Nat.add_sub_cancel, show k + 2 - 1 = k + 1 from rfl, List.range_succ,
    List.foldl_append, List.foldl_cons, List.foldl_nil]

/-- The loop finds bounds of all it has seen, and the upper one is among them. -/
theorem extremes_spec (g : Graph) (first k : ℕ) :
    (∀ i ≤ k, (extremes g first (k + 1)).1 ≤ g.value (first + i) ∧
      g.value (first + i) ≤ (extremes g first (k + 1)).2) ∧
    ∃ i ≤ k, g.value (first + i) = (extremes g first (k + 1)).2 := by
  induction k with
  | zero =>
    refine ⟨?_, 0, Nat.le_refl 0, rfl⟩
    intro i hi
    obtain rfl := Nat.le_zero.mp hi
    exact ⟨UInt64.le_refl _, UInt64.le_refl _⟩
  | succ k ih =>
    obtain ⟨hall, j, hj, hmax⟩ := ih
    rw [extremes_succ]
    generalize hm : extremes g first (k + 1) = m at *
    generalize hv : g.value (first + (k + 1)) = v
    have hlow : ∀ x, m.1 ≤ x ∨ x = v → (if v < m.1 then v else m.1) ≤ x := by
      intro x hx
      simp only [UInt64.le_iff_toNat_le, UInt64.lt_iff_toNat_lt] at hx ⊢
      split <;> rcases hx with hx | rfl <;> omega
    have hhigh : ∀ x, x ≤ m.2 ∨ x = v → x ≤ (if v > m.2 then v else m.2) := by
      intro x hx
      simp only [UInt64.le_iff_toNat_le, gt_iff_lt, UInt64.lt_iff_toNat_lt] at hx ⊢
      split <;> rcases hx with hx | rfl <;> omega
    refine ⟨?_, ?_⟩
    · intro i hi
      rcases Nat.lt_or_ge k i with hlast | hold
      · obtain rfl : i = k + 1 := Nat.le_antisymm hi hlast
        exact ⟨hlow _ (Or.inr hv), hhigh _ (Or.inr hv)⟩
      · exact ⟨hlow _ (Or.inl (hall i hold).1), hhigh _ (Or.inl (hall i hold).2)⟩
    · by_cases hnew : v > m.2
      · exact ⟨k + 1, Nat.le_refl _, by rw [if_pos hnew, hv]⟩
      · exact ⟨j, by omega, by rw [if_neg hnew, hmax]⟩

variable {min max value yMin yMax : UInt64} {h : ℕ}

theorem span_toNat (hmax : h ≤ INT_MAX) : (UInt64.ofNat h).toNat = h := by
  apply UInt64.toNat_ofNat_of_lt'
  exact Nat.lt_of_le_of_lt hmax (by decide)

/-- Less than a whole turn apart, two words differ. -/
theorem add_span_ne (y : UInt64) (hh : 2 ≤ h) (hmax : h ≤ INT_MAX) :
    y ≠ y + UInt64.ofNat h - 1 := by
  intro heq
  have hy := y.toNat_lt
  have hnat := congrArg UInt64.toNat heq
  rw [UInt64.toNat_sub, UInt64.toNat_add, span_toNat hmax, UInt64.toNat_one] at hnat
  unfold INT_MAX at hmax
  omega

theorem lowered_le (min padding : UInt64) :
    (if min > padding then min - padding else 0) ≤ min := by
  rw [UInt64.le_iff_toNat_le]
  split
  next hgt =>
    rw [UInt64.toNat_sub_of_le _ _ (UInt64.le_of_lt hgt)]
    exact Nat.sub_le _ _
  next => exact Nat.zero_le _

theorem padded_ne (hle : min ≤ max) (hh : 2 ≤ h) (hmax : h ≤ INT_MAX) :
    (padded min max h).1 ≠ (padded min max h).2 := by
  unfold padded
  split
  next => exact add_span_ne _ hh hmax
  next hne =>
    dsimp only
    -- the lower bound is at most `min`, which is not the greatest word
    have hlow := UInt64.le_iff_toNat_le.mp (lowered_le min ((max - min) / 10 + 1))
    generalize (if min > (max - min) / 10 + 1 then min - ((max - min) / 10 + 1) else 0) = low at *
    have hlt : min.toNat < max.toNat := by
      have hle' := UInt64.le_iff_toNat_le.mp hle
      have hne' : min.toNat ≠ max.toNat := fun heq => hne (UInt64.toNat_inj.mp heq)
      omega
    by_cases hgt : max + ((max - min) / 10 + 1) ≤ low
    · rw [if_pos hgt]
      intro heq
      have hword := max.toNat_lt
      have hnat := congrArg UInt64.toNat heq
      rw [UInt64.toNat_add, UInt64.toNat_one] at hnat
      omega
    · rw [if_neg hgt]
      intro heq
      exact hgt (heq ▸ UInt64.le_refl _)

/-- Far from the end of the words, nothing wraps and all samples are inside. -/
theorem padded_inside (hle : min ≤ max) (hh : 2 ≤ h) (hmax : h ≤ INT_MAX)
    (hsmall : max.toNat < 2 ^ 63) :
    (padded min max h).1 ≤ min ∧ max ≤ (padded min max h).2 := by
  have hspan := span_toNat hmax
  unfold INT_MAX at hmax
  rw [UInt64.le_iff_toNat_le] at hle
  unfold padded
  split
  next heq =>
    subst heq
    have hhalf : (UInt64.ofNat h / 2).toNat = h / 2 := by
      rw [UInt64.toNat_div, hspan]
      rfl
    have hlow : (if min ≥ UInt64.ofNat h / 2 then min - UInt64.ofNat h / 2 else 0).toNat =
        min.toNat - h / 2 := by
      split
      next hge => rw [UInt64.toNat_sub_of_le _ _ hge, hhalf]
      next hlt =>
        rw [ge_iff_le, UInt64.le_iff_toNat_le, hhalf] at hlt
        rw [UInt64.toNat_zero]
        omega
    dsimp only
    rw [UInt64.le_iff_toNat_le, UInt64.le_iff_toNat_le, UInt64.toNat_sub, UInt64.toNat_add, hlow,
      hspan, UInt64.toNat_one]
    omega
  next hne =>
    have hpadding : ((max - min) / 10 + 1).toNat = (max.toNat - min.toNat) / 10 + 1 := by
      rw [UInt64.toNat_add, UInt64.toNat_div,
        UInt64.toNat_sub_of_le _ _ (UInt64.le_iff_toNat_le.mpr hle), UInt64.toNat_one,
        show (10 : UInt64).toNat = 10 from rfl]
      omega
    have hhigh : (max + ((max - min) / 10 + 1)).toNat =
        max.toNat + ((max.toNat - min.toNat) / 10 + 1) := by
      rw [UInt64.toNat_add, hpadding]
      omega
    dsimp only
    have hlow := UInt64.le_iff_toNat_le.mp (lowered_le min ((max - min) / 10 + 1))
    refine ⟨lowered_le _ _, ?_⟩
    rw [if_neg (by rw [UInt64.le_iff_toNat_le, hhigh]; omega), UInt64.le_iff_toNat_le, hhigh]
    omega

/-- The product may wrap, but what is left of it is no more than the product. -/
theorem graphYForValue_mem (plotTop : ℤ) (hh : 2 ≤ h) (hmax : h ≤ INT_MAX) (hne : yMin ≠ yMax)
    (hlow : yMin ≤ value) (hhigh : value ≤ yMax) :
    plotTop ≤ graphYForValue value yMin yMax plotTop h ∧
      graphYForValue value yMin yMax plotTop h ≤ plotTop + h - 1 := by
  have hrange : (yMax - yMin).toNat = yMax.toNat - yMin.toNat :=
    UInt64.toNat_sub_of_le _ _ (UInt64.le_trans hlow hhigh)
  have hoffset : (yMax - value).toNat = yMax.toNat - value.toNat :=
    UInt64.toNat_sub_of_le _ _ hhigh
  have hpos : 0 < (yMax - yMin).toNat := by
    have hne' : yMin.toNat ≠ yMax.toNat := fun heq => hne (UInt64.toNat_inj.mp heq)
    have hle := UInt64.le_iff_toNat_le.mp (UInt64.le_trans hlow hhigh)
    omega
  have hle : (yMax - value).toNat ≤ (yMax - yMin).toNat := by
    rw [UInt64.le_iff_toNat_le] at hlow
    omega
  have hrows : (UInt64.ofNat (h - 1)).toNat = h - 1 := span_toNat (by omega)
  have hquotient : (((yMax - value) * UInt64.ofNat (h - 1) + (yMax - yMin) / 2) /
      (yMax - yMin)).toNat < h := by
    rw [UInt64.toNat_div, UInt64.toNat_add, UInt64.toNat_mul, UInt64.toNat_div, hrows,
      show (2 : UInt64).toNat = 2 from rfl]
    apply Nat.div_lt_of_lt_mul
    generalize (yMax - value).toNat = offset at *
    generalize (yMax - yMin).toNat = range at *
    calc
      (offset * (h - 1) % 2 ^ 64 + range / 2) % 2 ^ 64 ≤ offset * (h - 1) % 2 ^ 64 + range / 2 :=
        Nat.mod_le _ _
      _ ≤ offset * (h - 1) + range / 2 := Nat.add_le_add_right (Nat.mod_le _ _) _
      _ ≤ range * (h - 1) + range / 2 := Nat.add_le_add_right (Nat.mul_le_mul_right _ hle) _
      _ < range * (h - 1) + range := Nat.add_lt_add_left (Nat.div_lt_self hpos (by decide)) _
      _ = range * h := by rw [← Nat.mul_succ, Nat.succ_eq_add_one, Nat.sub_add_cancel (by omega)]
  unfold INT_MAX at hmax
  simp only [graphYForValue]
  rw [Int.bmod_eq_of_le (by omega) (by omega)]
  omega

/-- The bounds of draw_graph_space while there is no sample. -/
def emptyBounds (currentConnections : UInt64) (plotHeight : ℕ) : UInt64 × UInt64 :=
  let ySpan := UInt64.ofNat plotHeight
  let yMin := if currentConnections ≥ ySpan then currentConnections - ySpan + 1 else 0
  (yMin, yMin + ySpan - 1)

end Scale

section Drawing

def visibleOf (g : Graph) (plotWidth : ℕ) : ℕ :=
  if g.count < plotWidth then g.count else plotWidth

def firstOf (g : Graph) (plotWidth : ℕ) : ℕ := g.count - visibleOf g plotWidth

/-- The `i`-th visible sample. -/
def shown (g : Graph) (plotWidth i : ℕ) : UInt64 := g.value (firstOf g plotWidth + i)

/-- y_min and y_max of draw_graph_space. -/
def yBounds (g : Graph) (plotHeight plotWidth : ℕ) (currentConnections : UInt64) :
    UInt64 × UInt64 :=
  if visibleOf g plotWidth > 0 then
    graphYBounds g (firstOf g plotWidth) (visibleOf g plotWidth) plotHeight
  else emptyBounds currentConnections plotHeight

/-- sample_time of the `i`-th visible sample. -/
def sampleTime (g : Graph) (plotWidth i : ℕ) : UInt32 :=
  let firstTime := g.nextTimeSec - UInt32.ofNat g.count
  firstTime + UInt32.ofNat (firstOf g plotWidth) + UInt32.ofNat i

/-- The stars of the plot and the labels under it, with their places. -/
structure Drawn where
  axis : List (ℤ × UInt64)
  points : List (ℤ × ℤ)
  labels : List (ℤ × UInt32)

/-- draw_graph_space inside its box; `rows` is the height of the screen, and `none`
stands for the line of text that is printed when there is no room for a plot. -/
def drawGraphSpace (top left height width rows : ℤ) (g : Graph) (currentConnections : UInt64) :
    Option Drawn :=
  let plotTop := top + 2
  let plotLeft := left + 5 + 1
  if height - 5 < 2 ∨ width - 8 < 4 then none
  else
    let plotHeight := (height - 5).toNat
    let plotWidth := (width - 8).toNat
    let axisY := plotTop + plotHeight
    let visible := visibleOf g plotWidth
    let (yMin, yMax) := yBounds g plotHeight plotWidth currentConnections
    let x := fun i : ℕ => plotLeft + plotWidth - visible + i
    some
      { axis := (List.range plotHeight).map fun row : ℕ =>
          (plotTop + row,
            yMax - UInt64.ofNat row * (yMax - yMin) / UInt64.ofNat (plotHeight - 1))
        points := (List.range visible).filterMap fun i =>
          let value := shown g plotWidth i
          if value < yMin ∨ value > yMax then none
          else some (graphYForValue value yMin yMax plotTop plotHeight, x i)
        labels :=
          if axisY + 1 ≥ rows - 1 then []
          else (List.range visible).filterMap fun i =>
            if sampleTime g plotWidth i % 10 ≠ 0 ∨ x i + 1 ≥ left + width - 1 then none
            else some (x i, sampleTime g plotWidth i % 100) }

variable {g : Graph} {samples : List UInt64} {plotHeight plotWidth i : ℕ}

theorem visibleOf_le (g : Graph) (plotWidth : ℕ) : visibleOf g plotWidth ≤ g.count := by
  unfold visibleOf
  split <;> omega

theorem shown_recorded (hi : i < visibleOf (recorded samples) plotWidth) :
    samples[samples.length - visibleOf (recorded samples) plotWidth + i]? =
      some (shown (recorded samples) plotWidth i) := by
  have hle := visibleOf_le (recorded samples) plotWidth
  have hcount := count_recorded samples
  have hvalue := value_eq (g := recorded samples)
    (i := firstOf (recorded samples) plotWidth + i) (by unfold firstOf; omega)
  rw [window_recorded, List.getElem?_drop] at hvalue
  have hindex : samples.length - METRICS_GRAPH_MAX_POINTS +
      (firstOf (recorded samples) plotWidth + i) =
      samples.length - visibleOf (recorded samples) plotWidth + i := by
    unfold firstOf
    omega
  rw [hindex] at hvalue
  exact hvalue

theorem sampleTime_recorded (samples : List UInt64) (plotWidth i : ℕ) :
    sampleTime (recorded samples) plotWidth i =
      UInt32.ofNat (samples.length - visibleOf (recorded samples) plotWidth + i) := by
  have hle := visibleOf_le (recorded samples) plotWidth
  have hcount := count_recorded samples
  have hfirst : samples.length - (recorded samples).count +
      firstOf (recorded samples) plotWidth =
      samples.length - visibleOf (recorded samples) plotWidth := by
    unfold firstOf
    omega
  rw [sampleTime, nextTimeSec_recorded, ← UInt32.ofNat_sub (by omega), ← UInt32.ofNat_add,
    hfirst, ← UInt32.ofNat_add]

theorem extremes_le (g : Graph) (first k : ℕ) :
    (extremes g first (k + 1)).1 ≤ (extremes g first (k + 1)).2 := by
  obtain ⟨hall, -⟩ := extremes_spec g first k
  exact UInt64.le_trans (hall 0 (Nat.zero_le k)).1 (hall 0 (Nat.zero_le k)).2

theorem yBounds_ne (g : Graph) (plotWidth : ℕ) (currentConnections : UInt64)
    (hh : 2 ≤ plotHeight) (hmax : plotHeight ≤ INT_MAX) :
    (yBounds g plotHeight plotWidth currentConnections).1 ≠
      (yBounds g plotHeight plotWidth currentConnections).2 := by
  unfold yBounds
  split
  next hpos =>
    obtain ⟨k, hk⟩ := Nat.exists_eq_add_one.mpr hpos
    rw [hk]
    exact padded_ne (extremes_le g _ k) hh hmax
  next => exact add_span_ne _ hh hmax

theorem shown_inside (hh : 2 ≤ plotHeight) (hmax : plotHeight ≤ INT_MAX)
    (currentConnections : UInt64)
    (hsmall : ∀ i < visibleOf g plotWidth, (shown g plotWidth i).toNat < 2 ^ 63)
    (hi : i < visibleOf g plotWidth) :
    (yBounds g plotHeight plotWidth currentConnections).1 ≤ shown g plotWidth i ∧
      shown g plotWidth i ≤ (yBounds g plotHeight plotWidth currentConnections).2 := by
  have hpos : visibleOf g plotWidth > 0 := by omega
  obtain ⟨k, hk⟩ := Nat.exists_eq_add_one.mpr hpos
  obtain ⟨hall, j, hj, hgreatest⟩ := extremes_spec g (firstOf g plotWidth) k
  have hbound : (extremes g (firstOf g plotWidth) (k + 1)).2.toNat < 2 ^ 63 := by
    rw [← hgreatest]
    exact hsmall j (by omega)
  obtain ⟨hlow, hhigh⟩ := padded_inside (extremes_le g _ k) hh hmax hbound
  rw [yBounds, if_pos hpos, hk, graphYBounds]
  exact ⟨UInt64.le_trans hlow (hall i (by omega)).1, UInt64.le_trans (hall i (by omega)).2 hhigh⟩

/-- The stars are in the rows of the plot, and none is missing while the samples are small. -/
theorem drawGraphSpace_points {top left height width rows : ℤ} {current : UInt64} {d : Drawn}
    (h : drawGraphSpace top left height width rows g current = some d)
    (hmax : height - 5 ≤ INT_MAX) :
    (∀ p ∈ d.points, top + 2 ≤ p.1 ∧ p.1 ≤ top + 2 + (height - 5) - 1) ∧
    ((∀ i < visibleOf g (width - 8).toNat, (shown g (width - 8).toNat i).toNat < 2 ^ 63) →
      d.points.length = visibleOf g (width - 8).toNat) := by
  unfold drawGraphSpace at h
  dsimp only at h
  split at h
  next => cases h
  next hroom =>
    obtain rfl := Option.some.inj h
    have hheight : ((height - 5).toNat : ℤ) = height - 5 := Int.toNat_of_nonneg (by omega)
    have hh : 2 ≤ (height - 5).toNat := by omega
    have hle : (height - 5).toNat ≤ INT_MAX := by omega
    have hne := yBounds_ne g (width - 8).toNat current hh hle
    refine ⟨?_, ?_⟩
    · intro p hp
      obtain ⟨i, -, hpoint⟩ := List.mem_filterMap.mp hp
      split at hpoint
      next => cases hpoint
      next hinside =>
        obtain rfl := Option.some.inj hpoint
        rw [not_or, UInt64.not_lt, gt_iff_lt, UInt64.not_lt] at hinside
        have hmem := graphYForValue_mem (top + 2) hh hle hne hinside.1 hinside.2
        rw [hheight] at hmem
        exact hmem
    · intro hsmall
      rw [List.length_filterMap_eq_countP, List.countP_eq_length.mpr, List.length_range]
      intro i hi
      have hinside := shown_inside hh hle current hsmall (List.mem_range.mp hi)
      rw [if_neg]
      · rfl
      · rw [not_or, UInt64.not_lt, gt_iff_lt, UInt64.not_lt]
        exact hinside

end Drawing

end SocksProxy.MetricsGraph
