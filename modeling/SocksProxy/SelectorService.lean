import SocksProxy.SelectorStale

/-!
Whom handle_iteration calls. The calls of one pass come in ascending order of
descriptors, the read of a descriptor before its write, so none comes twice; and who
is ready and keeps his interest until the pass is over has been called.
-/
namespace SocksProxy.SelectorService

open Runs Selector SelectorMachine SelectorTable SelectorBounds SelectorStale
open ConnState (FdInterest OP_READ OP_WRITE)

variable {m m' m₀ : Machine} {s : FdSelector} {f g : Frame} {rest : List Frame} {item : Item}
  {i n fd : ℕ} {alloc : Bool} {e : Event} {es es' : List Event} {status : Option SelectorStatus}
  {op : Op} {d d' : Dispatch} {ds : List Dispatch} {r w : Finset ℕ}

section Moves

/-- The place of a call in the order of the pass. -/
def rank (fd : ℕ) : Op → ℕ
  | .read => 2 * fd
  | .write => 2 * fd + 1

@[simp]
theorem rank_read (fd : ℕ) : rank fd .read = 2 * fd := rfl

@[simp]
theorem rank_write (fd : ℕ) : rank fd .write = 2 * fd + 1 := rfl

/-- The loop is past these calls: what it may still make comes after them in the order. -/
def Past : Frame → List Dispatch → Prop
  | .iteration i _ _, ds => ∀ d ∈ ds, rank d.fd d.op < rank i .read
  | .writing i _ _ _ _, ds => ∀ d ∈ ds, rank d.fd d.op < rank i .write
  | .destroying _, _ => False
  | _, _ => True

/-- selector_select and selector_destroy are called by main, between two passes. -/
def during : Event → Bool
  | .select _ => false
  | .destroy => false
  | _ => true

/-- What a step within the pass does: it calls nobody, or the next in the order. -/
structure Moves (m m' : Machine) : Prop where
  slave : ∀ op, slave m'.sel op = slave m.sel op
  calls :
    (m'.dispatched = m.dispatched ∧ ∀ g ∈ m'.stack.getLast?,
      (∃ f ∈ m.stack.getLast?, ∀ ds, Past f ds → Past g ds) ∨ ∀ ds, Past g ds) ∨
    ∃ f ∈ m.stack.getLast?, ∃ d, m'.dispatched = d :: m.dispatched ∧
      d.fd ∈ SelectorMachine.slave m.sel d.op ∧
      ∀ ds, Past f ds → (∀ d' ∈ ds, rank d'.fd d'.op < rank d.fd d.op) ∧
        ∀ g ∈ m'.stack.getLast?, Past g (d :: ds)

/-- What a step does that is not one of the loop: at most a selector_unregister_fd begins. -/
structure Beside (m m' : Machine) : Prop where
  slave : ∀ op, slave m'.sel op = slave m.sel op
  dispatched : m'.dispatched = m.dispatched
  stack : m'.stack = m.stack ∨ ∃ i size, m'.stack = .closing i size :: m.stack

theorem slave_put (s : FdSelector) (i : ℕ) (item : Item) (op : Op) :
    slave (put s i item) op = slave s op := by
  cases op <;> rfl

theorem slave_remove (s : FdSelector) (i k : ℕ) (op : Op) :
    slave (remove s i k) op = slave s op := by
  cases op <;> rfl

theorem beside_register {fd : ℤ} {handler : Option FdHandler} {interest : FdInterest} {data : ℕ}
    (hlive : Live m) (hcall : register m fd handler interest data alloc = .ok (m', status)) :
    Beside m m' := by
  rcases register_cases hlive.views fd handler interest data alloc with
    ⟨status', -, heq, -⟩ | ⟨-, -, -, heq⟩ | ⟨i, s, old, -, -, -, -, hgrown, -, -, heq⟩ <;>
    cases heq.symm.trans hcall
  · exact ⟨fun _ => rfl, rfl, Or.inl rfl⟩
  · obtain ⟨k, rfl⟩ := hgrown
    exact ⟨fun op => by cases op <;> rfl, rfl, Or.inl rfl⟩

theorem beside_unregister {fd : ℤ} (hlive : Live m)
    (hcall : unregister m fd = .ok (m', status)) : Beside m m' := by
  rcases unregister_cases m fd with ⟨-, heq⟩ | ⟨-, -, heq⟩ | ⟨i, item, rfl, hi⟩
  · cases heq.symm.trans hcall
    exact ⟨fun _ => rfl, rfl, Or.inl rfl⟩
  · cases heq.symm.trans hcall
  · rcases unregister_uses hlive.views hi with ⟨-, heq⟩ | ⟨-, k, -, heq⟩ <;>
      cases heq.symm.trans hcall
    · exact ⟨fun _ => rfl, rfl, Or.inr ⟨i, m.sel.fdSize, rfl⟩⟩
    · exact ⟨slave_remove _ _ _, rfl, Or.inl rfl⟩

theorem beside_setInterest {fd : ℤ} {interest : FdInterest} (hlive : Live m)
    (hcall : call m (.setInterest fd interest) = .ok (m', status)) : Beside m m' := by
  rcases setInterest_cases hlive.views fd interest with ⟨-, heq⟩ | ⟨-, -, heq⟩ |
    ⟨k, item, -, -, -, heq⟩ <;> cases heq.symm.trans hcall
  · exact ⟨fun _ => rfl, rfl, Or.inl rfl⟩
  · exact ⟨slave_put _ _ _, rfl, Or.inl rfl⟩

theorem beside_call (hlive : Live m) (hduring : during e = true) (hne : e ≠ .next)
    (hcall : call m e = .ok (m', status)) : Beside m m' := by
  cases e with
  | register fd handler interest data alloc => exact beside_register hlive hcall
  | unregister fd => exact beside_unregister hlive hcall
  | setInterest fd interest => exact beside_setInterest hlive hcall
  | setInterestKey fd interest =>
    rw [setInterestKey_eq] at hcall
    exact beside_setInterest hlive hcall
  | notifyBlockDone fd data alloc =>
    cases alloc <;> cases hcall
    · exact ⟨fun _ => rfl, rfl, Or.inl rfl⟩
    · exact ⟨fun op => by cases op <;> rfl, rfl, Or.inl rfl⟩
  | select answer => cases hduring
  | destroy => cases hduring
  | next => exact absurd rfl hne

/-- The function at the bottom is what it was, or the new selector_unregister_fd. -/
theorem Beside.base (h : Beside m m') (hlast : m'.stack.getLast? = some g) :
    m.stack.getLast? = some g ∨ m.stack = [] ∧ ∃ i size, g = .closing i size := by
  rcases h.stack with hstack | ⟨i, size, hstack⟩ <;> rw [hstack] at hlast
  · exact Or.inl hlast
  · cases hm : m.stack with
    | nil =>
      rw [hm] at hlast
      exact Or.inr ⟨rfl, i, size, (Option.some.inj hlast).symm⟩
    | cons f rest =>
      rw [hm, List.getLast?_cons_cons] at hlast
      exact Or.inl hlast

theorem Beside.keeps_base (h : Beside m m') (hlast : m.stack.getLast? = some f) :
    m'.stack.getLast? = some f := by
  rcases h.stack with hstack | ⟨i, size, hstack⟩ <;> rw [hstack]
  · exact hlast
  · cases hm : m.stack with
    | nil =>
      rw [hm] at hlast
      cases hlast
    | cons g rest => rwa [List.getLast?_cons_cons, ← hm]

theorem Beside.moves (h : Beside m m') : Moves m m' := by
  refine ⟨h.slave, Or.inl ⟨h.dispatched, ?_⟩⟩
  intro g hg
  rcases h.base hg with hbase | ⟨-, i, size, rfl⟩
  · exact Or.inl ⟨g, hbase, fun _ => id⟩
  · exact Or.inr fun _ => trivial

/-- The function at the bottom goes on as `g` and calls nobody. -/
theorem moves_on (hlast : m.stack.getLast? = some f) (hlast' : m'.stack = [g])
    (hslave : ∀ op, slave m'.sel op = slave m.sel op) (hdispatched : m'.dispatched = m.dispatched)
    (hpast : ∀ ds, Past f ds → Past g ds) : Moves m m' := by
  refine ⟨hslave, Or.inl ⟨hdispatched, ?_⟩⟩
  intro g' hg'
  rw [hlast'] at hg'
  obtain rfl := Option.some.inj hg'
  exact Or.inl ⟨f, hlast, hpast⟩

/-- The function at the bottom makes the call `d` and goes on as `g`. -/
theorem moves_call (hlast : m.stack.getLast? = some f) (hlast' : m'.stack = [g])
    (hslave : ∀ op, slave m'.sel op = slave m.sel op)
    (hdispatched : m'.dispatched = d :: m.dispatched) (hmem : d.fd ∈ slave m.sel d.op)
    (hrank : ∀ ds, Past f ds → ∀ d' ∈ ds, rank d'.fd d'.op < rank d.fd d.op)
    (hpast : ∀ ds, Past f ds → Past g (d :: ds)) : Moves m m' := by
  refine ⟨hslave, Or.inr ⟨f, hlast, d, hdispatched, hmem, fun ds hds => ⟨hrank ds hds, ?_⟩⟩⟩
  intro g' hg'
  rw [hlast'] at hg'
  obtain rfl := Option.some.inj hg'
  exact hpast ds hds

theorem past_write (h : ∀ d ∈ ds, rank d.fd d.op < rank i .read) :
    ∀ d ∈ ds, rank d.fd d.op < rank i .write :=
  fun d hd => (h d hd).trans (Nat.lt_succ_self _)

theorem past_succ (h : ∀ d ∈ ds, rank d.fd d.op < rank i .write) :
    ∀ d ∈ ds, rank d.fd d.op < rank (i + 1) .read := by
  intro d hd
  have hlt := h d hd
  rw [rank_write] at hlt
  rw [rank_read]
  omega

theorem moves_next (hlive : Live m) (hpast : ∀ f ∈ m.stack.getLast?, Past f ds)
    (hcall : next m = .ok (m', status)) : Moves m m' := by
  cases hstack : m.stack with
  | nil =>
    unfold next at hcall
    rw [hstack] at hcall
    cases hcall
  | cons f rest =>
    cases f with
    | closing i size =>
      rcases next_closing hlive hstack with ⟨-, heq⟩ | ⟨-, -, heq⟩ | ⟨item, k, -, -, -, heq⟩ <;>
        cases heq.symm.trans hcall
      refine ⟨slave_remove _ _ _, Or.inl ⟨rfl, ?_⟩⟩
      intro g hg
      have hlast : rest.getLast? = some g := hg
      refine Or.inl ⟨g, ?_, fun _ => id⟩
      rw [hstack]
      cases rest with
      | nil => cases hlast
      | cons g' rest => rwa [List.getLast?_cons_cons]
    | destroying i =>
      have hrest := hlive.base hstack fun _ _ heq => by cases heq
      rw [hstack, hrest] at hpast
      exact absurd (hpast _ rfl) not_false
    | iteration i n busy =>
      obtain ⟨hrest, hcases⟩ := next_iteration hlive hstack
      have hlast : m.stack.getLast? = some (.iteration i n busy) := by
        rw [hstack, hrest]
        rfl
      rcases hcases with ⟨-, heq⟩ | ⟨-, item, -, -, heq⟩ |
        ⟨-, item, -, ⟨hmem, -, heq | ⟨handler, -, heq⟩⟩ | heq⟩ <;> cases heq.symm.trans hcall
      · exact moves_on hlast rfl (fun _ => rfl) rfl fun _ _ => trivial
      · exact moves_on hlast rfl (fun _ => rfl) rfl fun ds h => past_succ (past_write h)
      · refine moves_call hlast rfl (fun _ => rfl) rfl hmem (fun _ h => h) fun ds h => ?_
        intro d hd
        rcases List.mem_cons.mp hd with rfl | hd
        · exact Nat.lt_succ_self _
        · exact past_write h d hd
      · exact moves_on hlast rfl (fun _ => rfl) rfl fun ds h => past_write h
    | writing i n data size busy =>
      obtain ⟨hrest, hcases⟩ := next_writing hlive hstack
      have hlast : m.stack.getLast? = some (.writing i n data size busy) := by
        rw [hstack, hrest]
        rfl
      rcases hcases with ⟨-, -, heq⟩ |
        ⟨item, hmem, -, -, -, heq | ⟨handler, -, heq⟩⟩ | ⟨-, heq⟩ <;> cases heq.symm.trans hcall
      · refine moves_call hlast rfl (fun _ => rfl) rfl hmem (fun _ h => h) fun ds h => ?_
        intro d hd
        rcases List.mem_cons.mp hd with rfl | hd
        · exact Nat.lt_succ_self _
        · exact past_succ h d hd
      · exact moves_on hlast rfl (fun _ => rfl) rfl fun ds h => past_succ h
    | notifications jobs busy =>
      rcases next_notifications hlive hstack with ⟨hrest, ⟨-, heq⟩ |
        ⟨j, jobs', -, ⟨busy', -, -, heq⟩ | ⟨-, heq⟩⟩⟩ <;> cases heq.symm.trans hcall
      · refine ⟨fun op => by cases op <;> rfl, Or.inl ⟨rfl, ?_⟩⟩
        intro g hg
        cases hg
      · have hlast : m.stack.getLast? = some (.notifications jobs busy) := by
          rw [hstack, hrest]
          rfl
        exact moves_on hlast rfl (fun _ => rfl) rfl fun _ _ => trivial

theorem moves_step (hlive : Live m) (hpast : ∀ f ∈ m.stack.getLast?, Past f ds)
    (hduring : during e = true) (hstep : Step m e m') : Moves m m' := by
  obtain ⟨-, status, hcall⟩ := hstep
  by_cases hnext : e = .next
  · obtain rfl := hnext
    exact moves_next hlive hpast hcall
  · exact (beside_call hlive hduring hnext hcall).moves

end Moves

section Order

/-- The steps between the pselect of a pass and the next call of selector_select. -/
abbrev InPass (m₀ : Machine) (es : List Event) (m : Machine) : Prop :=
  Run (Guarded Step fun _ e => during e = true) m₀ es m

/-- What is known in the pass that began in `m₀`, when it has made the calls `ds`, the
last one first. -/
structure Pass (m₀ m : Machine) (ds : List Dispatch) : Prop where
  sound : Sound m
  dispatched : m.dispatched = ds ++ m₀.dispatched
  slave : ∀ op, slave m.sel op = slave m₀.sel op
  ready : ∀ d ∈ ds, d.fd ∈ SelectorMachine.slave m₀.sel d.op
  order : ds.Pairwise fun d d' => rank d'.fd d'.op < rank d.fd d.op
  past : ∀ f ∈ m.stack.getLast?, Past f ds

theorem pass_step (h : Pass m₀ m ds) (hduring : during e = true) (hstep : Step m e m') :
    ∃ ds', Pass m₀ m' ds' := by
  have hmoves := moves_step (live_of_enabled h.sound hstep.1) h.past hduring hstep
  have hsound := sound_step h.sound hstep
  have hslave : ∀ op, slave m'.sel op = slave m₀.sel op :=
    fun op => (hmoves.slave op).trans (h.slave op)
  rcases hmoves.calls with ⟨hsame, hpast⟩ | ⟨f, hf, d, hcalled, hmem, hnext⟩
  · refine ⟨ds, hsound, hsame.trans h.dispatched, hslave, h.ready, h.order, ?_⟩
    intro g hg
    rcases hpast g hg with ⟨f, hf, hle⟩ | hall
    · exact hle ds (h.past f hf)
    · exact hall ds
  · obtain ⟨hrank, hpast⟩ := hnext ds (h.past f hf)
    refine ⟨d :: ds, hsound, ?_, hslave, ?_, List.pairwise_cons.mpr ⟨hrank, h.order⟩, hpast⟩
    · rw [hcalled, h.dispatched]
      rfl
    · intro d' hd'
      rcases List.mem_cons.mp hd' with rfl | hd'
      · rw [← h.slave]
        exact hmem
      · exact h.ready d' hd'

/-- The set that pselect has answered for `op`. -/
def found (r w : Finset ℕ) : Op → Finset ℕ
  | .read => r
  | .write => w

/-- A registration under the number of `fd` waits for `op`. -/
def Armed (m : Machine) (op : Op) (fd : ℕ) : Prop :=
  ∃ item, Uses m.sel fd item ∧ wants item.interest op = true

/-- The pass begins with what is ready of the interests. -/
theorem mem_slave_select (hviews : Views m.sel) (hstep : Step m (.select (.ready r w)) m₀) :
    fd ∈ slave m₀.sel op ↔ Armed m op fd ∧ fd ∈ found r w op := by
  obtain ⟨-, status, hcall⟩ := hstep
  cases hcall
  cases op with
  | read =>
    show fd ∈ m.sel.masterR ∩ r ↔ _
    rw [Finset.mem_inter, hviews.read_iff]
    rfl
  | write =>
    show fd ∈ m.sel.masterW ∩ w ↔ _
    rw [Finset.mem_inter, hviews.write_iff]
    rfl

theorem pass_run (hsound : Sound m) (hstep : Step m (.select (.ready r w)) m₀)
    (hrun : InPass m₀ es m') : ∃ ds, Pass m₀ m' ds := by
  have hbegin : ∃ ds, Pass m₀ m₀ ds := by
    refine ⟨[], sound_step hsound hstep, rfl, fun _ => rfl, by simp, .nil, ?_⟩
    obtain ⟨-, status, hcall⟩ := hstep
    cases hcall
    intro f hf
    obtain rfl := Option.some.inj hf
    exact fun d hd => absurd hd List.not_mem_nil
  apply hrun.invariant (I := fun m => ∃ ds, Pass m₀ m ds) hbegin
  rintro a b e ⟨ds, hpass⟩ ⟨hduring, hstep⟩
  exact pass_step hpass hduring hstep

/-- Calls in the order of the descriptors, a read before the write of the same one. -/
def Earlier (d d' : Dispatch) : Prop :=
  d.fd < d'.fd ∨ d.fd = d'.fd ∧ d.op = .read ∧ d'.op = .write

theorem earlier_iff : Earlier d d' ↔ rank d.fd d.op < rank d'.fd d'.op := by
  unfold Earlier
  cases hd : d.op <;> cases hd' : d'.op <;> simp only [rank_read, rank_write, reduceCtorEq,
    and_true, and_false, or_false] <;> omega

/-- The calls of one pass come in the order of the descriptors, so that nobody is called
twice for the same; and each was found ready for an interest that it had at pselect. -/
theorem calls_in_order {initialElements : ℕ}
    (hnew : selectorNew initialElements alloc = some s) (hrun : Run Step (start s) es m)
    (hselect : Step m (.select (.ready r w)) m₀) (hpass : InPass m₀ es' m') :
    ∃ ds, m'.dispatched = ds ++ m.dispatched ∧ ds.Pairwise (fun d d' => Earlier d' d) ∧
      ∀ d ∈ ds, Armed m d.op d.fd ∧ d.fd ∈ found r w d.op := by
  have hsound := sound_run hnew hrun
  have hviews := (live_of_enabled hsound hselect.1).views
  obtain ⟨ds, hds⟩ := pass_run hsound hselect hpass
  have hfirst : m₀.dispatched = m.dispatched := by
    obtain ⟨-, status, hcall⟩ := hselect
    cases hcall
    rfl
  refine ⟨ds, hfirst ▸ hds.dispatched, ?_, ?_⟩
  · exact hds.order.imp earlier_iff.mpr
  · exact fun d hd => (mem_slave_select hviews hselect).mp (hds.ready d hd)

/-- A pass in which two sockets can be read. -/
theorem calls_in_order_two : ∃ m m₀ m' ds,
    Step m (.select (.ready {2, 1} ∅)) m₀ ∧ InPass m₀ (List.replicate 4 .next) m' ∧
      m'.dispatched = ds ++ m.dispatched ∧ ds.map Dispatch.fd = [2, 1] ∧
      ds.Pairwise (fun d d' => Earlier d' d) ∧
      ∀ d ∈ ds, Armed m d.op d.fd ∧ d.fd ∈ found {2, 1} ∅ d.op := by
  obtain ⟨m, hrun, hnone, m₀, hselect, m', hnext, hfds⟩ : ∃ m,
      replay (start { selectorZero with fds := List.replicate 3 itemInit })
        [.register 1 (some readHandler) OP_READ 7 true,
          .register 2 (some readHandler) OP_READ 8 true] = some m ∧ m.dispatched = [] ∧
      ∃ m₀, advance m (.select (.ready {2, 1} ∅)) = some m₀ ∧
      ∃ m', replay m₀ (List.replicate 4 .next) = some m' ∧
        m'.dispatched.map Dispatch.fd = [2, 1] := ⟨_, rfl, rfl, _, rfl, _, rfl, rfl⟩
  have hnew : selectorNew 1 true =
      some { selectorZero with fds := List.replicate 3 itemInit } := rfl
  have hpass : InPass m₀ (List.replicate 4 .next) m' := by
    refine (replay_run hnext).guarded fun e he _ => ?_
    obtain rfl := List.eq_of_mem_replicate he
    rfl
  obtain ⟨ds, hds, horder, hready⟩ :=
    calls_in_order hnew (replay_run hrun) (step_of_advance hselect) hpass
  refine ⟨m, m₀, m', ds, step_of_advance hselect, hpass, hds, ?_, horder, hready⟩
  rwa [hds, hnone, List.append_nil] at hfds

end Order

section Served

/-- The calls of `op` for `fd`. -/
def calls (op : Op) (fd : ℕ) (ds : List Dispatch) : ℕ :=
  ds.countP fun d => d.fd = fd ∧ d.op = op

theorem calls_cons (d : Dispatch) (ds : List Dispatch) :
    calls d.op d.fd (d :: ds) = calls d.op d.fd ds + 1 := by
  unfold calls
  rw [List.countP_cons, if_pos (by simp)]

theorem calls_append (op : Op) (fd : ℕ) (ds ds' : List Dispatch) :
    calls op fd (ds ++ ds') = calls op fd ds + calls op fd ds' := List.countP_append

theorem calls_le_one (h : ds.Pairwise fun d d' => Earlier d' d) : calls op fd ds ≤ 1 := by
  have hfilter := h.filter fun d => d.fd = fd ∧ d.op = op
  unfold calls
  rw [List.countP_eq_length_filter]
  cases hds : ds.filter fun d => d.fd = fd ∧ d.op = op with
  | nil => exact Nat.zero_le 1
  | cons d ds' =>
    cases ds' with
    | nil => exact le_rfl
    | cons d' ds' =>
      have hmem : ∀ x ∈ d :: d' :: ds', x.fd = fd ∧ x.op = op := by
        intro x hx
        rw [← hds] at hx
        exact of_decide_eq_true (List.mem_filter.mp hx).2
      obtain ⟨hfd, hop⟩ := hmem d List.mem_cons_self
      obtain ⟨hfd', hop'⟩ := hmem d' (List.mem_cons_of_mem _ List.mem_cons_self)
      rw [hds] at hfilter
      have hlt := earlier_iff.mp ((List.pairwise_cons.mp hfilter).1 d' List.mem_cons_self)
      rw [hfd, hop, hfd', hop'] at hlt
      exact absurd hlt (lt_irrefl _)

/-- The loop finds the interest it looks for, and calls. -/
theorem iterate_reads (hi : Uses m.sel i item) (hfd : item.fd = i) (hle : i ≤ n)
    (hready : i ∈ m.sel.slaveR) (hwants : item.interest.read = true) :
    iterate m i n [] =
      dispatch m i .read item item.data (.writing i n item.data m.sel.fdSize true) [] := by
  unfold iterate
  rw [if_neg (Nat.not_lt.mpr hle), itemAt_nat hi.1]
  show (if (!item.used) = true then _ else _) = _
  rw [hi.2, Bool.not_true, if_neg Bool.false_ne_true, hfd, Int.toNat_natCast,
    if_pos ⟨hready, hwants⟩]

theorem iterateWrite_writes {data size : ℕ} (hi : Uses m.sel i item) (hsize : m.sel.fdSize = size)
    (hready : i ∈ m.sel.slaveW) (hwants : item.interest.write = true) :
    iterateWrite m i n data size [] =
      dispatch m i .write item data (.iteration (i + 1) n true) [] := by
  unfold iterateWrite
  rw [if_pos hready, if_neg (not_not.mpr hsize), itemAt_nat hi.1]
  show (if _ then _ else _) = _
  rw [if_pos hwants]

/-- The loop has still to come to the call, or it has just been made. -/
def Coming (op : Op) (fd : ℕ) (m m' : Machine) : Prop :=
  Awaits m' op fd ∨ ∃ d, m'.dispatched = d :: m.dispatched ∧ d.fd = fd ∧ d.op = op

theorem awaits_on (hready : fd ∈ slave m.sel op) (hstack : m'.stack = [g])
    (hslave : ∀ op, slave m'.sel op = slave m.sel op) (hpending : Pending g op fd) :
    Awaits m' op fd := by
  refine ⟨(hslave op).symm ▸ hready, g, ?_, hpending⟩
  rw [hstack]
  rfl

theorem coming_iteration {busy : Bool} (hlive : Live m) (hready : fd ∈ slave m.sel op)
    (hstack : m.stack = [.iteration i n busy]) (hpending : i ≤ fd ∧ fd ≤ n)
    (harmed : Armed m op fd) (hcall : next m = .ok (m', status)) : Coming op fd m m' := by
  obtain ⟨item, hi, hwants⟩ := harmed
  by_cases hread : fd = i ∧ op = .read
  · obtain ⟨rfl, rfl⟩ := hread
    have hnext : next m = iterate m fd n [] := by
      unfold next
      rw [hstack]
    rw [hnext, iterate_reads hi (hlive.views.fd_eq fd item hi) hpending.2 hready hwants] at hcall
    rcases dispatch_cases m fd .read item item.data (.writing fd n item.data m.sel.fdSize true)
      with heq | ⟨handler, -, heq⟩ <;> cases heq.symm.trans hcall
    exact Or.inr ⟨_, rfl, rfl, rfl⟩
  · have hlater : i < fd ∨ fd = i ∧ op = .write := by
      rcases Nat.lt_or_eq_of_le hpending.1 with hlt | rfl
      · exact Or.inl hlt
      · cases op with
        | read => exact absurd ⟨rfl, rfl⟩ hread
        | write => exact Or.inr ⟨rfl, rfl⟩
    have hwriting : ∀ data size busy', Pending (.writing i n data size busy') op fd := by
      intro data size busy'
      exact hlater.imp_left fun hlt => ⟨hlt, hpending.2⟩
    rcases (next_iteration hlive hstack).2 with ⟨hend, -⟩ | ⟨-, item', hget, hunused, heq⟩ |
      ⟨-, item', -, ⟨-, -, heq | ⟨handler, -, heq⟩⟩ | heq⟩
    · omega
    · cases heq.symm.trans hcall
      refine Or.inl (awaits_on hready rfl (fun _ => rfl) ⟨?_, hpending.2⟩)
      rcases hlater with hlt | ⟨rfl, -⟩
      · exact hlt
      · rw [Option.some.inj (hget.symm.trans hi.1), hi.2] at hunused
        exact absurd hunused (by simp)
    · cases heq.symm.trans hcall
    · cases heq.symm.trans hcall
      exact Or.inl (awaits_on hready rfl (fun _ => rfl) (hwriting _ _ _))
    · cases heq.symm.trans hcall
      exact Or.inl (awaits_on hready rfl (fun _ => rfl) (hwriting _ _ _))

theorem coming_writing {data size : ℕ} {busy : Bool} (hlive : Live m)
    (hready : fd ∈ slave m.sel op) (hstack : m.stack = [.writing i n data size busy])
    (hpending : i < fd ∧ fd ≤ n ∨ fd = i ∧ op = .write)
    (harmed : Armed m op fd) (hcall : next m = .ok (m', status)) : Coming op fd m m' := by
  obtain ⟨item, hi, hwants⟩ := harmed
  have hcases := (next_writing hlive hstack).2
  rcases hpending with ⟨hlt, hle⟩ | ⟨rfl, rfl⟩
  · rcases hcases with ⟨-, -, heq⟩ | ⟨item', -, -, -, -, heq | ⟨handler, -, heq⟩⟩ | ⟨-, heq⟩ <;>
      cases heq.symm.trans hcall
    · exact Or.inl (awaits_on hready rfl (fun _ => rfl) ⟨hlt, hle⟩)
    · exact Or.inl (awaits_on hready rfl (fun _ => rfl) ⟨hlt, hle⟩)
  · have hsize : m.sel.fdSize = size := by
      rcases hcases with ⟨-, -, heq⟩ | ⟨-, -, hsize, -⟩ | ⟨hsize, -⟩
      · cases heq.symm.trans hcall
      · exact hsize
      · exact hsize hready
    have hnext : next m = iterateWrite m fd n data size [] := by
      unfold next
      rw [hstack]
    rw [hnext, iterateWrite_writes hi hsize hready hwants] at hcall
    rcases dispatch_cases m fd .write item data (.iteration (fd + 1) n true)
      with heq | ⟨handler, -, heq⟩ <;> cases heq.symm.trans hcall
    exact Or.inr ⟨_, rfl, rfl, rfl⟩

theorem coming_step (hlive : Live m) (hawaits : Awaits m op fd) (harmed : Armed m op fd)
    (hduring : during e = true) (hstep : Step m e m') : Coming op fd m m' := by
  obtain ⟨-, status, hcall⟩ := hstep
  obtain ⟨hready, f, hf, hpending⟩ := hawaits
  by_cases hnext : e = .next
  · obtain rfl := hnext
    cases hstack : m.stack with
    | nil =>
      rw [hstack] at hf
      cases hf
    | cons g rest =>
      cases g with
      | closing i size =>
        rcases next_closing hlive hstack with ⟨-, heq⟩ | ⟨-, -, heq⟩ | ⟨item, k, -, -, -, heq⟩ <;>
          cases heq.symm.trans hcall
        refine Or.inl ⟨hready, f, ?_, hpending⟩
        rw [hstack] at hf
        cases rest with
        | nil =>
          obtain rfl := Option.some.inj hf
          exact absurd hpending not_false
        | cons g' rest => rwa [List.getLast?_cons_cons] at hf
      | iteration i n busy =>
        have hrest := hlive.base hstack fun _ _ heq => by cases heq
        rw [hstack, hrest] at hf
        obtain rfl := Option.some.inj hf
        exact coming_iteration hlive hready (hrest ▸ hstack) hpending harmed hcall
      | writing i n data size busy =>
        have hrest := hlive.base hstack fun _ _ heq => by cases heq
        rw [hstack, hrest] at hf
        obtain rfl := Option.some.inj hf
        exact coming_writing hlive hready (hrest ▸ hstack) hpending harmed hcall
      | destroying i =>
        have hrest := hlive.base hstack fun _ _ heq => by cases heq
        rw [hstack, hrest] at hf
        obtain rfl := Option.some.inj hf
        exact absurd hpending not_false
      | notifications jobs busy =>
        have hrest := hlive.base hstack fun _ _ heq => by cases heq
        rw [hstack, hrest] at hf
        obtain rfl := Option.some.inj hf
        exact absurd hpending not_false
  · have hbeside := beside_call hlive hduring hnext hcall
    refine Or.inl ⟨(hbeside.slave op).symm ▸ hready, f, hbeside.keeps_base hf, hpending⟩

/-- What a pass has done about the call of `op` for `fd`, which was ready: it is still
to come, or was made. -/
def Serving (op : Op) (fd : ℕ) (m₀ m : Machine) : Prop :=
  ∃ ds, Pass m₀ m ds ∧ (Awaits m op fd ∨ 0 < calls op fd ds)

theorem serving_step (h : Serving op fd m₀ m) (hduring : during e = true)
    (harmed : Awaits m op fd → Armed m op fd) (hstep : Step m e m') : Serving op fd m₀ m' := by
  obtain ⟨ds, hpass, hserving⟩ := h
  obtain ⟨ds', hpass'⟩ := pass_step hpass hduring hstep
  have hlive := live_of_enabled hpass.sound hstep.1
  refine ⟨ds', hpass', ?_⟩
  have hsame : ∀ xs, m'.dispatched = xs ++ m.dispatched → ds' = xs ++ ds := by
    intro xs hxs
    rw [hpass.dispatched, hpass'.dispatched, ← List.append_assoc] at hxs
    exact List.append_cancel_right hxs
  rcases hserving with hawaits | hserved
  · rcases coming_step hlive hawaits (harmed hawaits) hduring hstep with hcoming |
      ⟨d, hd, rfl, rfl⟩
    · exact Or.inl hcoming
    · right
      rw [hsame [d] hd]
      show 0 < calls d.op d.fd (d :: ds)
      rw [calls_cons]
      exact Nat.succ_pos _
  · right
    rcases (moves_step hlive hpass.past hduring hstep).calls with ⟨heq, -⟩ | ⟨-, -, d, hd, -⟩
    · rw [hsame [] heq]
      exact hserved
    · rw [hsame [d] hd, calls_append]
      omega

/-- Who was found ready for an interest, and has it until the loop has come to him, is
called once for it when selector_select has returned. -/
theorem ready_served {initialElements : ℕ}
    (hnew : selectorNew initialElements alloc = some s) (hrun : Run Step (start s) es m)
    (hselect : Step m (.select (.ready r w)) m₀) (hwanted : Armed m op fd)
    (hfound : fd ∈ found r w op)
    (hpass : Run (Guarded Step fun m e =>
      during e = true ∧ (Awaits m op fd → Armed m op fd)) m₀ es' m')
    (hdone : m'.stack = []) :
    ∃ ds, m'.dispatched = ds ++ m.dispatched ∧ calls op fd ds = 1 := by
  have hsound := sound_run hnew hrun
  have hviews := (live_of_enabled hsound hselect.1).views
  have hready := (mem_slave_select hviews hselect).mpr ⟨hwanted, hfound⟩
  obtain ⟨ds₀, hbegin⟩ := pass_run hsound hselect .nil
  have hawaits : Awaits m₀ op fd := by
    refine ⟨hready, .iteration 0 m.sel.maxFd false, ?_, Nat.zero_le _, ?_⟩
    · obtain ⟨-, status, hcall⟩ := hselect
      cases hcall
      rfl
    · obtain ⟨item, hi, -⟩ := hwanted
      exact hviews.le_maxFd fd item hi
  have hserving : Serving op fd m₀ m' := by
    apply hpass.invariant (I := Serving op fd m₀) ⟨ds₀, hbegin, Or.inl hawaits⟩
    rintro a b e h ⟨⟨hduring, harmed⟩, hstep⟩
    exact serving_step h hduring harmed hstep
  obtain ⟨ds, hds, hserved⟩ := hserving
  have hfirst : m₀.dispatched = m.dispatched := by
    obtain ⟨-, status, hcall⟩ := hselect
    cases hcall
    rfl
  refine ⟨ds, hfirst ▸ hds.dispatched, ?_⟩
  have hone : calls op fd ds ≤ 1 := calls_le_one (hds.order.imp earlier_iff.mpr)
  rcases hserved with ⟨-, f, hf, -⟩ | hserved
  · rw [hdone] at hf
    cases hf
  · omega

/-- The same as a test. -/
def armed (m : Machine) (op : Op) (fd : ℕ) : Bool :=
  (m.sel.fds[fd]?).any fun item => item.used && wants item.interest op

theorem armed_iff : armed m op fd = true ↔ Armed m op fd := by
  unfold armed Armed Uses
  rw [Option.any_eq_true]
  constructor
  · rintro ⟨item, hget, hboth⟩
    obtain ⟨hused, hwants⟩ := Bool.and_eq_true_iff.mp hboth
    exact ⟨item, ⟨hget, hused⟩, hwants⟩
  · rintro ⟨item, ⟨hget, hused⟩, hwants⟩
    exact ⟨item, hget, Bool.and_eq_true_iff.mpr ⟨hused, hwants⟩⟩

/-- The second of two sockets that can be read; the handler of the first one registers a
third, and the table grows. -/
theorem ready_served_second : ∃ m m₀ m' ds,
    Step m (.select (.ready {2, 1} ∅)) m₀ ∧ m.sel.fdSize < m'.sel.fdSize ∧
      InPass m₀ (.next :: .next :: .register 5 (some readHandler) OP_READ 9 true ::
        List.replicate 5 .next) m' ∧
      m'.dispatched = ds ++ m.dispatched ∧ calls .read 2 ds = 1 := by
  obtain ⟨m, hrun, m₀, hselect, harmed, m', hnext, hdone, hgrown⟩ : ∃ m,
      replay (start { selectorZero with fds := List.replicate 3 itemInit })
        [.register 1 (some readHandler) OP_READ 7 true,
          .register 2 (some readHandler) OP_READ 8 true] = some m ∧
      ∃ m₀, advance m (.select (.ready {2, 1} ∅)) = some m₀ ∧ armed m .read 2 = true ∧
      ∃ m', (Event.next :: .next :: .register 5 (some readHandler) OP_READ 9 true ::
          List.replicate 5 .next).foldlM (fun m e =>
          if during e && armed m .read 2 then advance m e else none) m₀ = some m' ∧
        m'.stack = [] ∧ m.sel.fdSize < m'.sel.fdSize :=
      ⟨_, rfl, _, rfl, rfl, _, rfl, rfl, by decide⟩
  have hnew : selectorNew 1 true =
      some { selectorZero with fds := List.replicate 3 itemInit } := rfl
  have hpass := Run.of_foldlM_guarded step_of_advance hnext
  have hserved := ready_served hnew (replay_run hrun) (step_of_advance hselect)
    (armed_iff.mp harmed) (by decide) (hpass.mono ?_) hdone
  · obtain ⟨ds, hds, hone⟩ := hserved
    refine ⟨m, m₀, m', ds, step_of_advance hselect, hgrown, hpass.mono ?_, hds, hone⟩
    rintro a b e ⟨hboth, hstep⟩
    exact ⟨(Bool.and_eq_true_iff.mp hboth).1, hstep⟩
  · rintro a b e ⟨hboth, hstep⟩
    obtain ⟨hduring, harmed⟩ := Bool.and_eq_true_iff.mp hboth
    exact ⟨⟨hduring, fun _ => armed_iff.mp harmed⟩, hstep⟩

end Served

end SocksProxy.SelectorService
