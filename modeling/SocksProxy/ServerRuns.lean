import SocksProxy.ServerWorkers

/-!
Every step of the server keeps the invariant and never faults: what the idle main
thread may begin, what it does next of what it has begun, and what a worker does.
By induction it holds in every state of a run.
-/
namespace SocksProxy.ServerRuns

open Kernel Ledgers ServerState ServerSteps ServerRefs ServerSockets ServerLookups
open ServerEntries ServerPool ServerParts ServerStages ServerClosing ServerDials ServerLoops
open ServerHandlers ServerWorkers Runs
open ConnState (Socks5State FdInterest OP_NOOP OP_READ OP_WRITE)

variable {s t : Server} {b b' : Bottom} {d : Doing} {a fd i n : ℕ} {o o' : Socks5} {k : Answers}
variable {w : DnsWorker} {f : Frame} {fs : List Frame}

/-- The main thread goes on with the call on top of its stack. -/
theorem runFrame_good (h : Ok s d b) (hstack : s.stack = f :: fs) (k : Answers) :
    Good (runFrame { s with stack := fs } k f) := by
  have hframes : f :: fs = d.frames ++ b.frames := hstack.symm.trans h.ground.stack
  cases d with
  | nothing =>
    cases b with
    | idle => exact absurd hframes (by simp [Doing.frames, Bottom.frames])
    | notifications =>
      obtain ⟨rfl, rfl⟩ := List.cons.inj hframes
      exact notifications_good h
    | cleanup =>
      obtain ⟨rfl, rfl⟩ := List.cons.inj hframes
      exact cleanup_good h
    | force =>
      obtain ⟨rfl, rfl⟩ := List.cons.inj hframes
      exact force_good h
    | forceCheck a =>
      obtain ⟨rfl, rfl⟩ := List.cons.inj hframes
      exact forceCheck_good h
    | destroy i =>
      obtain ⟨rfl, rfl⟩ := List.cons.inj hframes
      exact destroy_good h
    | clearDestroy fd data =>
      obtain ⟨rfl, rfl⟩ := List.cons.inj hframes
      exact clearDestroy_good h
    | destroyJobs =>
      obtain ⟨rfl, rfl⟩ := List.cons.inj hframes
      exact destroyJobs_good h
    | ended =>
      obtain ⟨rfl, rfl⟩ := List.cons.inj hframes
      exact good_unreal
    | clearOther fd data =>
      obtain ⟨rfl, rfl⟩ := List.cons.inj hframes
      exact clearOther_good h
    | closeOther fd =>
      obtain ⟨rfl, rfl⟩ := List.cons.inj hframes
      exact closeOther_good h
  | close a =>
    obtain ⟨rfl, rfl⟩ := List.cons.inj hframes
    exact close_good h
  | cancel a =>
    obtain ⟨rfl, rfl⟩ := List.cons.inj hframes
    exact cancel_good h
  | clientClose a =>
    obtain ⟨rfl, rfl⟩ := List.cons.inj hframes
    exact clientClose_good h
  | reenter a fd =>
    obtain ⟨rfl, rfl⟩ := List.cons.inj hframes
    exact reenter_good h
  | clearClient a fd =>
    obtain ⟨rfl, rfl⟩ := List.cons.inj hframes
    exact clear_good (.clientCloseFd a fd) h rfl rfl h.allowed h.allowed rfl rfl
      fun _ _ hstage => hstage
  | clientCloseFd a fd =>
    obtain ⟨rfl, rfl⟩ := List.cons.inj hframes
    exact clientCloseFd_good h
  | originClose a =>
    obtain ⟨rfl, rfl⟩ := List.cons.inj hframes
    exact originClose_good h
  | clearOrigin a fd =>
    obtain ⟨rfl, rfl⟩ := List.cons.inj hframes
    exact clear_good (.originCloseFd a) h rfl rfl h.allowed h.allowed rfl rfl
      fun _ _ hstage => hstage
  | originCloseFd a =>
    obtain ⟨rfl, rfl⟩ := List.cons.inj hframes
    exact originCloseFd_good h
  | release a =>
    obtain ⟨rfl, rfl⟩ := List.cons.inj hframes
    exact release_good h
  | resolveStart a =>
    obtain ⟨rfl, rfl⟩ := List.cons.inj hframes
    exact resolveStart_good h
  | resolveSpawn a =>
    obtain ⟨rfl, rfl⟩ := List.cons.inj hframes
    exact resolveSpawn_good h
  | resolveFailed a e =>
    obtain ⟨rfl, rfl⟩ := List.cons.inj hframes
    exact resolveFailed_good h
  | clearDrop a fd =>
    obtain ⟨rfl, rfl⟩ := List.cons.inj hframes
    exact clear_good (.originDrop a) h rfl rfl h.allowed
      (Bottom.closes_of_serves h.allowed) rfl rfl fun _ _ hstage => hstage
  | originDrop a =>
    obtain ⟨rfl, rfl⟩ := List.cons.inj hframes
    exact originDrop_good h

theorem idle_of_empty (h : Ok s d b) (hstack : s.stack = []) : Ok s .nothing .idle := by
  have hframes : d.frames ++ b.frames = [] := h.ground.stack.symm.trans hstack
  rw [List.append_eq_nil_iff] at hframes
  have hd : d = .nothing := by
    cases d <;> first | rfl | exact absurd hframes.1 (by simp [Doing.frames])
  have hb : b = .idle := by
    cases b <;> first | rfl | exact absurd hframes.2 (by simp [Bottom.frames])
  rw [hd, hb] at h
  exact h

/-- No step faults, and after each the main thread is in the middle of some work. -/
theorem step_good (h : Ok s d b) (e : Event) : Good (step s e) := by
  have hidle : ∀ e, Good (if s.stack = [] then begins s e else .error .unreal) := by
    intro e
    split
    next hstack => exact begins_good (idle_of_empty h hstack) e
    next => exact good_unreal
  cases e with
  | run k =>
    rw [step]
    split
    next => exact good_unreal
    next f fs hstack => exact runFrame_good h hstack k
  | worker i k =>
    rw [step]
    split
    next => exact good_unreal
    next w hi => exact dnsWorker_good h hi k
  | _ => exact hidle _

theorem init_ok : Ok serverInit .nothing .idle := by
  have hparts : Parts none serverInit [] [] [] := by
    refine ⟨?_, ?_, ?_, ?_, ?_, ?_, ?_⟩
    · exact
        { references_eq := by simp [serverInit]
          references_pos := by simp [serverInit]
          borrowed_live := by simp
          worker_live := by simp [serverInit]
          job_live := by simp
          serial_inj := by simp [serverInit]
          states_balanced := Ledger.balanced_empty (by simp [serverInit])
          owners_balanced := Ledger.balanced_empty (by simp [serverInit])
          states_below := by simp [serverInit, Ledger.Below, Ledger.empty]
          owners_below := by simp [serverInit, Ledger.Below, Ledger.empty] }
    · exact
        { stored_open := by simp [serverInit]
          open_stored := by simp [serverInit]
          loose_open := by simp
          loose_free := by simp
          held := Ledger.held_empty (fun _ => rfl)
          below := by simp [serverInit, Ledger.Below, Ledger.empty] }
    · refine ⟨Ledger.held_empty ?_, by simp [serverInit, Ledger.Below, Ledger.empty]⟩
      rintro (c | i) <;> simp [resultOf, serverInit]
    · exact
        { flying_le := by simp [serverInit]
          unresolved := by simp [serverInit]
          uncancelled := by simp [serverInit]
          job_fd := by simp
          worker_fd := by simp [serverInit]
          handed := by simp [serverInit]
          numbered := by simp [serverInit]
          job_worker := by simp
          pending_nodup := by simp
          done_once := by simp [serverInit]
          done_nodup := by simp [serverInit] }
    · refine ⟨by simp [serverInit], by simp [serverInit], by simp [serverInit],
        by simp [serverInit], Ledger.held_empty ?_,
        by simp [serverInit, Ledger.Below, Ledger.empty]⟩
      intro fd
      simp [registrationOf, serverInit]
    · refine ⟨List.nodup_nil, by simp [serverInit], rfl, rfl, rfl, rfl, rfl⟩
    · simp [serverInit]
  refine ⟨⟨hparts, rfl, List.nodup_nil, by simp [serverInit], trivial⟩, trivial, ?_⟩
  rintro c ⟨⟩

/-- The states of the server that some order of events leads to. -/
def Reachable (s : Server) : Prop := ∃ es, Run Step serverInit es s

/-- The invariant holds, whatever the main thread is in the middle of. -/
def Sound (s : Server) : Prop := ∃ d b, Ok s d b

theorem Sound.step {e : Event} (h : Sound s) (hstep : Step s e t) : Sound t := by
  obtain ⟨d, b, hok⟩ := h
  have hgood := step_good hok e
  rw [show ServerSteps.step s e = .ok t from hstep] at hgood
  exact hgood

/-- A step that is not taken is not the kernel's to take, or ends the process. -/
theorem Sound.no_fault (h : Sound s) (e : Event) : ServerSteps.step s e ≠ .error .fault := by
  obtain ⟨d, b, hok⟩ := h
  have hgood := step_good hok e
  intro hfault
  rw [hfault] at hgood
  exact hgood rfl

theorem reachable_ok (h : Reachable s) : ∃ d b, Ok s d b := by
  obtain ⟨es, hrun⟩ := h
  exact hrun.invariant (I := Sound) ⟨_, _, init_ok⟩ Sound.step

theorem reachable_step {e : Event} (h : Reachable s) (hstep : Step s e t) : Reachable t := by
  obtain ⟨es, hrun⟩ := h
  exact ⟨_, .snoc hrun hstep⟩

theorem reachable_no_fault (h : Reachable s) (e : Event) : step s e ≠ .error .fault :=
  Sound.no_fault (reachable_ok h) e

end SocksProxy.ServerRuns
