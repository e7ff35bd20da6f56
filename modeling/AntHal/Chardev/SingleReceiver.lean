import AntHal.Concurrency.Registration
import AntHal.Chardev.RecordedThread
import AntHal.Chardev.LockOrder

/-!
There is one receiver at most.

Every receive thread that has not come to its end is the recorded one, or it is
the holder of the state lock that has just forgotten itself, or it has left its
loop and will not touch the record again. So a thread in its poll loop is the
recorded one; and since the channels are opened and closed only while the recorded
thread is known not to run, the descriptors stay as they are under a poll loop.
-/

namespace AntHal

open Concurrency

/-- The labels behind the poll loop. -/
def Label.hasLeft : Label → Bool
  | .rxClose | .doReset => true
  | _ => false

/-- The receive thread `n` is on its way to the poll loop, or in it. -/
def receiving (c : ThreadConfig) (n : Nat) : Bool :=
  (c.pool (.rx n)).any fun th => !th.terminated && (th.label = .rxStart || th.label = .rxLoop)

theorem receiving_iff {c : ThreadConfig} {n : Nat} : receiving c n = true ↔
    ∃ th, c.pool (.rx n) = some th ∧ th.terminated = false ∧
      (th.label = .rxStart ∨ th.label = .rxLoop) := by
  simp [receiving, Option.any_eq_true]

/-- No thread, or the recorded one. -/
def Shared.recorded (s : Shared) : Option Tid :=
  if s.stRxThread = 0 then none else some (.rx s.stRxThread)

theorem recorded_eq_none {s : Shared} : s.recorded = none ↔ s.stRxThread = 0 := by
  simp [Shared.recorded]

theorem recorded_eq_some {s : Shared} {u : Tid} :
    s.recorded = some u ↔ s.stRxThread ≠ 0 ∧ u = .rx s.stRxThread := by
  simp [Shared.recorded, eq_comm]

/-- The record of the receive threads, and how they leave it. -/
def rxRegistry (b : Build) : Registry (machine b) where
  owner := Shared.stEnabledStatusLock
  recorded := Shared.recorded
  member t := t.isApp = false
  clears o := o = .clearRxThread
  creates o := o = .pthreadCreate
  unlocks o := o = .mutexUnlock
  within l := l = .rxStart ∨ l = .rxLoop
  left l := l.hasLeft = true
  apart h h' := by rcases h' with rfl | rfl <;> cases h
  entry h := by
    intro happ
    rename_i t l
    cases t with
    | app n => cases happ
    | rx n => cases l <;> cases h
  spawn := by
    intro t env o s u l hspawn
    cases o <;> simp only [machine, spawned, reduceCtorEq] at hspawn
    split at hspawn
    · rename_i hret
      cases hspawn
      refine recorded_eq_some.mpr ⟨?_, rfl⟩
      simp only [machine, effect] at hret ⊢
      split
      · exact Nat.succ_ne_zero _
      · rename_i herr
        rw [if_neg herr] at hret
        exact absurd (Int.natCast_eq_zero.mp hret) herr
    · cases hspawn

section programs
variable {b : Build}

/-- The rest of the program does not clear the recorded thread. -/
abbrev LeavesRecord {α : Type} (p : Cmd α) : Prop := p.Only (· ≠ .clearRxThread) fun _ => True

abbrev ForgetsOnce (b : Build) : Label → (o : Op) → (o.Res → Cmd (Option Label)) → Prop :=
  (rxRegistry b).ForgetsOnce

theorem forgetsOnce_of_ne {l : Label} {o : Op} {k : o.Res → Cmd (Option Label)}
    (hcreate : o ≠ .pthreadCreate) (hunlock : o ≠ .mutexUnlock) (hl : l.hasLeft = true) :
    ForgetsOnce b l o k where
  behind _ ho := by
    rcases ho with rfl | rfl
    · exact absurd rfl hcreate
    · exact absurd rfl hunlock
  within h := absurd h ((rxRegistry b).apart hl)

/-- The last part of a block behind the loop. -/
theorem forgetsOnce_of_leaves {l : Label} {p : Cmd (Option Label)} (h : LeavesRecord p)
    (hl : l.hasLeft = true) : p.Always (ForgetsOnce b l) :=
  h.always_rest.mono fun _ _ hk => ⟨fun _ _ => hk.2, fun h => absurd h ((rxRegistry b).apart hl)⟩

theorem section_leaves {α : Type} {p : Cmd α} (h : p.Only (observeOp · = true) fun _ => True) :
    LeavesRecord p :=
  h.mono (fun o ho => by rintro rfl; cases ho) fun _ h => h

theorem antEnable_leaves : LeavesRecord (antEnable b) :=
  antEnable_works.mono (fun o ho => by rintro rfl; cases ho) fun _ h => h

/-- A part of a block that creates no thread and keeps the lock. -/
theorem forgetsOnce_bind {α : Type} {l : Label} {p : Cmd α} {P : Op → Prop}
    {f : α → Cmd (Option Label)} (h : p.Only P fun _ => True)
    (hP : ∀ o, P o → o ≠ .pthreadCreate ∧ o ≠ .mutexUnlock) (hl : l.hasLeft = true)
    (hf : ∀ a, (f a).Always (ForgetsOnce b l)) : (p >>= f).Always (ForgetsOnce b l) :=
  h.always_bind (fun o _ ho => forgetsOnce_of_ne (hP o ho).1 (hP o ho).2 hl) fun a _ => hf a

theorem disable_ne {o : Op} (h : disableOp o = true) : o ≠ .pthreadCreate ∧ o ≠ .mutexUnlock := by
  refine ⟨?_, ?_⟩ <;> rintro rfl <;> cases h

theorem observe_ne {o : Op} (h : observeOp o = true) : o ≠ .pthreadCreate ∧ o ≠ .mutexUnlock := by
  refine ⟨?_, ?_⟩ <;> rintro rfl <;> cases h

theorem rxClose_forgetsOnce : (body b .rxClose).Always (ForgetsOnce b .rxClose) := by
  have hend : LeavesRecord
      (funcEnd .fnRxThread .void >>= fun _ => (.ret none : Cmd (Option Label))) := by
    simp
  simp only [body, rxClose, crashCleanUp, Prog.op_bind, Prog.ret_bind, Prog.pure_eq]
  refine ⟨forgetsOnce_of_ne (by simp) (by simp) rfl, fun lock => ?_⟩
  dsimp only
  split
  · simp only [Prog.op_bind, Prog.bind_assoc, Prog.ret_bind]
    refine ⟨forgetsOnce_of_ne (by simp) (by simp) rfl, fun _ => ?_⟩
    refine forgetsOnce_bind (report_observes _) (fun _ => observe_ne) rfl fun _ => ?_
    refine forgetsOnce_bind antDisable_works (fun _ => disable_ne) rfl fun _ => ?_
    refine forgetsOnce_of_leaves ?_ rfl
    exact (section_leaves (reportStatus_observes antRadioEnabledStatus_observes)).bind fun _ _ => by
      simp
  · exact forgetsOnce_of_leaves hend rfl

theorem doReset_forgetsOnce : (body b .doReset).Always (ForgetsOnce b .doReset) := by
  simp only [body, doReset, doResetLocked, Prog.op_bind, Prog.ret_bind, Prog.pure_eq,
    Prog.bind_assoc]
  refine ⟨forgetsOnce_of_ne (by simp) (by simp) rfl, fun _ =>
    ⟨forgetsOnce_of_ne (by simp) (by simp) rfl, fun _ => ?_⟩⟩
  refine forgetsOnce_bind (report_observes _) (fun _ => observe_ne) rfl fun _ => ?_
  refine ⟨forgetsOnce_of_ne (by simp) (by simp) rfl, fun _ =>
    ⟨forgetsOnce_of_ne (by simp) (by simp) rfl, fun lock => ?_⟩⟩
  dsimp only
  split
  · refine ⟨forgetsOnce_of_ne (by simp) (by simp) rfl, fun _ => forgetsOnce_of_leaves ?_ rfl⟩
    simp [Prog.bind]
  · simp only [Prog.op_bind, Prog.bind_assoc, Prog.ret_bind]
    refine ⟨forgetsOnce_of_ne (by simp) (by simp) rfl, fun _ => ?_⟩
    refine forgetsOnce_bind antDisable_works (fun _ => disable_ne) rfl fun _ => ?_
    refine forgetsOnce_of_leaves (antEnable_leaves.bind fun ret _ => ?_) rfl
    refine (Prog.only_op _ _).mpr ⟨by simp, fun _ => ?_⟩
    exact (section_leaves (report_observes _)).bind fun _ _ => by simp

theorem body_forgetsOnce (l : Label) : ((machine b).body l).Always (ForgetsOnce b l) := by
  cases l with
  | enableRadio | disableRadio | hardReset =>
      refine Prog.always_of_forall fun o k => ⟨nofun, fun h => ?_⟩
      rcases h with h | h <;> cases h
  | rxStart =>
      exact rxStart_loops.always fun o k ho => ⟨nofun, fun _ => by rintro rfl; cases ho⟩
  | rxLoop =>
      exact rxLoop_loops.always fun o k ho => ⟨nofun, fun _ => by rintro rfl; cases ho⟩
  | rxClose => exact rxClose_forgetsOnce
  | doReset => exact doReset_forgetsOnce

theorem body_endsIfLeft (l : Label) :
    ((machine b).body l).Returns ((rxRegistry b).EndsIfLeft l) := by
  cases l with
  | enableRadio | disableRadio | hardReset | rxStart | rxLoop =>
      exact (Prog.returns_true _).mono fun _ _ h => nomatch h
  | rxClose => exact rxClose_calls.returns.mono fun _ ha _ => ha
  | doReset => exact Prog.returns_bind _ fun _ _ _ => rfl

end programs

section joins
variable {b : Build} {stateCallback rxCallback : Bool} {c d : ThreadConfig}

theorem joined_effect {t : Tid} {env : Env} {o : Op} {s : Shared} {n : Nat}
    (h : .joined n ∈ (effect b t env o s).2.events) :
      .joined n ∈ s.events ∨ o = .pthreadJoin n := by
  have hlog {e : Event} (he : .joined n ∈ (s.log e).events) (hne : ∀ m, e ≠ .joined m) :
      .joined n ∈ s.events ∨ o = .pthreadJoin n := by
    rcases List.mem_append.mp he with hold | hnew
    · exact .inl hold
    · exact absurd (List.mem_singleton.mp hnew).symm (hne n)
  cases o with
  | pthreadJoin m =>
      rcases List.mem_append.mp h with hold | hnew
      · exact .inl hold
      · cases List.mem_singleton.mp hnew
        exact .inr rfl
  | openDevice | eventfdWrite | pthreadCreate | keepAliveCreate =>
      simp only [effect] at h
      split at h
      · exact hlog h (by simp)
      · exact .inl h
  | mutexTrylock =>
      simp only [effect] at h
      split at h <;> exact .inl h
  | funcStart | funcEnd | stateCallback | closeDevice | vendorInit | powerCtrl | vendorCleanup |
    pthreadDetach | readChannelMsg => exact hlog h (by simp)
  | _ => exact .inl h

/-- A thread that has been joined has terminated, and stays so. -/
theorem joined_terminated
    (hreach : (machine b).Reachable (initConfig stateCallback rxCallback) c) {n : Nat}
    (hjoined : .joined n ∈ c.shared.events) :
    ∃ th, c.pool (.rx n) = some th ∧ th.terminated = true := by
  refine hreach.invariant (I := fun c => ∀ n, .joined n ∈ c.shared.events →
    ∃ th, c.pool (.rx n) = some th ∧ th.terminated = true) ?_ (fun _ h => nomatch h) n hjoined
  intro c mv d hI _ hs n hjoined
  cases mv with
  | start t l =>
      obtain ⟨hshared, hrx⟩ := start_rx hs
      rw [hshared] at hjoined
      rw [hrx]
      exact hI n hjoined
  | act t env =>
      obtain ⟨l, o, k, ha⟩ := Machine.step_act hs
      have hshared : d.shared = (effect b t env o c.shared).2 := ha.shared
      rw [hshared] at hjoined
      have hended : ∃ th, c.pool (.rx n) = some th ∧ th.terminated = true := by
        rcases joined_effect hjoined with hold | rfl
        · exact hI n hold
        · have hready : isReady c.pool (.pthreadJoin n) c.shared = true := ha.ready
          exact Option.any_eq_true _ _ |>.mp hready
      obtain ⟨th, hth, hend⟩ := hended
      refine ⟨th, ha.kept ?_ hth, hend⟩
      rintro rfl
      rw [ha.thread] at hth
      cases hth
      cases hend

end joins

section step
variable {b : Build} {c d : ThreadConfig} {t : Tid} {env : Env} {l : Label} {o : Op}
  {k : o.Res → Cmd (Option Label)} {stateCallback rxCallback : Bool}

/-- The record, the lock and the channels are worked on inside the lock, and as
its monitor asks for. -/
theorem inside_record (hholds : (recordLock b).Holds c) (hth : c.pool t = some ⟨l, .op o k⟩)
    (ho : o = .clearRxThread ∨ o = .pthreadCreate ∨ workOp o = true) :
    c.shared.stEnabledStatusLock = some t ∧ RecordCheck t o c.shared.record := by
  have hact : lockAct o = .plain := by
    rcases ho with rfl | rfl | ho
    · rfl
    · rfl
    · cases o <;> first | rfl | cases ho
  -- An answer that would change the record while another thread holds the lock.
  rcases ho with rfl | rfl | ho
  · exact hholds.inside hth hact ⟨1, fun _ => 0, false⟩ ⟨0, fun _ => 0, false⟩ ()
      (fun _ => ⟨rfl, rfl⟩) (by simp [recordLock])
  · exact hholds.inside hth hact ⟨0, fun _ => 0, false⟩ ⟨1, fun _ => 0, false⟩ 0
      (fun _ => .inl ⟨rfl, by decide, rfl⟩) (by simp [recordLock])
  · exact hholds.inside hth hact ⟨1, fun _ => 0, false⟩ ⟨0, fun _ => 0, false⟩
      (effect b t {} o c.shared).1 (fun h => absurd (h ho) (by decide)) (by simp [recordLock])

/-- What a step does to the recorded thread and to the lock. -/
theorem recordStep (hreach : (machine b).Reachable (initConfig stateCallback rxCallback) c)
    (hholds : (recordLock b).Holds c) (ha : (machine b).Acts t env c d l o k)
    (hallow : signalWritten env o = true) : (rxRegistry b).Step t o c d := by
  have hshared : d.shared = (effect b t env o c.shared).2 := ha.shared
  have hkept (hclear : o ≠ .clearRxThread) (hcreate : o ≠ .pthreadCreate) :
      d.shared.recorded = c.shared.recorded := by
    rw [hshared]
    cases o with
    | clearRxThread => exact absurd rfl hclear
    | pthreadCreate => exact absurd rfl hcreate
    | mutexTrylock | openDevice | eventfdWrite | keepAliveCreate =>
        simp only [effect]
        split <;> rfl
    | _ => rfl
  by_cases hclear : o = .clearRxThread
  · subst hclear
    obtain ⟨howner, hcheck⟩ := inside_record hholds ha.thread (.inl rfl)
    refine .cleared rfl (recorded_eq_none.mpr (by rw [hshared]; rfl)) howner
      (by rw [hshared]; rfl) ?_
    intro hmember u th hu hth
    obtain ⟨hne, rfl⟩ := recorded_eq_some.mp hu
    rcases hcheck.clear rfl (Bool.not_eq_false _ ▸ hmember) with hzero | hjoined
    · exact absurd hzero hne
    · obtain ⟨th', hth', hend⟩ := joined_terminated hreach (of_decide_eq_true hjoined)
      cases hth.symm.trans hth'
      exact hend
  by_cases hcreate : o = .pthreadCreate
  · subst hcreate
    obtain ⟨howner, hcheck⟩ := inside_record hholds ha.thread (.inr (.inl rfl))
    exact .created rfl (recorded_eq_none.mpr (hcheck.create rfl)) howner
  rcases Monitor.lockStep hholds ha hallow with ⟨-, hsame, -⟩ | ⟨-, -, hfree, -, -⟩ |
    ⟨-, -, -, hsame, -⟩ | ⟨hact, howner, -, -⟩
  · exact .kept (hkept hclear hcreate) fun u hu => hsame.trans hu
  · refine .kept (hkept hclear hcreate) fun u hu => ?_
    cases hfree.symm.trans hu
  · exact .kept (hkept hclear hcreate) fun u hu => hsame.trans hu
  · refine .unlocked ?_ (hkept hclear hcreate) howner
    cases o <;> first | rfl | cases hact

end step

section runs
variable {b : Build} {stateCallback rxCallback : Bool} {c d : ThreadConfig} {n : Nat}

theorem rxRoles
    (h : (machine b).Path (signalGetsThrough · · = true) (initConfig stateCallback rxCallback) c) :
    (rxRegistry b).Roles c := by
  intro t th hmember hth
  have hrole := (recordLock_holds h).roles t th hth
  cases t with
  | app n => cases hmember
  | rx n =>
      obtain ⟨l, code⟩ := th
      cases l with
      | rxStart => exact .inl (.inl rfl)
      | rxLoop => exact .inl (.inr rfl)
      | rxClose | doReset => exact .inr rfl
      | enableRadio | disableRadio | hardReset => exact hrole.elim

/-- In every run in which the shutdown signals get through, every receive thread
is recorded, or has left its loop. -/
theorem allStand
    (h : (machine b).Path (signalGetsThrough · · = true) (initConfig stateCallback rxCallback) c) :
    (rxRegistry b).AllStand c := by
  refine Registry.allStand_path body_forgetsOnce body_endsIfLeft (fun _ => rxRoles)
    ?_ (fun _ => rfl) h
  intro x y t env l o k hx hC ha
  exact recordStep hx.reachable (recordLock_holds hx) ha
    (recordLock_allowed (b := b) hC o (by rw [ha.thread]; rfl))

theorem recorded_of_receiving
    (h : (machine b).Path (signalGetsThrough · · = true) (initConfig stateCallback rxCallback) c)
    (hrx : receiving c n = true) : n ≠ 0 ∧ c.shared.stRxThread = n := by
  obtain ⟨th, hth, hlive, hlabel⟩ := receiving_iff.mp hrx
  have hmember : (rxRegistry b).member (.rx n) := rfl
  obtain ⟨hne, heq⟩ := recorded_eq_some.mp ((allStand h).recorded hmember hth hlive hlabel)
  cases heq
  exact ⟨hne, rfl⟩

/-- A receive thread that is on its way to the poll loop, or in it, is the recorded
one: there is never a second receiver. -/
theorem single_receiver
    (h : (machine b).Path (signalGetsThrough · · = true) (initConfig stateCallback rxCallback) c) :
    ∀ n, receiving c n = true → n ≠ 0 ∧ c.shared.stRxThread = n :=
  fun _ => recorded_of_receiving h

/-- While a receive thread is in its loop, the recorded thread may be running. -/
theorem not_idle_of_receiving
    (h : (machine b).Path (signalGetsThrough · · = true) (initConfig stateCallback rxCallback) c)
    (hrx : receiving c n = true) : ¬ c.shared.record.Idle := by
  obtain ⟨hn, hthread⟩ := recorded_of_receiving h hrx
  rintro (hzero | hjoined)
  · exact hn (hthread.symm.trans hzero)
  · obtain ⟨th, hth, hend⟩ := joined_terminated h.reachable (of_decide_eq_true hjoined)
    obtain ⟨th', hth', hlive, -⟩ := receiving_iff.mp hrx
    rw [hthread, hth'] at hth
    cases hth
    cases hlive.symm.trans hend

theorem iFd_effect {t : Tid} {env : Env} {o : Op} {s : Shared} (ho : workOp o = false) :
    (effect b t env o s).2.iFd = s.iFd := by
  cases o with
  | setFd => cases ho
  | readChannelMsg ch => exact readChannelMsg_iFd ch s
  | mutexTrylock | openDevice | eventfdWrite | pthreadCreate | keepAliveCreate =>
      simp only [effect]
      split <;> rfl
  | _ => rfl

/-- The channels stay as they are under a receive thread that polls them: nobody is
about to open or close one, and no step changes a descriptor. -/
theorem channels_stable
    (h : (machine b).Path (signalGetsThrough · · = true) (initConfig stateCallback rxCallback) c)
    (hrx : receiving c n = true) :
    (∀ t o, (c.pool t).bind Thread.head? = some o → workOp o = false) ∧
      ∀ mv d, (machine b).step mv c = some d → d.shared.iFd = c.shared.iFd := by
  have hnone : ∀ t o, (c.pool t).bind Thread.head? = some o → workOp o = false := by
    intro t o ho
    obtain ⟨th, hth, hhead⟩ := Option.bind_eq_some_iff.mp ho
    obtain ⟨k, hk⟩ := Thread.code_of_head hhead
    by_contra hwork
    rw [Bool.not_eq_false] at hwork
    have hcheck := (inside_record (recordLock_holds h) (l := th.label) (k := k)
      (by rw [hth, ← hk]) (.inr (.inr hwork))).2
    exact not_idle_of_receiving h hrx (hcheck.work hwork)
  refine ⟨hnone, fun mv d hs => ?_⟩
  cases mv with
  | start t l => rw [(start_rx hs).1]
  | act t env =>
      obtain ⟨l, o, k, ha⟩ := Machine.step_act hs
      rw [ha.shared]
      exact iFd_effect (hnone t o (by rw [ha.thread]; rfl))

/-- An enable, a disable that ends the receive thread, and another enable. -/
def enabledAgain : List (Move Label Tid Env) :=
  enablingDisabling ++ .start (.app 2) .enableRadio ::
    List.replicate 29 (.act (.app 2) { handle := 1 })

set_option maxRecDepth 2000 in
theorem receiving_again : ∃ c : ThreadConfig,
    receiving c 2 = true ∧ 2 ≠ 0 ∧ c.shared.stRxThread = 2 := by
  obtain ⟨c, hpath, hc⟩ := Machine.exec_any (machine .smd) signalGetsThrough enabledAgain
    (initConfig true true) (fun c => receiving c 2) (by decide)
  exact ⟨c, hc, single_receiver hpath 2 hc⟩

set_option maxRecDepth 2000 in
/-- Under the second receive thread no channel is touched. -/
theorem channels_stable_again : ∃ c : ThreadConfig, receiving c 2 = true ∧
    (∀ t o, (c.pool t).bind Thread.head? = some o → workOp o = false) ∧
      ∀ mv d, (machine .smd).step mv c = some d → d.shared.iFd = c.shared.iFd := by
  obtain ⟨c, hpath, hc⟩ := Machine.exec_any (machine .smd) signalGetsThrough enabledAgain
    (initConfig true true) (fun c => receiving c 2) (by decide)
  exact ⟨c, hc, channels_stable hpath hc⟩

end runs
end AntHal
