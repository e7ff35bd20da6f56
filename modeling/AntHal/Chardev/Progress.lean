import AntHal.Concurrency.Waiting
import AntHal.Chardev.LockOrder
import AntHal.Chardev.Operations

/-!
Who can hang in the character-device back ends?

A thread waits for the holder of the state lock, or for the end of the receive
thread that it joins. The join in `ant_disable` against the lock in `doReset` is
the only cycle: a thread hangs exactly if it waits, directly or behind others, for
the two threads of such a deadlock. Every other live thread can move, or waits
for one that can.
-/

namespace AntHal

open Concurrency

/-- `t` waits for `u`: for the lock that it holds, or for its end. -/
def waitsFor (c : ThreadConfig) (t u : Tid) : Prop :=
  ∃ o, (c.pool t).bind Thread.head? = some o ∧
    (o = .mutexLock ∧ c.shared.stEnabledStatusLock = some u ∨ ∃ h, o = .pthreadJoin h ∧ u = .rx h)

/-- No answer of the environment lets the thread go on, and nobody it waits for. -/
abbrev HangsAt (b : Build) (c : ThreadConfig) (t : Tid) : Prop :=
  (machine b).Hangs (fun _ => True) waitsFor c t

section blocking
variable {b : Build} {c d : ThreadConfig} {t u : Tid} {l : Label} {o : Op}
  {k : o.Res → Cmd (Option Label)}

theorem waitsFor_functional {w : Tid} (h : waitsFor c t u) (h' : waitsFor c t w) : u = w := by
  obtain ⟨o, ho, hu⟩ := h
  obtain ⟨o', ho', hw⟩ := h'
  obtain rfl := Option.some.inj (ho.symm.trans ho')
  rcases hu with ⟨rfl, hu⟩ | ⟨h, rfl, rfl⟩
  · rcases hw with ⟨-, hw⟩ | ⟨h, hne, -⟩
    · exact Option.some.inj (hu.symm.trans hw)
    · cases hne
  · rcases hw with ⟨hne, -⟩ | ⟨h', heq, rfl⟩
    · cases hne
    · cases heq
      rfl

/-- Without success pthread_create starts nothing. -/
theorem canMove_of_isReady (hth : c.pool t = some ⟨l, .op o k⟩)
    (hready : isReady c.pool o c.shared = true) :
    (machine b).CanMove (fun _ => True) c t := by
  refine Machine.canMove_of_ready { pthreadCreate := 1 } hth trivial hready ?_
  intro u lu hspawn
  cases o <;> simp [machine, spawned, effect] at hspawn

/-- A lock that is held and a join of a live thread are waited for. -/
theorem not_canMove_of_waitsFor (h : waitsFor c t u) (hu : Machine.Live c u) :
    ¬ (machine b).CanMove (fun _ => True) c t := by
  rintro ⟨env, d, -, hs⟩
  obtain ⟨l, o, k, ha⟩ := Machine.step_act hs
  obtain ⟨o', ho', hwait⟩ := h
  rw [ha.thread] at ho'
  obtain rfl : o = o' := Option.some.inj ho'
  have hready : isReady c.pool o c.shared = true := ha.ready
  rcases hwait with ⟨rfl, howner⟩ | ⟨h, rfl, rfl⟩
  · simp [isReady, howner] at hready
  · obtain ⟨th, hth, hlive⟩ := hu
    simp [isReady, hth, hlive] at hready

/-- What is not ready is a lock that is held, or a join. -/
theorem blocked_cases (hth : c.pool t = some ⟨l, .op o k⟩)
    (hstuck : ¬ (machine b).CanMove (fun _ => True) c t) :
    (o = .mutexLock ∧ ∃ u, c.shared.stEnabledStatusLock = some u) ∨
      ∃ h, o = .pthreadJoin h ∧ (c.pool (.rx h)).any Thread.terminated = false := by
  have hready := mt (canMove_of_isReady (b := b) hth) hstuck
  cases o with
  | mutexLock =>
      simp only [isReady, Option.isNone_iff_eq_none] at hready
      exact .inl ⟨rfl, Option.ne_none_iff_exists'.mp hready⟩
  | pthreadJoin h => exact .inr ⟨h, rfl, by simpa [isReady] using hready⟩
  | _ => exact absurd rfl hready

end blocking

section holders
variable {b : Build} {stateCallback rxCallback : Bool} {c d : ThreadConfig} {t : Tid}

/-- The recorded thread was created. -/
theorem recorded_isSome
    (hreach : (machine b).Reachable (initConfig stateCallback rxCallback) c)
    (hthread : c.shared.stRxThread ≠ 0) : (c.pool (.rx c.shared.stRxThread)).isSome := by
  refine hreach.invariant (I := fun c => c.shared.stRxThread ≠ 0 →
    (c.pool (.rx c.shared.stRxThread)).isSome) ?_ (fun h => absurd rfl h) hthread
  intro c mv d hI _ hs hthread
  cases mv with
  | start t l =>
      obtain ⟨hshared, hrx⟩ := start_rx hs
      rw [hshared, hrx]
      exact hI (hshared ▸ hthread)
  | act t env =>
      obtain ⟨l, o, k, ha⟩ := Machine.step_act hs
      have hshared : d.shared = (effect b t env o c.shared).2 := ha.shared
      rw [hshared] at hthread ⊢
      rcases stRxThread_effect b t env o c.shared with hsame | hzero | hnew
      · rw [hsame] at hthread ⊢
        exact ha.exists _ (hI hthread)
      · exact absurd hzero hthread
      · rw [(ha.created _ _ (by rw [hshared]; exact hnew)).2]
        rfl

/-- Only `doReset` takes the lock on the receive thread. -/
theorem rx_mutexLock
    (hreach : (machine b).Reachable (initConfig stateCallback rxCallback) c) {h : Nat} {l : Label}
    {k : Int → Cmd (Option Label)} (hth : c.pool (.rx h) = some ⟨l, .op .mutexLock k⟩) :
    l = .doReset := by
  have hbody (l : Label) : ((machine b).body l).Always fun o _ =>
      o = .mutexLock → l ≠ .rxStart ∧ l ≠ .rxLoop ∧ l ≠ .rxClose := by
    cases l with
    | rxStart => exact rxStart_loops.always fun o _ ho hlock => by subst hlock; cases ho
    | rxLoop => exact rxLoop_loops.always fun o _ ho hlock => by subst hlock; cases ho
    | rxClose => exact rxClose_calls.always fun o _ ho hlock => absurd hlock ho.2
    | enableRadio | disableRadio | hardReset | doReset =>
        exact Prog.always_of_forall fun _ _ _ => by simp
  have hpool : Machine.PoolAlways (fun l o _ =>
      o = .mutexLock → l ≠ .rxStart ∧ l ≠ .rxLoop ∧ l ≠ .rxClose) c :=
    hreach.invariant (fun _ _ _ hx _ hs => Machine.poolAlways_step hbody hx hs)
      fun t th hth => nomatch hth
  have hnot := (hpool _ _ hth).1 rfl
  have hrole := (stateLock_holds hreach).roles _ _ hth
  cases l with
  | doReset => rfl
  | rxStart => exact absurd rfl hnot.1
  | rxLoop => exact absurd rfl hnot.2.1
  | rxClose => exact absurd rfl hnot.2.2
  | enableRadio | disableRadio | hardReset => exact hrole.elim

/-- The holder of the lock is at an operation, and not at the lock. -/
theorem owner_head (hholds : (stateLock b).Holds c)
    (howner : c.shared.stEnabledStatusLock = some t) :
    ∃ l o k, c.pool t = some ⟨l, .op o k⟩ ∧ o ≠ .mutexLock := by
  obtain ⟨l, o, k, hth⟩ := hholds.head howner
  refine ⟨l, o, k, hth, ?_⟩
  rintro rfl
  exact (hholds.checks hth howner).1 rfl

/-- A join is made under the lock, for the recorded thread, by the application. -/
theorem join_facts (hholds : (stateLock b).Holds c) {l : Label} {h : Nat}
    {k : Int → Cmd (Option Label)} (hth : c.pool t = some ⟨l, .op (.pthreadJoin h) k⟩) :
    c.shared.stEnabledStatusLock = some t ∧ h = c.shared.stRxThread ∧ h ≠ 0 ∧ t.isApp = true := by
  obtain ⟨howner, hrecorded, hne, happ, -⟩ :=
    hholds.inside hth rfl ⟨0, fun _ => 0, true⟩ ⟨0, fun _ => 0, false⟩ 0 rfl (by simp [stateLock])
  exact ⟨howner, hrecorded, hne, happ⟩

end holders

section property
variable {b : Build} {stateCallback rxCallback : Bool} {c : ThreadConfig} {t u : Tid} {h : Nat}

/-- The two threads of a deadlock hang. -/
theorem hangs_of_deadlocked (hdead : deadlocked c t h = true) : HangsAt b c t := by
  obtain ⟨hlock, ⟨tj, hj, hjoin⟩, tr, hr, -, hmutex⟩ := deadlocked_iff.mp hdead
  have hwait : waitsFor c t (.rx h) := ⟨_, by rw [hj]; exact hjoin, .inr ⟨h, rfl, rfl⟩⟩
  have hwait' : waitsFor c (.rx h) t := ⟨_, by rw [hr]; exact hmutex, .inl ⟨rfl, hlock⟩⟩
  have hlive : Machine.Live c t := ⟨tj, hj, by simp [Thread.terminated, hjoin]⟩
  have hlive' : Machine.Live c (.rx h) := ⟨tr, hr, by simp [Thread.terminated, hmutex]⟩
  exact Machine.hangs_of_cycle hlive (fun w hw => waitsFor_functional hw hwait)
    (fun w hw => waitsFor_functional hw hwait') (not_canMove_of_waitsFor hwait hlive')
    (not_canMove_of_waitsFor hwait' hlive)

/-- The thread that is joined exists. -/
theorem joined_isSome (hreach : (machine b).Reachable (initConfig stateCallback rxCallback) c)
    {l : Label} {k : Int → Cmd (Option Label)} (hth : c.pool t = some ⟨l, .op (.pthreadJoin h) k⟩) :
    ∃ th, c.pool (.rx h) = some th := by
  obtain ⟨-, hrecorded, hne, -⟩ := join_facts (stateLock_holds hreach) hth
  rw [hrecorded]
  exact Option.isSome_iff_exists.mp (recorded_isSome hreach (hrecorded ▸ hne))

/-- The thread that is joined waits for nobody, unless the two are deadlocked. -/
theorem joined_canMove (hreach : (machine b).Reachable (initConfig stateCallback rxCallback) c)
    (hno : ¬ deadlocked c t h = true) {l : Label} {k : Int → Cmd (Option Label)}
    (hth : c.pool t = some ⟨l, .op (.pthreadJoin h) k⟩) (hlive : Machine.Live c (.rx h)) :
    (machine b).CanMove (fun _ => True) c (.rx h) := by
  have hholds := stateLock_holds hreach
  obtain ⟨howner, -⟩ := join_facts hholds hth
  obtain ⟨lr, o, kr, hcode⟩ := Machine.live_iff.mp hlive
  by_contra hstuck
  rcases blocked_cases hcode hstuck with ⟨rfl, -⟩ | ⟨h', rfl, -⟩
  · obtain rfl := rx_mutexLock hreach hcode
    exact hno (deadlocked_iff.mpr ⟨howner, ⟨_, hth, rfl⟩, _, hcode, rfl, rfl⟩)
  · cases (join_facts hholds hcode).2.2.2

/-- The join that hangs is one side of a deadlock. -/
theorem deadlocked_of_join
    (hreach : (machine b).Reachable (initConfig stateCallback rxCallback) c)
    {l : Label} {k : Int → Cmd (Option Label)}
    (hth : c.pool t = some ⟨l, .op (.pthreadJoin h) k⟩) (hhangs : HangsAt b c t) :
    deadlocked c t h = true := by
  obtain ⟨tr, hr⟩ := joined_isSome hreach hth
  have hlive : Machine.Live c (.rx h) := by
    obtain ⟨hlock, -⟩ | ⟨h', hjoin, hcase⟩ := blocked_cases hth hhangs.stuck
    · cases hlock
    · cases hjoin
      exact ⟨tr, hr, by simpa [hr] using hcase⟩
  have hwait : waitsFor c t (.rx h) := ⟨_, by rw [hth]; rfl, .inr ⟨h, rfl, rfl⟩⟩
  by_contra hno
  exact (hhangs.next hwait hlive).stuck (joined_canMove hreach hno hth hlive)

/-- A thread hangs exactly if it waits, itself or behind other threads, for the
two threads of a join deadlock. -/
theorem hangs_iff (hreach : (machine b).Reachable (initConfig stateCallback rxCallback) c) :
    HangsAt b c t ↔
      ∃ u h, deadlocked c u h = true ∧ Relation.ReflTransGen (waitsFor c) t u := by
  constructor
  · intro hhangs
    have hholds := stateLock_holds hreach
    obtain ⟨l, o, k, hth⟩ := Machine.live_iff.mp hhangs.live
    rcases blocked_cases hth hhangs.stuck with ⟨rfl, u, howner⟩ | ⟨h, rfl, -⟩
    · have hwait : waitsFor c t u := ⟨_, by rw [hth]; rfl, .inl ⟨rfl, howner⟩⟩
      obtain ⟨lu, ou, ku, hthu, hnot⟩ := owner_head hholds howner
      have hhangs' : HangsAt b c u := hhangs.next hwait ⟨_, hthu, rfl⟩
      rcases blocked_cases hthu hhangs'.stuck with ⟨hlock, -⟩ | ⟨h, rfl, -⟩
      · exact absurd hlock hnot
      · exact ⟨u, h, deadlocked_of_join hreach hthu hhangs', .single hwait⟩
    · exact ⟨t, h, deadlocked_of_join hreach hth hhangs, .refl⟩
  · rintro ⟨u, h, hdead, hchain⟩
    induction hchain using Relation.ReflTransGen.head_induction_on with
    | refl => exact hangs_of_deadlocked hdead
    | @head t w hwait _ ih =>
        have hstuck : ¬ (machine b).CanMove (fun _ => True) c t :=
          not_canMove_of_waitsFor hwait ih.live
        obtain ⟨o, ho, -⟩ := id hwait
        obtain ⟨th, hth, hhead⟩ := Option.bind_eq_some_iff.mp ho
        refine ⟨⟨th, hth, by simp [Thread.terminated, hhead]⟩, fun v hv => ?_⟩
        rcases Relation.ReflTransGen.cases_head hv with rfl | ⟨w', hw', hrest⟩
        · exact hstuck
        · obtain rfl := waitsFor_functional hwait hw'
          exact ih.chain v hrest

/-- A third call waits for the lock of the two threads that are deadlocked. -/
def deadlockedWaiting : List (Move Label Tid Env) :=
  resettingDisabling ++ [.start (.app 2) .enableRadio, .act (.app 2) {}]

def waitsBehindDeadlock (c : ThreadConfig) : Bool :=
  deadlocked c (.app 1) 1 && decide (c.shared.stEnabledStatusLock = some (.app 1)) &&
    (c.pool (.app 2)).any fun th => decide (th.head? = some .mutexLock)

theorem hangs_behind_deadlock : ∃ c, HangsAt .smd c (.app 2) := by
  obtain ⟨c, hpath, hc⟩ := Machine.exec_any (machine .smd) (fun _ _ => true) deadlockedWaiting
    (initConfig true true) waitsBehindDeadlock (by decide)
  simp only [waitsBehindDeadlock, Bool.and_eq_true, decide_eq_true_eq, Option.any_eq_true] at hc
  obtain ⟨⟨hdead, howner⟩, th, hth, hhead⟩ := hc
  have hwait : waitsFor c (.app 2) (.app 1) :=
    ⟨_, by rw [hth]; exact hhead, .inl ⟨rfl, howner⟩⟩
  exact ⟨c, (hangs_iff hpath.reachable).mpr ⟨_, 1, hdead, .single hwait⟩⟩

end property
end AntHal
