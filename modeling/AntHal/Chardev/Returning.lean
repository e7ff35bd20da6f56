import AntHal.Concurrency.Fairness
import AntHal.Chardev.Progress

/-!
Does every call return?

While `ant_disable` joins the receive thread the run flag is down, and nobody raises
it. The receive thread then leaves its loop at the latest when it next looks at the
flag, and terminates, unless it resets. So under a fair scheduler the state lock is
always released, and every call returns, in each run without a join deadlock.
-/

namespace AntHal

open Concurrency

section flag
variable {b : Build} {t : Tid}

/-- The run flag as an operation leaves it. -/
def runFlagReact : (o : Op) → Bool → o.Res → Bool → Prop
  | .setRunThread v, _, _, p' => p' = v
  | _, p, _, p' => p' = p

/-- The run flag is raised under the lock only, and is down behind a join. -/
def runFlagLock (b : Build) : Monitor (machine b) Bool where
  owner := Shared.stEnabledStatusLock
  guarded := Shared.ucRunThread
  inv _ := True
  rely p q := q = p ∨ q = false
  rely_refl _ := .inl rfl
  rely_trans h h' := h'.elim (fun heq => heq ▸ h) .inr
  inv_rely _ _ := trivial
  lockAct := lockAct
  lockAnswer := lockAnswer
  react _ := runFlagReact
  check _ o p := ∀ h, o = .pthreadJoin h → p = false
  allow _ _ _ _ := True
  role := hasRole
  role_entry := @hasRole_entry b
  role_spawn := @hasRole_spawn b
  lock_spec _ _ _ _ _ hact hready _ := lock_effect (fun _ _ => rfl) b hact hready
  unlock_spec _ _ _ _ hact := unlock_effect (fun _ _ => rfl) b hact
  plain_spec t env s o hact _ := by
    cases o with
    | mutexLock | mutexTrylock | mutexUnlock => cases hact
    | openDevice | eventfdWrite | pthreadCreate | keepAliveCreate =>
        simp only [machine, effect, runFlagReact]
        split <;> exact ⟨rfl, fun _ _ => rfl⟩
    | _ => exact ⟨rfl, fun _ _ => rfl⟩

/-- What neither joins nor touches the lock keeps a lowered flag down, unless it raises it. -/
theorem runFlag_reacts {o : Op} {p p' : Bool} {r : o.Res} (ho : o ≠ .setRunThread true)
    (hr : runFlagReact o p r p') : p' = p ∨ p' = false := by
  cases o with
  | setRunThread v =>
      cases v with
      | false => exact .inr hr
      | true => exact absurd rfl ho
  | _ => exact .inl hr

theorem stable_lowered : (runFlagLock b).Stable (· = false) := by
  intro p q hp hq
  rcases hq with rfl | rfl
  · exact hp
  · rfl

/-- `ant_disable` does not raise the flag. -/
theorem antDisable_lowers : (antDisable b).Only
    (fun o => lockAct o = .plain ∧ o ≠ .setRunThread true) fun _ => True := by
  have hout (iRet : Int) : (antDisableOut iRet).Only
      (fun o => lockAct o = .plain ∧ o ≠ .setRunThread true) fun _ => True := by
    simp [antDisableOut, lockAct]
  have hclose : (disableChannels b b.channels >>= fun _ => antDisableOut 0).Only
      (fun o => lockAct o = .plain ∧ o ≠ .setRunThread true) fun _ => True := by
    refine ((disableChannels_only _).mono (fun o ho => ?_) fun _ h => h).bind fun _ _ => hout 0
    cases o <;> first | exact ⟨rfl, fun h => Op.noConfusion h⟩ | cases ho
  simp only [antDisable, Prog.op_bind, Prog.ret_bind, Prog.only_op, Prog.only_ite]
  exact ⟨⟨rfl, by simp⟩, fun _ => ⟨⟨rfl, by simp⟩, fun _ => ⟨⟨rfl, by simp⟩, fun _ =>
    ⟨fun _ => ⟨⟨rfl, by simp⟩, fun _ => ⟨fun _ => hout _, fun _ => ⟨⟨rfl, by simp⟩, fun _ =>
      ⟨⟨rfl, by simp⟩, fun _ => ⟨fun _ => hout _, fun _ => hclose⟩⟩⟩⟩⟩, fun _ => hclose⟩⟩⟩⟩

theorem inside_antDisable_runFlag : (runFlagLock b).Inside t (antDisable b) := by
  have honly := antDisable_lowers (b := b)
  simp only [antDisable, Prog.op_bind, Prog.ret_bind] at honly ⊢
  obtain ⟨-, hrest⟩ := (Prog.only_op _ _).mp ((Prog.only_op _ _).mp honly |>.2 ())
  refine .op ⟨rfl, fun p _ => ⟨fun _ heq => Op.noConfusion heq, fun _ _ _ => trivial⟩⟩ fun _ =>
    Monitor.Triple.op (K := fun _ p => p = false) Monitor.stable_inv rfl
      (fun p _ => ⟨fun _ heq => Op.noConfusion heq, fun _ _ hr => hr⟩) fun _ => ?_
  refine (Monitor.Triple.only stable_lowered (hrest ()) fun o ho => ⟨ho.1, fun p hp =>
    ⟨fun _ _ => hp, fun r p' hr => ?_⟩⟩).mono (fun _ hp => hp) fun _ _ _ => trivial
  rcases runFlag_reacts ho.2 hr with rfl | rfl
  · exact hp
  · rfl

theorem runFlag_harmlessIn {o : Op} (hact : lockAct o = .plain) (ho : ∀ h, o ≠ .pthreadJoin h) :
    (runFlagLock b).HarmlessIn t o :=
  ⟨hact, fun _ _ => ⟨fun h heq => absurd heq (ho h), fun _ _ _ => trivial⟩⟩

theorem runFlag_passive {o : Op} (h : passiveOp o = true) : (runFlagLock b).HarmlessIn t o := by
  refine runFlag_harmlessIn (plain_of_passive h) ?_
  rintro n rfl
  cases h

theorem runFlag_upheld : Upheld (runFlagLock b) where
  owner_eq := rfl
  lockAct_eq := rfl
  lockAnswer_eq := rfl
  role_eq := rfl
  outer o ho := by
    have hact : lockAct o = .plain ∧ o ≠ .setRunThread true := by
      rcases ho with ho | ho
      · cases o with
        | setRunThread v =>
            cases v with
            | false => exact ⟨rfl, by simp⟩
            | true => cases ho
        | _ => first | exact ⟨rfl, fun h => Op.noConfusion h⟩ | cases ho
      · cases o <;> first | exact ⟨rfl, fun h => Op.noConfusion h⟩ | cases ho
    exact ⟨hact.1, fun p r p' hr => runFlag_reacts hact.2 hr⟩
  inner _ _ ho := runFlag_passive ho
  unlock _ _ _ := by simp [runFlagLock]
  enable t := .only antEnable_works fun o ho => by
    refine runFlag_harmlessIn ?_ ?_
    · cases o <;> first | rfl | cases ho
    · rintro h rfl
      cases ho
  disable _ := inside_antDisable_runFlag
  stop _ _ hprog :=
    inside_stop (runFlag_harmlessIn rfl (by simp)) (fun _ => runFlag_passive)
      inside_antDisable_runFlag hprog

end flag

section stages
variable {b : Build} {c d : ThreadConfig} {h : Nat} {env : Env} {l : Label} {o : Op}
  {k : o.Res → Cmd (Option Label)}

/-- Where the programs of a label go on. -/
def goesTo : Label → Option Label → Prop
  | .rxStart, a => a = some .rxLoop
  | .rxLoop, a => a = some .rxLoop ∨ a = some .rxClose ∨ a = some .doReset
  | _, a => a = none

theorem body_goesTo (l : Label) : ((machine b).body l).Returns (goesTo l) := by
  cases l with
  | rxStart => exact rxStart_loops.returns
  | rxLoop => exact rxLoop_loops.returns
  | rxClose => exact rxClose_calls.returns
  | enableRadio | disableRadio | hardReset => exact Prog.returns_bind _ fun _ => rfl
  | doReset => exact Prog.returns_bind _ fun _ _ => rfl

theorem reachable_goesTo {stateCallback rxCallback : Bool}
    (hreach : (machine b).Reachable (initConfig stateCallback rxCallback) c) :
    Machine.PoolReturns goesTo c :=
  hreach.invariant (fun _ _ _ hx _ hs => Machine.poolReturns_step body_goesTo hx hs)
    fun _ _ hth => by cases hth

/-- The guard of the loop, which leaves it when the run flag is down. -/
def atGuard : Cmd (Option Label) → Prop
  | .op .getRunThread k => k false = .ret (some .rxClose)
  | _ => False

open Classical in
/-- How far a receive thread is from its end, while the run flag is down. -/
noncomputable def stage (l : Label) (code : Cmd (Option Label)) : Nat :=
  match l with
  | .rxStart => 3
  | .rxLoop => if atGuard code then 1 else 2
  | _ => 0

theorem stage_loop : stage .rxLoop (body b .rxLoop) = 1 := if_pos rfl

/-- With the run flag down, the guard is where the loop is left. -/
theorem leaves_atGuard (ha : (machine b).Acts (.rx h) env c d .rxLoop o k)
    (hflag : c.shared.ucRunThread = false) (hguard : atGuard (.op o k)) :
    k (effect b (.rx h) env o c.shared).1 = .ret (some .rxClose) := by
  cases o with
  | getRunThread =>
      change k c.shared.ucRunThread = _
      rw [hflag]
      exact hguard
  | _ => cases hguard

/-- A step inside a block, apart from the guard. -/
theorem stage_rest (hguard : l = .rxLoop → ¬ atGuard (.op o k)) (r : o.Res) :
    Prod.Lex (· < ·) Prog.Rest (stage l (k r), k r) (stage l (.op o k), .op o k) := by
  have hle : stage l (k r) ≤ stage l (.op o k) := by
    cases l with
    | rxLoop =>
        simp only [stage, if_neg (hguard rfl)]
        split <;> omega
    | _ => exact Nat.le_refl _
  rcases Nat.lt_or_eq_of_le hle with hlt | heq
  · exact .left _ _ hlt
  · rw [heq]
    exact .right _ ⟨r, rfl⟩

/-- With the run flag down, every step brings the receive thread nearer to its end. -/
theorem stage_falls (ha : (machine b).Acts (.rx h) env c d l o k)
    (hgoes : (Prog.op o k).Returns (goesTo l)) (hflag : c.shared.ucRunThread = false) :
    ∃ l' code', d.pool (.rx h) = some ⟨l', code'⟩ ∧
      Prod.Lex (· < ·) Prog.Rest (stage l' code', code') (stage l (.op o k), .op o k) := by
  have hself : d.pool (.rx h) =
      some ((machine b).resume l (k (effect b (.rx h) env o c.shared).1)) := ha.self.2
  have hret := hgoes (effect b (.rx h) env o c.shared).1
  by_cases hguard : l = .rxLoop ∧ atGuard (.op o k)
  · obtain ⟨rfl, hguard⟩ := hguard
    rw [leaves_atGuard ha hflag hguard] at hself
    exact ⟨_, _, hself, .left _ _ (by simp [stage, if_pos hguard])⟩
  · have hstay := stage_rest (o := o) (k := k) (fun hl hat => hguard ⟨hl, hat⟩)
      (effect b (.rx h) env o c.shared).1
    rcases (machine b).resume_cases l (k (effect b (.rx h) env o c.shared).1) with
      ⟨l', hk, hres⟩ | hres
    · rw [hres] at hself
      rw [hk] at hret
      refine ⟨_, _, hself, .left _ _ ?_⟩
      cases l with
      | rxStart =>
          cases hret
          rw [machine, stage_loop]
          exact (by decide : 1 < 3)
      | rxLoop =>
          rw [stage, if_neg fun hat => hguard ⟨rfl, hat⟩]
          rcases hret with hloop | hclose | hreset
          · cases hloop
            rw [machine, stage_loop]
            decide
          · cases hclose
            exact Nat.succ_pos 1
          · cases hreset
            exact Nat.succ_pos 1
      | enableRadio | disableRadio | hardReset | rxClose | doReset => cases hret
    · rw [hres] at hself
      exact ⟨_, _, hself, hstay⟩

end stages

section turns
variable {b : Build} {stateCallback rxCallback : Bool} {c : ThreadConfig} {t : Tid} {h : Nat}

/-- The thread that `t` is about to join. -/
def joining (c : ThreadConfig) (t : Tid) : Option Nat :=
  match (c.pool t).bind Thread.head? with
  | some (.pthreadJoin h) => some h
  | _ => none

/-- Whose turn it is while `t` holds the lock: the thread it waits for, or itself. -/
def turn (t : Tid) (c : ThreadConfig) : Tid :=
  match joining c t with
  | some h => if (c.pool (.rx h)).any Thread.terminated then t else .rx h
  | none => t

/-- What a receive thread that is joined has still to do. -/
noncomputable def remaining (th : Option (Thread Op Op.Res Label)) : Nat × Cmd (Option Label) :=
  th.elim (0, .ret none) fun th => (stage th.label th.code, th.code)

/-- What the holder `t` of the lock and the thread it joins have still to do. -/
noncomputable def ahead (t : Tid) (c : ThreadConfig) :
    Cmd (Option Label) × Nat × Cmd (Option Label) :=
  ((c.pool t).elim (.ret none) Thread.code, remaining ((joining c t).bind fun h => c.pool (.rx h)))

def nearer : Cmd (Option Label) × Nat × Cmd (Option Label) →
    Cmd (Option Label) × Nat × Cmd (Option Label) → Prop :=
  Prod.Lex Prog.Rest (Prod.Lex (· < ·) Prog.Rest)

theorem nearer_wf : WellFounded nearer :=
  Prog.rest_wf.prod_lex (Nat.lt_wfRel.wf.prod_lex Prog.rest_wf)

theorem joining_of_pool {l : Label} {k : Int → Cmd (Option Label)}
    (hth : c.pool t = some ⟨l, .op (.pthreadJoin h) k⟩) : joining c t = some h := by
  simp [joining, hth, Thread.head?]

theorem joining_eq_some (hjoin : joining c t = some h) :
    ∃ l k, c.pool t = some ⟨l, .op (.pthreadJoin h) k⟩ := by
  unfold joining at hjoin
  split at hjoin
  · rename_i h' hhead
    cases hjoin
    obtain ⟨⟨l, code⟩, hth, hop⟩ := Option.bind_eq_some_iff.mp hhead
    obtain ⟨k, rfl⟩ := Thread.code_of_head hop
    exact ⟨l, k, hth⟩
  · cases hjoin

theorem runFlagLock_holds
    (hreach : (machine b).Reachable (initConfig stateCallback rxCallback) c) :
    (runFlagLock b).Holds c :=
  Monitor.holds_path runFlag_upheld.checked
    (fun x mv _ => Monitor.allowed_of_forall (fun _ _ _ _ => trivial) x mv)
    (runFlag_upheld.start trivial) hreach

/-- The run flag is down where a thread is joined. -/
theorem lowered_of_joining (hreach : (machine b).Reachable (initConfig stateCallback rxCallback) c)
    {l : Label} {k : Int → Cmd (Option Label)}
    (hth : c.pool t = some ⟨l, .op (.pthreadJoin h) k⟩) : c.shared.ucRunThread = false := by
  obtain ⟨howner, -⟩ := join_facts (stateLock_holds hreach) hth
  obtain ⟨l', o, k', hth', hcheck⟩ := (runFlagLock_holds hreach).checked howner
  cases hth.symm.trans hth'
  exact hcheck h rfl

/-- Whose turn it is can move. -/
theorem canMove_turn (hreach : (machine b).Reachable (initConfig stateCallback rxCallback) c)
    (hno : ¬ JoinDeadlock c) (howner : c.shared.stEnabledStatusLock = some t) :
    (machine b).CanMove (fun _ => True) c (turn t c) := by
  obtain ⟨l, o, k, hth, hnot⟩ := owner_head (stateLock_holds hreach) howner
  by_contra hstuck
  unfold turn at hstuck
  split at hstuck
  · rename_i h hjoin
    obtain ⟨l', k', hth'⟩ := joining_eq_some hjoin
    split at hstuck
    · rename_i hended
      exact hstuck (canMove_of_isReady hth' hended)
    · rename_i hrun
      obtain ⟨th, hr⟩ := joined_isSome hreach hth'
      refine hstuck (joined_canMove hreach (fun hdead => hno ⟨t, h, hdead⟩) hth' ⟨th, hr, ?_⟩)
      simpa [hr] using hrun
  · rename_i hjoin
    rcases blocked_cases hth hstuck with ⟨hlock, -⟩ | ⟨h, rfl, -⟩
    · exact hnot hlock
    · cases hjoin.symm.trans (joining_of_pool hth)

end turns

section runs
variable {b : Build} {stateCallback rxCallback : Bool}
  {r : Run (machine b) (initConfig stateCallback rxCallback)} {t : Tid} {n : Nat}

/-- What a step of another thread does to a lock that is held: nothing. -/
theorem owner_acts {c d : ThreadConfig} {u : Tid} {env : Env} {l : Label} {o : Op}
    {k : o.Res → Cmd (Option Label)} (hholds : (runFlagLock b).Holds c)
    (ha : (machine b).Acts u env c d l o k) (howner : c.shared.stEnabledStatusLock = some t)
    (hut : u ≠ t) : d.shared.stEnabledStatusLock = some t := by
  cases Monitor.lockStep hholds ha trivial with
  | plain act same reacts => exact same.trans howner
  | locked act answer free mine kept => cases free.symm.trans howner
  | refused act answer other same kept => exact same.trans howner
  | unlocked act mine free kept => exact absurd (Option.some.inj (mine.symm.trans howner)) hut

theorem owner_idle (howner : (r.config n).shared.stEnabledStatusLock = some t)
    (hidle : ¬ r.Takes t n) : (r.config (n + 1)).shared.stEnabledStatusLock = some t := by
  by_cases hacts : ∃ u, r.Takes u n
  · obtain ⟨u, htakes⟩ := hacts
    obtain ⟨env, l, o, k, ha⟩ := htakes.acts
    refine owner_acts (runFlagLock_holds (r.reachable n)) ha howner ?_
    rintro rfl
    exact hidle htakes
  · rw [r.shared_next fun u hu => hacts ⟨u, hu⟩]
    exact howner

/-- The holder and the thread it joins have moved, or nothing has changed for them. -/
theorem ahead_idle {th : Thread Op Op.Res Label} (hth : (r.config n).pool t = some th)
    (hidle : ¬ r.Takes t n)
    (hjoined : ∀ h, joining (r.config n) t = some h → ¬ r.Takes (.rx h) n) :
    ahead t (r.config (n + 1)) = ahead t (r.config n) ∧
      turn t (r.config (n + 1)) = turn t (r.config n) := by
  have hsame : (r.config (n + 1)).pool t = (r.config n).pool t :=
    (Run.pool_next hth hidle).trans hth.symm
  have hjoin : joining (r.config (n + 1)) t = joining (r.config n) t := by
    simp only [joining, hsame]
  have hrest (h : Nat) (hcase : joining (r.config n) t = some h) :
      (r.config (n + 1)).pool (.rx h) = (r.config n).pool (.rx h) := by
    obtain ⟨l, k, hcode⟩ := joining_eq_some hcase
    obtain ⟨th', hth'⟩ := joined_isSome (r.reachable n) hcode
    exact (Run.pool_next hth' (hjoined h hcase)).trans hth'.symm
  rw [ahead, ahead, turn, turn, hjoin, hsame]
  cases hcase : joining (r.config n) t with
  | none => exact ⟨rfl, rfl⟩
  | some h => exact ⟨by rw [Option.bind_some, Option.bind_some, hrest h hcase],
      by simp only [hrest h hcase]⟩

/-- A step of the holder leads on in its section, or releases the lock. -/
theorem ahead_self (howner : (r.config n).shared.stEnabledStatusLock = some t)
    (htakes : r.Takes t n) : (r.config (n + 1)).shared.stEnabledStatusLock = none ∨
      ((r.config (n + 1)).shared.stEnabledStatusLock = some t ∧
        nearer (ahead t (r.config (n + 1))) (ahead t (r.config n))) := by
  have hholds := runFlagLock_holds (r.reachable n)
  obtain ⟨env, l, o, k, ha⟩ := htakes.acts
  have hstays (hsame : (r.config (n + 1)).shared.stEnabledStatusLock = some t) :
      nearer (ahead t (r.config (n + 1))) (ahead t (r.config n)) := by
    have hkept := hholds.kept ha trivial hsame
    simp only [ahead, hkept, ha.thread, Option.elim_some]
    exact .left _ _ ⟨_, rfl⟩
  cases Monitor.lockStep hholds ha trivial with
  | plain act same reacts => exact .inr ⟨same.trans howner, hstays (same.trans howner)⟩
  | locked act answer free mine kept => exact .inr ⟨mine, hstays mine⟩
  | refused act answer other same kept => exact absurd howner other
  | unlocked act mine free kept => exact .inl free

/-- A step of the joined thread leads to its end. -/
theorem ahead_joined {h : Nat} (hidle : ¬ r.Takes t n)
    (hjoin : joining (r.config n) t = some h) (htakes : r.Takes (.rx h) n) :
    nearer (ahead t (r.config (n + 1))) (ahead t (r.config n)) := by
  have hreach := r.reachable n
  obtain ⟨l, k, hth⟩ := joining_eq_some hjoin
  obtain ⟨env, lr, o, kr, ha⟩ := htakes.acts
  obtain ⟨l', code', hpool, hfalls⟩ := stage_falls ha (reachable_goesTo hreach _ _ ha.thread)
    (lowered_of_joining hreach hth)
  have hth' := Run.pool_next hth hidle
  simp only [ahead, hjoin, joining_of_pool hth', hth, hth', Option.elim_some, Option.bind_some,
    hpool, ha.thread, remaining]
  exact .right _ hfalls

/-- A section goes on by steps of the holder and of the thread it joins. -/
theorem section_next (howner : (r.config n).shared.stEnabledStatusLock = some t) :
    (r.config (n + 1)).shared.stEnabledStatusLock = none ∨
      ((r.config (n + 1)).shared.stEnabledStatusLock = some t ∧
        r.Descends nearer (ahead t) (turn t) n) := by
  by_cases hself : r.Takes t n
  · exact (ahead_self howner hself).imp_right fun h => ⟨h.1, .inl h.2⟩
  refine .inr ⟨owner_idle howner hself, ?_⟩
  by_cases hjoined : ∃ h, joining (r.config n) t = some h ∧ r.Takes (.rx h) n
  · obtain ⟨h, hjoin, htakes⟩ := hjoined
    exact .inl (ahead_joined hself hjoin htakes)
  · obtain ⟨l, o, k, hth, -⟩ := owner_head (stateLock_holds (r.reachable n)) howner
    have hidle (h : Nat) (hjoin : joining (r.config n) t = some h) : ¬ r.Takes (.rx h) n :=
      fun htakes => hjoined ⟨h, hjoin, htakes⟩
    refine .inr ⟨?_, ahead_idle hth hself hidle⟩
    unfold turn
    split
    · rename_i h hjoin
      split
      · exact hself
      · exact hidle h hjoin
    · exact hself

/-- Under a fair scheduler the lock is always released. -/
theorem lock_released (hfair : r.Fair fun _ => True) (hno : ∀ n, ¬ JoinDeadlock (r.config n))
    (howner : (r.config n).shared.stEnabledStatusLock = some t) :
    ∃ k, n ≤ k ∧ (r.config k).shared.stEnabledStatusLock = none :=
  hfair.eventually (A := fun c => c.shared.stEnabledStatusLock = some t)
    (B := fun c => c.shared.stEnabledStatusLock = none) nearer_wf
    (fun i hA _ => canMove_turn (r.reachable i) (hno i) hA) (fun _ hA _ => section_next hA) howner

/-- Every live thread can move again. -/
theorem able_again (hfair : r.Fair fun _ => True) (hno : ∀ n, ¬ JoinDeadlock (r.config n))
    (hlive : Machine.Live (r.config n) t) :
    ∃ k, n ≤ k ∧ (machine b).CanMove (fun _ => True) (r.config k) t := by
  by_contra hnever
  have hstuck (k : Nat) (hk : n ≤ k) : ¬ (machine b).CanMove (fun _ => True) (r.config k) t :=
    fun hmove => hnever ⟨k, hk, hmove⟩
  obtain ⟨l, o, k, hth⟩ := Machine.live_iff.mp hlive
  have hstays {i : Nat} (hi : n ≤ i) : (r.config i).pool t = some ⟨l, .op o k⟩ :=
    Run.pool_while hth (fun j hj htakes => hstuck j hj htakes.canMove) hi
  have howner : ∃ u, (r.config n).shared.stEnabledStatusLock = some u := by
    rcases blocked_cases hth (hstuck n (Nat.le_refl n)) with ⟨-, howner⟩ | ⟨h, rfl, -⟩
    · exact howner
    · exact ⟨t, (join_facts (stateLock_holds (r.reachable n)) hth).1⟩
  obtain ⟨u, howner⟩ := howner
  obtain ⟨i, hi, hfree⟩ := lock_released hfair hno howner
  -- with the lock free nobody waits for it, and nobody joins
  rcases blocked_cases (hstays hi) (hstuck i hi) with ⟨-, v, hheld⟩ | ⟨h, rfl, -⟩
  · cases hfree.symm.trans hheld
  · cases hfree.symm.trans (join_facts (stateLock_holds (r.reachable i)) (hstays hi)).1

/-- The call `i` of the application has returned. -/
def returned (c : ThreadConfig) (i : Nat) : Bool := (c.pool (.app i)).any Thread.terminated

/-- The two threads of a deadlock stay in it. -/
theorem deadlocked_next {h : Nat} (hdead : deadlocked (r.config n) t h = true) :
    deadlocked (r.config (n + 1)) t h = true := by
  obtain ⟨howner, ⟨tj, hj, hjoin⟩, tr, hr, hlabel, hmutex⟩ := deadlocked_iff.mp hdead
  have hidle (u : Tid) (hu : ∀ env, (machine b).step (.act u env) (r.config n) = none) :
      ¬ r.Takes u n := by
    rintro ⟨env, hmv⟩
    have hnext := r.next n
    rw [hmv] at hnext
    cases (hu env).symm.trans hnext
  have hidle_t := hidle t fun env => (deadlocked_blocked hdead env).1
  have hidle_h := hidle (.rx h) fun env => (deadlocked_blocked hdead env).2
  exact deadlocked_iff.mpr ⟨owner_idle howner hidle_t, ⟨tj, Run.pool_next hj hidle_t, hjoin⟩, tr,
    Run.pool_next hr hidle_h, hlabel, hmutex⟩

/-- Every call of the run returns. -/
def CallsReturn (r : Run (machine b) (initConfig stateCallback rxCallback)) : Prop :=
  ∀ n i, ((r.config n).pool (.app i)).isSome → ∃ k, n ≤ k ∧ returned (r.config k) i = true

/-- The call that joins does not return from a deadlock. -/
theorem not_callsReturn {h : Nat} (hdead : deadlocked (r.config n) t h = true) :
    ¬ CallsReturn r := by
  intro hreturn
  have hstays (k : Nat) (hk : n ≤ k) : deadlocked (r.config k) t h = true := by
    induction k, hk using Nat.le_induction with
    | base => exact hdead
    | succ k _ ih => exact deadlocked_next ih
  obtain ⟨-, ⟨⟨l, code⟩, hth, hjoin⟩, -⟩ := deadlocked_iff.mp hdead
  obtain ⟨k, rfl⟩ := Thread.code_of_head hjoin
  have happ := (join_facts (stateLock_holds (r.reachable n)) hth).2.2.2
  cases t with
  | rx h' => cases happ
  | app i =>
      obtain ⟨k, hk, hdone⟩ := hreturn n i (by simp [hth])
      obtain ⟨-, ⟨th, hth', hhead⟩, -⟩ := deadlocked_iff.mp (hstays k hk)
      simp [returned, hth', Thread.terminated, hhead] at hdone

/-- Under a fair scheduler every call returns, exactly if no join deadlock is reached. -/
theorem calls_return_iff (hfair : r.Fair fun _ => True) :
    CallsReturn r ↔ ∀ n, ¬ JoinDeadlock (r.config n) := by
  constructor
  · rintro hreturn n ⟨t, h, hdead⟩
    exact not_callsReturn hdead hreturn
  · intro hno n i hcall
    have hends (n : Nat) (th : Thread Op Op.Res Label)
        (hth : (r.config n).pool (.app i) = some th) : th.code.Returns (· = none) := by
      have hgoes := reachable_goesTo (r.reachable n) _ _ hth
      have hrole := (stateLock_holds (r.reachable n)).roles _ _ hth
      cases hl : th.label <;> rw [hl] at hgoes hrole <;> first | exact hgoes | exact hrole.elim
    obtain ⟨th, hth⟩ := Option.isSome_iff_exists.mp hcall
    obtain ⟨k, hk, th', hth', hdone⟩ :=
      hfair.terminates hends (fun n hlive => able_again hfair hno hlive) hth
    exact ⟨k, hk, by simp [returned, hth', hdone]⟩

/-- A disable of a radio that is off, and nothing else. -/
def disablingAlone : List (Move Label Tid Env) :=
  .start (.app 0) .disableRadio :: List.replicate 18 (.act (.app 0) {})

set_option maxRecDepth 4000 in
theorem disablingAlone_ends : ∃ d, (machine .uart).exec (fun _ _ => true) disablingAlone
    (initConfig true true) = some d ∧ ∀ t, ¬ Machine.Live d t := by
  have hrun : ((machine .uart).exec (fun _ _ => true) disablingAlone
      (initConfig true true)).isSome = true := rfl
  obtain ⟨d, hd⟩ := Option.isSome_iff_exists.mp hrun
  refine ⟨d, hd, fun t => ?_⟩
  have hpool : ((machine .uart).exec (fun _ _ => true) disablingAlone (initConfig true true)).map
      (fun d => (d.pool t).all Thread.terminated) = some true := by
    cases t with
    | rx h => rfl
    | app i => cases i <;> rfl
  rw [hd] at hpool
  rintro ⟨th, hth, hlive⟩
  simp [hth, hlive] at hpool

theorem calls_return_disabling : ∃ r : Run (machine .uart) (initConfig true true),
    ((r.config 1).pool (.app 0)).isSome ∧ (CallsReturn r ↔ ∀ n, ¬ JoinDeadlock (r.config n)) := by
  obtain ⟨d, hd, hend⟩ := disablingAlone_ends
  refine ⟨.ofMoves disablingAlone hd, rfl, calls_return_iff (Run.ofMoves_fair hd fun t hmove => ?_)⟩
  obtain ⟨env, e, -, hs⟩ := hmove
  obtain ⟨l, o, k, ha⟩ := Machine.step_act hs
  exact hend t ⟨_, ha.thread, rfl⟩

end runs
end AntHal
