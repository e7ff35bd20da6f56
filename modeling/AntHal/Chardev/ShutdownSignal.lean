import AntHal.Chardev.SingleReceiver
import AntHal.Chardev.Returning

/-!
The back ends with their eventfd.

Here the counter of iRxShutdownEventFd is part of the state, and a call is answered
as it says: a write gets through, a read takes the counter and finds nothing in an
empty one, and poll shows an event exactly of a counter that is not empty. So every
run is one in which the shutdown signals get through. Conversely no signal is left
over: a receive thread finds one only while `ant_disable` waits for this thread.
-/

namespace AntHal

open Concurrency

structure Signalling where
  shared : Shared
  counter : Nat

/-- The counter behind a call. -/
def counterAfter : (o : Op) → Nat → Nat
  | .eventfdRead, _ => 0
  | .eventfdWrite, n => n + 1
  | _, n => n

/-- What the eventfd answers: EAGAIN of an empty counter, and no event. -/
def signalAnswers (env : Env) (n : Nat) : Op → Bool
  | .eventfdRead => env.eventfdRead = if n = 0 then .eagain else .ok
  | .eventfdWrite => env.eventfdWrite
  | .poll => (env.poll.iPollRet ≠ 0 || n = 0) &&
      (env.poll.iPollRet ≤ 0 || env.poll.shutdown = if n = 0 then 0 else pollIn)
  | _ => true

def signallingEffect (b : Build) (t : Tid) (env : Env) (o : Op) (s : Signalling) :
    o.Res × Signalling :=
  let (r, shared) := effect b t env o s.shared
  (r, ⟨shared, counterAfter o s.counter⟩)

def signalling (b : Build) : Machine Op Op.Res Label Tid Signalling Env where
  body := body b
  entry := isEntry
  ready pool _ env o s := isReady pool o s.shared && signalAnswers env s.counter o
  effect := signallingEffect b
  spawn o r s := spawned o r s.shared

abbrev SignallingConfig : Type := Config Op Op.Res Label Tid Signalling

def signallingInit (stateCallback rxCallback : Bool) : SignallingConfig :=
  ⟨⟨.init stateCallback rxCallback, 0⟩, fun _ => none⟩

/-- The configuration without its counter. -/
def SignallingConfig.threads (c : SignallingConfig) : ThreadConfig := c.project Signalling.shared

theorem signalling_projects (b : Build) :
    (signalling b).Projects (machine b) Signalling.shared id where
  body := rfl
  entry := rfl
  ready h := (Bool.and_eq_true_iff.mp h).1
  effect _ _ _ _ := rfl
  spawn _ _ _ := rfl

/-- With an eventfd every shutdown signal gets through. -/
theorem signals_get_through {b : Build} {stateCallback rxCallback : Bool} {c : SignallingConfig}
    (h : (signalling b).Reachable (signallingInit stateCallback rxCallback) c) :
    (machine b).Path (signalGetsThrough · · = true) (initConfig stateCallback rxCallback)
      c.threads := by
  refine (signalling_projects b).path (fun x mv y hs => ?_) h
  cases mv with
  | start t l => rfl
  | act t env =>
      obtain ⟨l, o, k, ha⟩ := Machine.step_act hs
      have hanswers := (Bool.and_eq_true_iff.mp ha.ready).2
      change ((x.pool t).bind Thread.head?).all (signalWritten env) = true
      rw [ha.thread]
      cases o <;> first | rfl | exact hanswers

section counting

/-- The recorded thread and the counter. -/
structure Signal where
  stRxThread : Nat
  counter : Nat

/-- What an operation may do to the counter. A write is one more signal, or has failed. -/
def counts : Op → Nat → Nat → Prop
  | .eventfdRead, _, n' => n' = 0
  | .eventfdWrite, n, n' => n' ≤ n + 1
  | _, n, n' => n' = n

def signalReact : (o : Op) → Signal → o.Res → Signal → Prop
  | .getRxThread, p, r, p' => r = p.stRxThread ∧ p' = p
  | .clearRxThread, p, _, p' => p' = { p with stRxThread := 0 }
  | .pthreadCreate, p, _, p' => p'.counter = p.counter
  | o, p, _, p' => p'.stRxThread = p.stRxThread ∧ counts o p.counter p'.counter

/-- No signal is pending for a thread that has been recorded. -/
def Signal.Fresh (p : Signal) : Prop := p.stRxThread ≠ 0 → p.counter = 0

/-- Threads are created, and signals written, while none is pending. -/
def SignalCheck : Op → Signal → Prop
  | .pthreadCreate, p | .eventfdWrite, p => p.counter = 0
  | _, _ => True

/-- What the others do: at most they take the signals. -/
structure Signal.Drained (p q : Signal) : Prop where
  stRxThread : q.stRxThread = p.stRxThread
  counter : q.counter = p.counter ∨ q.counter = 0

theorem Signal.Drained.trans {p q r : Signal} (h : p.Drained q) (h' : q.Drained r) : p.Drained r :=
  ⟨h'.stRxThread.trans h.stRxThread, h'.counter.elim (fun heq => heq ▸ h.counter) .inr⟩

theorem Signal.Fresh.drained {p q : Signal} (h : p.Fresh) (hs : p.Drained q) : q.Fresh :=
  fun hthread => hs.counter.elim (fun heq => heq.trans (h (hs.stRxThread ▸ hthread))) id

theorem signal_plain (b : Build) (t : Tid) (env : Env) (s : Shared) {o : Op} {n n' : Nat}
    (hact : lockAct o = .plain) (hn : counts o n n') :
    (effect b t env o s).2.stEnabledStatusLock = s.stEnabledStatusLock ∧
      signalReact o ⟨s.stRxThread, n⟩ (effect b t env o s).1
        ⟨(effect b t env o s).2.stRxThread, n'⟩ := by
  cases o with
  | mutexLock | mutexTrylock | mutexUnlock => cases hact
  | openDevice | keepAliveCreate | eventfdWrite | pthreadCreate =>
      simp only [effect]
      split <;> first | exact ⟨rfl, rfl, hn⟩ | exact ⟨rfl, hn⟩
  | getRxThread =>
      obtain rfl : n' = n := hn
      exact ⟨rfl, rfl, rfl⟩
  | clearRxThread =>
      obtain rfl : n' = n := hn
      exact ⟨rfl, rfl⟩
  | _ => exact ⟨rfl, rfl, hn⟩

/-- The rules for the programs. Without the eventfd no signal is ever seen. -/
def signalRules (b : Build) : Monitor (machine b) Signal where
  owner := Shared.stEnabledStatusLock
  guarded s := ⟨s.stRxThread, 0⟩
  inv := Signal.Fresh
  rely := Signal.Drained
  rely_refl _ := ⟨rfl, .inl rfl⟩
  rely_trans h h' := h.trans h'
  inv_rely h hs := h.drained hs
  lockAct := lockAct
  lockAnswer := lockAnswer
  react _ := signalReact
  check _ := SignalCheck
  allow _ _ _ _ := True
  role := hasRole
  role_entry := @hasRole_entry b
  role_spawn := @hasRole_spawn b
  lock_spec _ _ _ _ _ hact hready _ :=
    lock_effect (f := fun s => Signal.mk s.stRxThread 0) (fun _ _ => rfl) b hact hready
  unlock_spec _ _ _ _ hact :=
    unlock_effect (f := fun s => Signal.mk s.stRxThread 0) (fun _ _ => rfl) b hact
  plain_spec t env s o hact _ := by
    have hcounts : counts o 0 0 := by cases o <;> first | rfl | exact Nat.zero_le _
    exact (signal_plain b t env s hact hcounts).imp_right fun hreact _ _ => hreact

/-- The same rules, for the machine that counts. -/
def signalLock (b : Build) : Monitor (signalling b) Signal where
  owner s := s.shared.stEnabledStatusLock
  guarded s := ⟨s.shared.stRxThread, s.counter⟩
  inv := Signal.Fresh
  rely := Signal.Drained
  rely_refl _ := ⟨rfl, .inl rfl⟩
  rely_trans h h' := h.trans h'
  inv_rely h hs := h.drained hs
  lockAct := lockAct
  lockAnswer := lockAnswer
  react _ := signalReact
  check _ := SignalCheck
  allow _ _ _ _ := True
  role := hasRole
  role_entry := @hasRole_entry b
  role_spawn h := hasRole_spawn b h
  lock_spec env pool t o s hact hready _ := by
    have hcounter : counterAfter o s.counter = s.counter := by
      cases o <;> first | rfl | cases hact
    have heffect := @lock_effect _ (fun x => Signal.mk x.stRxThread s.counter) t env s.shared o
      (fun _ _ => rfl) b pool hact (Bool.and_eq_true_iff.mp hready).1
    simpa only [signalling, signallingEffect, hcounter] using heffect
  unlock_spec t env s o hact := by
    have hcounter : counterAfter o s.counter = s.counter := by
      cases o <;> first | rfl | cases hact
    have heffect := @unlock_effect _ (fun x => Signal.mk x.stRxThread s.counter) t env s.shared o
      (fun _ _ => rfl) b hact
    simpa only [signalling, signallingEffect, hcounter] using heffect
  plain_spec t env s o hact _ := by
    have hcounts : counts o s.counter (counterAfter o s.counter) := by
      cases o <;> first | rfl | exact Nat.le_refl _
    exact (signal_plain b t env s.shared hact hcounts).imp_right fun hreact _ _ => hreact

theorem signalLock_sameRules (b : Build) : (signalLock b).SameRules (signalRules b) :=
  ⟨rfl, rfl, rfl, rfl, rfl, rfl, rfl, rfl⟩

variable {b : Build} {t : Tid}

theorem stable_drained {I : Signal → Prop} (h : ∀ p q : Signal, p.Drained q → I p → I q) :
    (signalRules b).Stable I :=
  fun p q hp hs => h p q hs hp

theorem stable_empty : (signalRules b).Stable (·.counter = 0) :=
  stable_drained fun _ _ hs hp => hs.counter.elim (·.trans hp) id

/-- What neither creates a thread nor writes a signal can at most take the signals. -/
theorem signal_drained {o : Op} {p p' : Signal} {r : o.Res}
    (hne : o ≠ .clearRxThread ∧ o ≠ .pthreadCreate ∧ o ≠ .eventfdWrite)
    (hr : signalReact o p r p') : p.Drained p' := by
  cases o with
  | clearRxThread => exact absurd rfl hne.1
  | pthreadCreate => exact absurd rfl hne.2.1
  | eventfdWrite => exact absurd rfl hne.2.2
  | getRxThread =>
      obtain rfl := hr.2
      exact ⟨rfl, .inl rfl⟩
  | eventfdRead => exact ⟨hr.1, .inr hr.2⟩
  | _ => exact ⟨hr.1, .inl hr.2⟩

theorem signal_check {o : Op} (p : Signal)
    (hne : o ≠ .clearRxThread ∧ o ≠ .pthreadCreate ∧ o ≠ .eventfdWrite) : SignalCheck o p := by
  cases o with
  | pthreadCreate => exact absurd rfl hne.2.1
  | eventfdWrite => exact absurd rfl hne.2.2
  | _ => trivial

/-- What creates no thread, forgets none and signals none. -/
def CalmOp (o : Op) : Prop :=
  lockAct o = .plain ∧ o ≠ .clearRxThread ∧ o ≠ .pthreadCreate ∧ o ≠ .eventfdWrite

theorem calm_of_passive {o : Op} (h : passiveOp o = true) : CalmOp o := by
  unfold CalmOp
  cases o <;> first | cases h; done | simp [lockAct]

theorem signal_harmlessIn {o : Op} (ho : CalmOp o) : (signalRules b).HarmlessIn t o :=
  ⟨ho.1, fun p hp => ⟨signal_check p ho.2, fun _ _ hr => hp.drained (signal_drained ho.2 hr)⟩⟩

/-- The counter is empty from the read in `ant_enable` on. -/
theorem inside_antEnable_signal : (signalRules b).Inside t (antEnable b) := by
  have honly := antEnable_works (b := b)
  simp only [antEnable, Prog.op_bind, Prog.ret_bind] at honly ⊢
  obtain ⟨-, hrest⟩ := (Prog.only_op _ _).mp ((Prog.only_op _ _).mp honly |>.2 ())
  refine .op (signal_harmlessIn (by simp [CalmOp, lockAct])) fun _ =>
    Monitor.Triple.op (K := fun _ p => p.counter = 0) Monitor.stable_inv rfl
      (fun p _ => ⟨trivial, fun _ _ hr => hr.2⟩) fun result => ?_
  refine (Monitor.Triple.only stable_empty (hrest result) fun o ho => ⟨?_,
      fun p hp => ⟨?_, ?_⟩⟩).mono
    (fun _ hp => hp) fun _ _ hp _ => hp.2
  · cases o <;> first | rfl | cases ho
  · cases o <;> trivial
  · intro r p' hr
    cases o with
    | clearRxThread | eventfdWrite => cases ho
    | pthreadCreate => exact hr.trans hp
    | getRxThread => exact hr.2 ▸ hp
    | eventfdRead => exact hr.2
    | _ => exact hr.2.trans hp

theorem triple_forget (iRet : Int) :
    (signalRules b).Triple t (fun _ => True) (antDisableOut iRet) fun _ => Signal.Fresh := by
  simp only [antDisableOut, Prog.op_bind, Prog.ret_bind]
  refine .op (K := fun _ => Signal.Fresh) (fun _ _ _ _ => trivial) rfl (fun p _ => ⟨trivial, ?_⟩)
    fun _ => Monitor.Inside.op (signal_harmlessIn (by simp [CalmOp, lockAct]))
      fun _ => Monitor.Inside.ret _
  rintro r p' rfl hthread
  exact absurd rfl hthread

/-- `ant_disable` signals a thread that was recorded, and forgets it afterwards. -/
theorem inside_antDisable_signal : (signalRules b).Inside t (antDisable b) := by
  have hclose : (signalRules b).Triple t (fun _ => True)
      (disableChannels b b.channels >>= fun _ => antDisableOut 0) fun _ => Signal.Fresh := by
    refine .bind ((Monitor.Triple.only (fun _ _ _ _ => trivial) (disableChannels_only _)
      fun o ho => ⟨?_, fun p _ => ⟨?_, fun _ _ _ => trivial⟩⟩).mono (fun _ hp => hp)
        fun _ _ hp => hp.2) fun _ => triple_forget 0
    · cases o <;> first | rfl | cases ho
    · cases o <;> trivial
  simp only [antDisable, Prog.op_bind, Prog.ret_bind]
  refine .op (signal_harmlessIn (by simp [CalmOp, lockAct])) fun _ =>
    .op (signal_harmlessIn (by simp [CalmOp, lockAct])) fun _ =>
      Monitor.Triple.op (K := fun h p => p.Fresh ∧ p.stRxThread = h) Monitor.stable_inv rfl
        (fun p hp => ⟨trivial, fun _ _ hr => ⟨hr.2 ▸ hp, hr.2 ▸ hr.1.symm⟩⟩) fun h =>
          .ite (fun hthread => ?_) fun _ => hclose.mono (fun _ _ => trivial) fun _ _ hp => hp
  have hstable : (signalRules b).Stable fun p => p.Fresh ∧ p.stRxThread = h :=
    stable_drained fun _ _ hs hp => ⟨hp.1.drained hs, hs.stRxThread.trans hp.2⟩
  refine .op (K := fun _ _ => True) hstable rfl
    (fun p hp => ⟨hp.1 (hp.2 ▸ hthread), fun _ _ _ => trivial⟩) fun written =>
      .ite (fun _ => triple_forget _) fun _ => ?_
  refine .op (K := fun _ _ => True) (fun _ _ _ _ => trivial) rfl
    (fun p _ => ⟨trivial, fun _ _ _ => trivial⟩) fun h' => ?_
  exact .op (K := fun _ _ => True) (fun _ _ _ _ => trivial) rfl
    (fun p _ => ⟨trivial, fun _ _ _ => trivial⟩) fun joined =>
      .ite (fun _ => triple_forget _) fun _ => hclose

theorem signal_upheld : Upheld (signalRules b) where
  owner_eq := rfl
  lockAct_eq := rfl
  lockAnswer_eq := rfl
  role_eq := rfl
  outer o ho := by
    have hcalm : CalmOp o := ho.elim calm_of_passive fun hkeep => by
      unfold CalmOp
      cases o <;> first | cases hkeep; done | simp [lockAct]
    exact ⟨hcalm.1, fun p r p' hr => signal_drained hcalm.2 hr⟩
  inner _ _ ho := signal_harmlessIn (calm_of_passive ho)
  unlock _ _ _ := trivial
  enable _ := inside_antEnable_signal
  disable _ := inside_antDisable_signal
  stop _ _ hprog := by
    refine inside_stop ⟨rfl, fun p _ => ⟨trivial, ?_⟩⟩
      (fun _ ho => signal_harmlessIn (calm_of_passive ho)) inside_antDisable_signal hprog
    rintro r p' rfl hthread
    exact absurd rfl hthread

end counting

section runs
variable {b : Build} {stateCallback rxCallback : Bool} {c : SignallingConfig}

theorem signalLock_holds
    (h : (signalling b).Reachable (signallingInit stateCallback rxCallback) c) :
    (signalLock b).Holds c := by
  refine Monitor.holds_path ((signalLock_sameRules b).checked signal_upheld.checked)
    (fun x mv _ => Monitor.allowed_of_forall (fun _ _ _ _ => trivial) x mv)
    ⟨fun _ hthread => absurd rfl hthread, fun t ht => ?_, fun t th hth => ?_,
      fun t th hth => ?_⟩ h
  · cases ht
  · cases hth
  · cases hth

/-- Threads are created, and signals written, with an empty counter. -/
theorem counter_empty (h : (signalling b).Reachable (signallingInit stateCallback rxCallback) c)
    {t : Tid} {l : Label} {o : Op} {k : o.Res → Cmd (Option Label)}
    (hth : c.pool t = some ⟨l, .op o k⟩) (ho : o = .pthreadCreate ∨ o = .eventfdWrite) :
    c.shared.counter = 0 := by
  have hholds := signalLock_holds h
  rcases ho with rfl | rfl
  · exact (hholds.inside hth rfl ⟨0, 0⟩ ⟨1, 0⟩ 0 rfl
      fun h => by cases h.stRxThread).2
  · exact (hholds.inside hth rfl ⟨0, 0⟩ ⟨0, 1⟩ 0 ⟨rfl, Nat.le_refl _⟩
      fun h => by simpa using h.counter).2

/-- What a thread does on the machine that counts. -/
theorem signalling_act {d : SignallingConfig} {t : Tid} {env : Env}
    (hs : (signalling b).step (.act t env) c = some d) :
    ∃ l o k, (machine b).Acts t env c.threads d.threads l o k ∧
      d.shared.counter = counterAfter o c.shared.counter ∧
        signalAnswers env c.shared.counter o = true := by
  obtain ⟨l, o, k, ha⟩ := Machine.step_act hs
  obtain ⟨l', o', k', ha'⟩ := Machine.step_act ((signalling_projects b).step hs)
  obtain ⟨rfl, hcode⟩ := Thread.mk.inj (Option.some.inj (ha.thread.symm.trans ha'.thread))
  cases hcode
  exact ⟨l, o, k, ha', by rw [ha.shared]; rfl, (Bool.and_eq_true_iff.mp ha.ready).2⟩

/-- The counter never gets beyond one. -/
theorem counter_le_one (h : (signalling b).Reachable (signallingInit stateCallback rxCallback) c) :
    c.shared.counter ≤ 1 := by
  induction h with
  | refl => exact Nat.zero_le 1
  | @tail x y mv hp _ hs ih =>
      cases mv with
      | start t l =>
          rw [(Machine.step_start hs).2.2]
          exact ih
      | act t env =>
          obtain ⟨l, o, k, ha, hcounter, -⟩ := signalling_act hs
          rw [hcounter]
          cases o with
          | eventfdWrite =>
              have hempty := counter_empty hp ha.thread (.inr rfl)
              simp only [counterAfter, hempty]
              omega
          | eventfdRead => exact Nat.zero_le 1
          | _ => exact ih

section machine
variable {c d : ThreadConfig} {t : Tid} {env : Env} {l : Label} {o : Op}
  {k : o.Res → Cmd (Option Label)} {n : Nat}

theorem receiving_congr (h : d.pool (.rx n) = c.pool (.rx n)) : receiving d n = receiving c n := by
  simp only [receiving, h]

/-- A receive thread was on its way to the loop before, or has been created. -/
theorem receiving_acts
    (hreach : (machine b).Reachable (initConfig stateCallback rxCallback) c)
    (ha : (machine b).Acts t env c d l o k) (hrx : receiving d n = true) :
    receiving c n = true ∨ o = .pthreadCreate := by
  obtain ⟨th, hth, hlive, hlabel⟩ := receiving_iff.mp hrx
  rcases ha.cases hth with ⟨rfl, rfl⟩ | ⟨lu, hspawn, -⟩ | ⟨-, hold⟩
  · refine .inl (receiving_iff.mpr ⟨_, ha.thread, rfl, ?_⟩)
    have hgoes := reachable_goesTo hreach _ _ ha.thread
      ((machine b).effect (.rx n) env o c.shared).1
    rcases (machine b).resume_cases l (k ((machine b).effect (.rx n) env o c.shared).1) with
      ⟨l', hk, hres⟩ | hres
    · rw [hres] at hlabel
      rw [hk] at hgoes
      cases l with
      | rxStart => exact .inl rfl
      | rxLoop => exact .inr rfl
      | enableRadio | disableRadio | hardReset | rxClose | doReset => cases hgoes
    · rw [hres] at hlabel
      exact hlabel
  · cases o <;> simp only [machine, spawned, reduceCtorEq] at hspawn
    exact .inr rfl
  · exact .inl (receiving_iff.mpr ⟨th, hold, hlive, hlabel⟩)

/-- Only a join ends a signal. -/
theorem signalled_kept {s : Shared} (ho : ∀ h, o ≠ .pthreadJoin h) (hs : s.signalled = true) :
    (effect b t env o s).2.signalled = true := by
  have hlog (s' : Shared) (e : Event) (hs' : s'.signalled = true) (he : e.signal? ≠ some false) :
      (s'.log e).signalled = true := by
    rw [Shared.log_signalled]
    cases hsig : e.signal? with
    | none => exact hs'
    | some v =>
        cases v with
        | false => exact absurd hsig he
        | true => rfl
  cases o with
  | pthreadJoin h => exact absurd rfl (ho h)
  | mutexTrylock =>
      simp only [effect]
      split <;> exact hs
  | openDevice | eventfdWrite | pthreadCreate | keepAliveCreate =>
      simp only [effect]
      split
      · exact hlog _ _ hs (by simp [Event.signal?])
      · exact hs
  | funcStart | funcEnd | stateCallback | closeDevice | vendorInit | powerCtrl | vendorCleanup
    | pthreadDetach | readChannelMsg => exact hlog _ _ hs (by simp [Event.signal?])
  | _ => exact hs

end machine

/-- A receive thread finds a signal only while `ant_disable` waits to join a thread. -/
theorem signalled_of_receiving
    (h : (signalling b).Reachable (signallingInit stateCallback rxCallback) c) {n : Nat}
    (hrx : receiving c.threads n = true) (hcounter : c.shared.counter ≠ 0) :
    c.shared.shared.signalled = true := by
  induction h generalizing n with
  | refl => cases hrx
  | @tail x y mv hp _ hs ih =>
      cases mv with
      | start t l =>
          have hstart := start_rx ((signalling_projects b).step hs)
          have hsame : receiving (SignallingConfig.threads x) n = true :=
            (receiving_congr (hstart.2 n)).symm.trans hrx
          rw [(Machine.step_start hs).2.2] at hcounter ⊢
          exact ih hsame hcounter
      | act t env =>
          obtain ⟨l, o, k, ha, hafter, hanswers⟩ := signalling_act hs
          have hpath := signals_get_through hp
          have hshared : y.shared.shared = (effect b t env o x.shared.shared).2 := ha.shared
          rw [hafter] at hcounter
          rw [hshared]
          rcases receiving_acts hpath.reachable ha hrx with hbefore | rfl
          · by_cases hjoin : ∃ h, o = .pthreadJoin h
            · -- the thread that is joined has terminated, and was the only one
              obtain ⟨h, rfl⟩ := hjoin
              obtain ⟨-, hrecorded, -⟩ := join_facts (stateLock_holds hpath.reachable) ha.thread
              have hended : isReady (SignallingConfig.threads x).pool (.pthreadJoin h)
                  x.shared.shared =
                  true := ha.ready
              obtain ⟨th, hth, hlive, -⟩ := receiving_iff.mp hbefore
              have hn : x.shared.shared.stRxThread = n := (recorded_of_receiving hpath hbefore).2
              rw [hrecorded, show (SignallingConfig.threads x).shared = x.shared.shared from rfl,
                hn,
                isReady, hth, Option.any_some, hlive] at hended
              cases hended
            · by_cases hwrite : o = .eventfdWrite
              · subst hwrite
                have hwritten : env.eventfdWrite = true := hanswers
                simp [effect, hwritten, Event.signal?]
              · refine signalled_kept (fun h ho => hjoin ⟨h, ho⟩)
                    (ih hbefore fun hzero => hcounter ?_)
                cases o <;> first | exact hzero | rfl | exact absurd rfl hwrite
          · exact absurd (counter_empty hp ha.thread (.inl rfl)) hcounter

/-- With an eventfd there is one receiver at most, the counter never gets beyond one,
and a receive thread that finds a signal is waited for under the lock. -/
theorem shutdown_honest
    (h : (signalling b).Reachable (signallingInit stateCallback rxCallback) c) :
    c.shared.counter ≤ 1 ∧ ∀ n, receiving c.threads n = true →
      c.shared.shared.stRxThread = n ∧ (c.shared.counter ≠ 0 →
        c.shared.shared.signalled = true ∧ c.shared.shared.stEnabledStatusLock ≠ none) := by
  have hpath := signals_get_through h
  refine ⟨counter_le_one h, fun n hrx => ⟨(recorded_of_receiving hpath hrx).2, fun hcounter => ?_⟩⟩
  have hsignalled := signalled_of_receiving h hrx hcounter
  refine ⟨hsignalled, fun hfree => ?_⟩
  have hquiet := ((stateLock_holds hpath.reachable).free hfree).quiet
  cases hquiet.symm.trans hsignalled

/-- An enable, and a disable up to its shutdown signal. -/
def signallingOnce : List (Move Label Tid Env) :=
  .start (.app 0) .enableRadio :: List.replicate 29 (.act (.app 0) { eventfdRead := .eagain }) ++
    .start (.app 1) .disableRadio :: List.replicate 13 (.act (.app 1) {})

set_option maxRecDepth 4000 in
theorem shutdown_honest_signalled : ∃ c : SignallingConfig,
    (c.shared.counter = 1 ∧ receiving c.threads 1 = true) ∧
      c.shared.shared.signalled = true ∧ c.shared.shared.stEnabledStatusLock ≠ none := by
  obtain ⟨c, hpath, hc⟩ := Machine.exec_any (signalling .smd) (fun _ _ => true) signallingOnce
    (signallingInit true true) (fun c => c.shared.counter = 1 &&
      receiving (SignallingConfig.threads c) 1)
    (by decide)
  obtain ⟨hcounter, hrx⟩ := Bool.and_eq_true_iff.mp hc
  have hone := of_decide_eq_true hcounter
  exact ⟨c, ⟨hone, hrx⟩, ((shutdown_honest hpath.reachable).2 1 hrx).2 (by omega)⟩

end runs
end AntHal
