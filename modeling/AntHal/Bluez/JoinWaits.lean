import AntHal.Bluez.DisableWindow
import AntHal.Bluez.Operations

/-!
Can a join wait for a receive thread that goes on?

The loop of the receive thread stops by the answer of the power library, which
its guard stores over DISABLING. A call that joins it with both locks waits for
as long as the guard finds the radio enabled.

The call goes on to its join from its store of DISABLING, or from the status that
it reads, and from there on only an answer of `ant_is_enabled` brings ENABLED back.
-/

namespace AntHal.Bluez

open Concurrency

section property
variable (b : Build) (c : ThreadConfig)

/-- A call of the application, with both locks, is in the join of thread `h`. -/
structure Joining (n h : Nat) : Prop where
  locked : ∀ lock, c.shared.locks lock = some (.app n)
  joins : ∃ l k, c.pool (.app n) = some ⟨l, .op (.pthreadJoin h) k⟩

/-- The loop guard of thread `h` evaluates to true. -/
structure GuardHolds (h : Nat) : Prop where
  returns : ∃ rxSocket k, c.pool (.rx h) = some ⟨.rxLoop rxSocket, .op .returnRadioStatus k⟩
  enabled : c.shared.radioStatus = .enabled

/-- No join waits for a receive thread that has no reason to stop. -/
def JoinsStopping : Prop := ∀ n h, Joining c n h → ¬ GuardHolds c h

/-- What a call still does before it joins the receive thread. -/
def beforeJoin : Op → Prop
  | .getStateCallback | .getRadioStatus | .stateCallback _ | .antDisable | .getThread => True
  | _ => False

/-- There is a thread to join. -/
def finds : (o : Op) → o.Res → Prop
  | .getThread, r => r ≠ 0
  | _, _ => True

/-- The code reports, calls `ant_disable`, and joins the thread that it finds. -/
def JoinsNext {α : Type} (p : Cmd α) : Prop :=
  p.Until finds (fun o => ∃ h, o = .pthreadJoin h) (fun o => ¬ beforeJoin o) fun _ => False

/-- A call, with both locks, goes on to the join, or is in it. -/
structure Committed (n : Nat) : Prop where
  locked : ∀ lock, c.shared.locks lock = some (.app n)
  next : ∃ l p, c.pool (.app n) = some ⟨l, p⟩ ∧ JoinsNext p

/-- Thread `u` was answered 1 by `ant_is_enabled`, and is still to store ENABLED. -/
def StoresAnswer (u : Tid) : Prop :=
  ∃ l k, c.pool u = some ⟨l, .op (.setRadioStatus .enabled) k⟩ ∧ l ≠ .enableRadio

/-- The condition on a step. -/
structure Answers (mv : Move Label Tid Env) : Prop where
  /-- When a call begins to go on to its join, no answer 1 is still to be stored. -/
  pending : ∀ n d, (machine b).step mv c = some d → Committed d n → ¬ Committed c n →
    ∀ u, ¬ StoresAnswer c u
  /-- Until the join has returned `ant_is_enabled` answers 1 to nobody. -/
  silent : ∀ t env l k n, mv = .act t env → c.pool t = some ⟨l, .op .antIsEnabled k⟩ →
    Committed c n → env.antIsEnabled ≠ 1

end property

section entering
variable {b : Build} {α β : Type}

def Joinless (o : Op) : Prop := ∀ h, o ≠ .pthreadJoin h

theorem joinless_of_quiet {o : Op} (ho : Quiet o) : Joinless o := by
  rintro h rfl
  cases ho

theorem exists_finds (o : Op) : ∃ r, finds o r := by
  cases o with
  | getThread => exact ⟨1, Nat.one_ne_zero⟩
  | _ => exact ⟨(effect (.app 0) {} _ (.init true true)).1, trivial⟩

/-- An operation by which a call finds, or makes, the radio not enabled. -/
def settles : (o : Op) → o.Res → Prop
  | .setRadioStatus status, _ => status ≠ .enabled
  | .returnRadioStatus, r => r ≠ .enabled
  | _, _ => False

/-- The code comes to a join by no other way. -/
def Enters (o : Op) (k : o.Res → Cmd α) : Prop :=
  ∀ r, JoinsNext (k r) → JoinsNext (.op o k) ∨ settles o r

/-- The code is not yet bound to a join, and will be as stated. -/
structure Away (p : Cmd α) : Prop where
  free : ¬ JoinsNext p
  enters : p.Always Enters

theorem Away.ret (a : α) : Away (.ret a : Cmd α) := ⟨id, trivial⟩

theorem not_joinsNext_op {o : Op} {k : o.Res → Cmd α} (ho : Joinless o)
    (hk : ∀ r, ¬ JoinsNext (k r)) : ¬ JoinsNext (.op o k) := by
  rintro (⟨h, hjoin⟩ | ⟨-, hnext⟩)
  · exact ho h hjoin
  · obtain ⟨r, hr⟩ := exists_finds o
    exact hk r (hnext r hr)

theorem Away.op {o : Op} {k : o.Res → Cmd α} (ho : Joinless o) (hk : ∀ r, Away (k r)) :
    Away (.op o k) :=
  ⟨not_joinsNext_op ho fun r => (hk r).free, fun r h => absurd h (hk r).free,
    fun r => (hk r).enters⟩

/-- The operation from which on the call goes on to its join. -/
theorem Away.enter {o : Op} {k : o.Res → Cmd α} (ho : Joinless o) (hstop : ¬ beforeJoin o)
    (hsettles : ∀ r, JoinsNext (k r) → settles o r) (hk : ∀ r, (k r).Always Enters) :
    Away (.op o k) := by
  refine ⟨?_, fun r h => .inr (hsettles r h), hk⟩
  rintro (⟨h, hjoin⟩ | ⟨hgo, -⟩)
  · exact ho h hjoin
  · exact hgo hstop

theorem Away.ite {c : Prop} [Decidable c] {p q : Cmd α} (hp : c → Away p) (hq : ¬ c → Away q) :
    Away (if c then p else q) := by
  split
  · exact hp ‹_›
  · exact hq ‹_›

theorem Away.only {P : β → Prop} {p : Cmd β} {f : β → Cmd α} (h : p.Only Joinless P)
    (hf : ∀ a, Away (f a)) : Away (p >>= f) := by
  induction p with
  | ret a => exact hf a
  | op o k ih =>
      obtain ⟨ho, hk⟩ := (Prog.only_op o k).mp h
      exact .op ho fun r => ih r (hk r)

theorem away_of_only {P : α → Prop} {p : Cmd α} (h : p.Only Joinless P) : Away p := by
  induction p with
  | ret a => exact .ret a
  | op o k ih =>
      obtain ⟨ho, hk⟩ := (Prog.only_op o k).mp h
      exact .op ho fun r => ih r (hk r)

theorem away_of_quietly {P : α → Prop} {p : Cmd α} (h : Quietly P p) : Away p :=
  away_of_only (h.mono (fun _ => joinless_of_quiet) fun _ ha => ha)

theorem Away.quietly {P : β → Prop} {p : Cmd β} {f : β → Cmd α} (h : Quietly P p)
    (hf : ∀ a, Away (f a)) : Away (p >>= f) :=
  .only (h.mono (fun _ => joinless_of_quiet) fun _ ha => ha) hf

theorem joinsNext_bind {P : β → Prop} {p : Cmd β} {f : β → Cmd α} (h : p.Only beforeJoin P)
    (hf : ∀ a, JoinsNext (f a)) : JoinsNext (p >>= f) :=
  (Prog.until_bind p f).mpr
    ((h.mono (fun _ ho => ho) fun a _ => hf a).until fun _ ho hstop => hstop ho)

theorem always_beforeJoin {P : β → Prop} {p : Cmd β} {f : β → Cmd α} (h : p.Only beforeJoin P)
    (hf : ∀ a, JoinsNext (f a)) (hA : ∀ a, (f a).Always Enters) : (p >>= f).Always Enters := by
  induction p with
  | ret a => exact hA a
  | op o k ih =>
      refine ⟨fun _ _ => .inl (joinsNext_bind h hf), fun r => ?_⟩
      exact ih r (((Prog.only_op o k).mp h).2 r)

theorem joinThread_joinsNext (f : Unit → Cmd α) : JoinsNext (joinThread >>= f) := by
  simp only [joinThread, Prog.op_bind, Prog.ret_bind, Prog.pure_eq]
  refine .step (not_not.mpr trivial) fun thread (hthread : thread ≠ 0) => ?_
  rw [if_pos hthread]
  exact .step (not_not.mpr trivial) fun h _ => .reached ⟨h, rfl⟩

theorem joinThread_enters {f : Unit → Cmd α} (hf : Away (f ())) :
    (joinThread >>= f).Always Enters := by
  have hnext := joinThread_joinsNext f
  simp only [joinThread, Prog.op_bind, Prog.ret_bind, Prog.pure_eq] at hnext ⊢
  refine ⟨fun _ _ => .inl hnext, fun thread => ?_⟩
  dsimp only
  split
  · refine ⟨fun h _ => .inl (.step (not_not.mpr trivial) fun h _ => .reached ⟨h, rfl⟩), fun h => ?_⟩
    refine ⟨fun _ _ => .inl (.reached ⟨h, rfl⟩), fun _ => ?_⟩
    exact (Away.op (by simp [Joinless]) fun _ => hf).enters
  · exact hf.enters

theorem getAndSetRadioStatus_away {f : RadioStatus → Cmd α}
    (hsettles : ∀ status, JoinsNext (f status) → status ≠ .enabled)
    (hf : ∀ status, (f status).Always Enters) : Away (getAndSetRadioStatus b >>= f) := by
  simp only [getAndSetRadioStatus, Prog.op_bind, Prog.ret_bind]
  refine .op (by simp [Joinless]) fun _ => ?_
  rw [Prog.bind_assoc]
  refine .quietly (withPowerLibrary_quietly refreshRadioStatus_quietly) fun _ => ?_
  exact .enter (by simp [Joinless]) id hsettles hf

theorem reportRadioStatus_beforeJoin : reportRadioStatus.Only beforeJoin fun _ => True := by
  simp [reportRadioStatus, beforeJoin]

/-- A disable goes on to the join by its store, or by a read of DISABLED. -/
theorem beginDisabling_away {f : Unit → Cmd α} (hnext : JoinsNext (f ()))
    (hf : (f ()).Always Enters) : Away (beginDisabling b >>= f) := by
  have hdisable : JoinsNext (antDisable >>= fun _ => f ()) :=
    .step (not_not.mpr trivial) fun _ _ => hnext
  have hrest : (antDisable >>= fun _ => f ()).Always Enters :=
    ⟨fun _ _ => .inl hdisable, fun _ => hf⟩
  unfold beginDisabling
  split
  · simp only [Prog.bind_assoc]
    refine getAndSetRadioStatus_away (fun status hjoins => ?_) fun status => ?_
    · rintro rfl
      rcases hjoins with ⟨h, hjoin⟩ | ⟨hgo, -⟩
      · cases hjoin
      · exact hgo id
    · simp only [announceDisabling]
      split
      · refine ⟨fun _ _ => .inr (by simp [settles]), fun _ => ?_⟩
        change (reportRadioStatus >>= fun _ => antDisable >>= fun _ => f ()).Always Enters
        exact always_beforeJoin reportRadioStatus_beforeJoin (fun _ => hdisable) fun _ => hrest
      · exact hrest
  · exact .enter (by simp [Joinless]) id (fun _ _ => by simp [settles]) fun _ => hf

theorem antDisableRadio_away {f : AntStatus → Cmd α} (hf : ∀ a, Away (f a)) :
    Away (antDisableRadio b >>= f) := by
  have hlocked {g : AntStatus → Cmd α} (hg : ∀ a, Away (g a)) :
      Away (disableRadioLocked b >>= g) := by
    rw [disableRadioLocked, Prog.bind_assoc]
    refine beginDisabling_away ?_ ?_
    · rw [Prog.bind_assoc]
      exact joinThread_joinsNext _
    · rw [Prog.bind_assoc]
      refine joinThread_enters ?_
      rw [Prog.bind_assoc]
      exact .quietly getAndSetRadioStatus_quietly fun _ => hg _
  simp only [antDisableRadio, underTxLock, Prog.op_bind, Prog.ret_bind, Prog.pure_eq]
  refine .op (by simp [Joinless]) fun _ => .op (by simp [Joinless]) fun r => ?_
  split
  · exact .op (by simp [Joinless]) fun _ => hf _
  · rw [Prog.op_bind]
    refine .op (by simp [Joinless]) fun r => ?_
    split
    · exact .op (by simp [Joinless]) fun _ => hf _
    · rw [Prog.bind_assoc]
      exact hlocked fun _ =>
        .op (by simp [Joinless]) fun _ => .op (by simp [Joinless]) fun _ => hf _

theorem enableRadioLocked_away {f : AntStatus → Cmd α} (hf : ∀ a, Away (f a)) :
    Away (enableRadioLocked b >>= f) := by
  have hconnect (result : Int) : (connectThread b result).Only Joinless fun _ => True := by
    have henabled : (enabledWithThread b >>= fun _ => .ret AntStatus.success).Only Joinless
        fun _ => True :=
      (enabledWithThread_quietly.mono (fun _ => joinless_of_quiet) fun _ h => h).bind
        fun _ _ => trivial
    simp [connectThread, Joinless, henabled]
  have hrest {g : AntStatus → Cmd α} (hg : ∀ a, Away (g a)) :
      Away (powerOn b >>= fun result => connectThread b result >>= fun ret =>
        enableCleanUp b ret >>= fun _ => g ret) := by
    refine .quietly powerOn_quietly fun result => .only (hconnect result) fun ret => ?_
    exact .quietly (enableCleanUp_quietly ret) fun _ => hg ret
  simp only [enableRadioLocked, Prog.bind_assoc, Prog.pure_eq, Prog.ret_bind]
  refine getAndSetRadioStatus_away (fun status hjoins => ?_) fun status => ?_
  · rintro rfl
    exact (hrest hf).free hjoins
  · unfold beginEnabling
    split
    · rw [Prog.bind_assoc]
      refine joinThread_enters (.op (by simp [Joinless]) fun _ => ?_)
      exact .quietly (withPowerLibrary_quietly reportRadioStatus_quietly) fun _ => hrest hf
    · exact (hrest hf).enters

theorem antEnableRadio_away {f : AntStatus → Cmd α} (hf : ∀ a, Away (f a)) :
    Away (antEnableRadio b >>= f) := by
  simp only [antEnableRadio, underTxLock, Prog.op_bind, Prog.ret_bind, Prog.pure_eq]
  refine .op (by simp [Joinless]) fun _ => .op (by simp [Joinless]) fun r => ?_
  split
  · exact .op (by simp [Joinless]) fun _ => hf _
  · rw [Prog.bind_assoc]
    refine .quietly markEnabling_quietly fun _ => .op (by simp [Joinless]) fun r => ?_
    dsimp only
    split
    · exact .op (by simp [Joinless]) fun _ => hf _
    · change Away ((_ >>= _) >>= f)
      rw [Prog.bind_assoc]
      exact enableRadioLocked_away fun _ =>
        .op (by simp [Joinless]) fun _ => .op (by simp [Joinless]) fun _ => hf _

theorem body_away (l : Label) : Away (body b l) := by
  cases l with
  | enableRadio => exact antEnableRadio_away fun _ => .ret none
  | disableRadio => exact antDisableRadio_away fun _ => .ret none
  | radioEnabledStatus => exact .quietly antRadioEnabledStatus_quietly fun _ => .ret none
  | txMessage pucMesg => exact away_of_quietly (antTxMessage_quietly pucMesg)
  | txWrite tx => exact away_of_quietly (quietly_of_transfers (txWrite_transfers tx))
  | txWait tx => exact away_of_quietly (quietly_of_transfers (txWait_transfers tx))
  | txRead tx => exact away_of_quietly (quietly_of_transfers (txRead_transfers tx))
  | txClose tx => exact away_of_quietly (quietly_of_transfers (txClose_transfers tx))
  | rxStart => exact away_of_quietly (quietly_of_transfers rxStart_transfers)
  | rxLoop rxSocket => exact away_of_quietly (rxLoop_quietly rxSocket)
  | rxPoll rxSocket => exact away_of_quietly (quietly_of_transfers (rxPoll_transfers rxSocket))
  | rxRead rxSocket => exact away_of_quietly (quietly_of_transfers (rxRead_transfers rxSocket))
  | rxClose rxSocket =>
      refine .op (by simp [Joinless]) fun result => ?_
      have hclean : Away (crashCleanUp b result >>= fun _ => close rxSocket >>= fun _ =>
          (.ret none : Cmd (Option Label))) := by
        refine .only (P := fun _ => True) ?_ fun _ => .op (by simp [Joinless]) fun _ => .ret none
        refine Prog.only_ite.mpr ⟨fun _ => ?_, fun _ => trivial⟩
        have hcrash : (crashDisable b).Only Joinless fun _ => True :=
          crashDisable_quietly.mono (fun _ => joinless_of_quiet) fun _ h => h
        exact hcrash.bind fun _ _ => by simp [Joinless]
      exact hclean

end entering

section ownership
variable {b : Build} {α β : Type}

/-- The code releases enableLock, and does not take it before. -/
def ReleasesNext (p : Cmd α) : Prop :=
  p.Until (fun _ _ => True) (lockAct · = .unlock) (lockAct · = .lock) fun _ => False

/-- A status is stored by code that still has to release enableLock. -/
def StoresUnderLock (o : Op) (k : o.Res → Cmd α) : Prop :=
  ∀ status, o = .setRadioStatus status → ReleasesNext (.op o k)

structure UnderLock (p : Cmd α) : Prop where
  releases : ReleasesNext p
  stores : p.Always StoresUnderLock

theorem UnderLock.op {o : Op} {k : o.Res → Cmd α} (hact : lockAct o = .plain)
    (hk : ∀ r, UnderLock (k r)) : UnderLock (.op o k) := by
  have hreleases : ReleasesNext (.op o k) := by
    refine .step ?_ fun r _ => (hk r).releases
    rw [hact]
    exact LockAct.noConfusion
  exact ⟨hreleases, fun _ _ => hreleases, fun r => (hk r).stores⟩

theorem UnderLock.unlock {o : Op} {k : o.Res → Cmd α} (hact : lockAct o = .unlock)
    (hk : ∀ r, (k r).Always StoresUnderLock) : UnderLock (.op o k) :=
  ⟨.reached hact, fun _ _ => .reached hact, hk⟩

theorem UnderLock.only {P : β → Prop} {p : Cmd β} {f : β → Cmd α}
    (h : p.Only (lockAct · = .plain) P) (hf : ∀ a, UnderLock (f a)) : UnderLock (p >>= f) := by
  induction p with
  | ret a => exact hf a
  | op o k ih =>
      obtain ⟨ho, hk⟩ := (Prog.only_op o k).mp h
      exact .op ho fun r => ih r (hk r)

theorem storesUnderLock_of_ne {o : Op} {k : o.Res → Cmd α}
    (ho : ∀ status, o ≠ .setRadioStatus status) (hk : ∀ r, (k r).Always StoresUnderLock) :
    (.op o k : Cmd α).Always StoresUnderLock :=
  ⟨fun status h => absurd h (ho status), hk⟩

theorem plain_of_control {o : Op} (ho : IsControl o) : lockAct o = .plain := by
  cases o <;> first | rfl | cases ho

theorem antEnableRadio_stores {f : AntStatus → Cmd α} (hf : ∀ a, (f a).Always StoresUnderLock) :
    (antEnableRadio b >>= f).Always StoresUnderLock := by
  have hmark : markEnabling.Only (lockAct · = .plain) fun _ => True := by
    simp [markEnabling, lockAct]
  have hlocked : (enableRadioLocked b).Only (lockAct · = .plain) fun _ => True :=
    enableRadioLocked_controls.mono (fun _ => plain_of_control) fun _ h => h
  simp only [antEnableRadio, underTxLock, Prog.op_bind, Prog.ret_bind, Prog.pure_eq]
  refine storesUnderLock_of_ne (by simp) fun _ => storesUnderLock_of_ne (by simp) fun r => ?_
  split
  · exact storesUnderLock_of_ne (by simp) fun _ => hf _
  · rw [Prog.bind_assoc]
    refine (UnderLock.only hmark fun _ => UnderLock.op rfl fun r => ?_).stores
    dsimp only
    split
    · exact .unlock rfl fun _ => hf _
    · change UnderLock ((_ >>= _) >>= f)
      rw [Prog.bind_assoc]
      exact .only hlocked fun _ => .op rfl fun _ => .unlock rfl fun _ => hf _

/-- Where `ant_enable_radio` stores a status it is under enableLock. -/
theorem body_stores (l : Label) :
    (body b l).Always fun o k => l = .enableRadio → StoresUnderLock o k := by
  by_cases hl : l = .enableRadio
  · subst hl
    have h : (body b .enableRadio).Always StoresUnderLock := antEnableRadio_stores fun _ => trivial
    exact h.mono fun _ _ ho _ => ho
  · exact Prog.always_of_forall fun _ _ h => absurd h hl

end ownership

section steps
variable {b : Build} {c d : ThreadConfig} {n h : Nat} {mv : Move Label Tid Env}
  {stateCallback rxCallback : Bool}

theorem locks_effect {t u : Tid} {env : Env} {o : Op} {s : Shared} {lock : Lock} (htu : t ≠ u)
    (hlock : (effect u env o s).2.locks lock = some t) : s.locks lock = some t := by
  have hset : ∀ l owner, owner ≠ some t → (s.setLock l owner).locks lock = some t →
      s.locks lock = some t := by
    intro l owner howner hl
    by_cases heq : lock = l
    · subst heq
      rw [s.setLock_self] at hl
      exact absurd hl howner
    · rwa [s.setLock_other heq] at hl
  have hmine : some u ≠ some t := fun heq => htu (Option.some.inj heq).symm
  cases o with
  | mutexLock l =>
      simp only [effect] at hlock
      split at hlock
      · exact hset l _ hmine hlock
      · exact hlock
  | mutexTrylock =>
      simp only [effect] at hlock
      split at hlock
      · exact hlock
      · split at hlock
        · exact hset .enableLock _ hmine hlock
        · exact hlock
  | mutexUnlock l => exact hset l none (by simp) hlock
  | unlockReturn f ret => exact hset .enableLock none (by simp) hlock
  | pthreadCreate | read | writev =>
      simp only [effect] at hlock
      split at hlock <;> exact hlock
  | _ => exact hlock

theorem owner_of_stores (hreach : (machine b).Reachable (initConfig stateCallback rxCallback) c)
    {t : Tid} {status : RadioStatus} {k : Unit → Cmd (Option Label)}
    (hth : c.pool t = some ⟨.enableRadio, .op (.setRadioStatus status) k⟩) :
    c.shared.locks .enableLock = some t := by
  have hstores : Machine.PoolAlways (fun l o k => l = .enableRadio → StoresUnderLock o k) c :=
    hreach.invariant (fun _ _ _ hx _ hs => Machine.poolAlways_step body_stores hx hs)
      fun _ _ hth => by cases hth
  have hreleases : ReleasesNext (.op (.setRadioStatus status) k) :=
    (hstores t _ hth).1 rfl status rfl
  exact (enableLock_holds hreach).owner_of_owes {} (fun _ => trivial) hth hreleases

theorem Joining.committed (hjoin : Joining c n h) : Committed c n := by
  obtain ⟨hlocked, l, k, hth⟩ := hjoin
  exact ⟨hlocked, l, _, hth, .reached ⟨h, rfl⟩⟩

theorem joinsNext_resume {l : Label} {p : Cmd (Option Label)}
    (h : JoinsNext ((machine b).resume l p).code) : JoinsNext p := by
  obtain ⟨l', -, hr⟩ | hr := (machine b).resume_cases l p
  · rw [hr] at h
    exact absurd h (body_away l').free
  · rw [hr] at h
    exact h

/-- On its way to the join a call keeps its locks. -/
theorem joinsNext_locks {t : Tid} {env : Env} {o : Op} {k : o.Res → Cmd (Option Label)}
    (h : JoinsNext (.op o k)) (s : Shared) : (effect t env o s).2.locks = s.locks := by
  obtain ⟨h, rfl⟩ | ⟨hgo, -⟩ := h
  · rfl
  · have hbefore : beforeJoin o := not_not.mp hgo
    cases o <;> first | rfl | exact hbefore.elim

theorem committed_other {t : Tid} {env : Env} {l : Label} {o : Op}
    {k : o.Res → Cmd (Option Label)} (ha : (machine b).Acts t env c d l o k) (ht : t ≠ .app n)
    (hd : Committed d n) : Committed c n := by
  obtain ⟨hlocked, l', p, hth, hnext⟩ := hd
  refine ⟨fun lock => ?_, l', p, ?_, hnext⟩
  · have hlock := hlocked lock
    rw [ha.shared] at hlock
    exact locks_effect (Ne.symm ht) hlock
  · obtain ⟨heq, -⟩ | ⟨lu, hspawn, -⟩ | ⟨-, hold⟩ := ha.cases hth
    · exact absurd heq.symm ht
    · obtain ⟨-, ⟨handle, hrx⟩, -⟩ := spawned_rx hspawn
      cases hrx
    · exact hold

/-- A call begins to go on to its join by a store or a read of a status that is not ENABLED. -/
theorem committed_new (hreach : (machine b).Reachable (initConfig stateCallback rxCallback) c)
    (hs : (machine b).step mv c = some d) (hd : Committed d n) (hc : ¬ Committed c n) :
    ∃ env l o k, mv = .act (.app n) env ∧ (machine b).Acts (.app n) env c d l o k ∧
      settles o (effect (.app n) env o c.shared).1 := by
  have henters : Machine.PoolAlways (fun _ => Enters) c :=
    hreach.invariant
      (fun _ _ _ hx _ hs => Machine.poolAlways_step (fun l => (body_away l).enters) hx hs)
      fun _ _ hth => by cases hth
  cases mv with
  | start t l =>
      obtain ⟨-, -, hnew⟩ := Machine.step_start hs
      have hshared : d.shared = c.shared := by rw [hnew]
      obtain ⟨hlocked, l', p, hth, hnext⟩ := hd
      rw [hshared] at hlocked
      obtain ⟨-, heq⟩ | ⟨-, hold⟩ := Machine.step_start_cases hs hth
      · cases heq
        exact absurd hnext (body_away l).free
      · exact absurd ⟨hlocked, l', p, hold, hnext⟩ hc
  | act t env =>
      obtain ⟨l, o, k, ha⟩ := Machine.step_act hs
      by_cases ht : t = .app n
      · subst ht
        obtain ⟨hlocked, l', p, hth, hnext⟩ := hd
        rw [ha.self.2] at hth
        have hcode := congrArg Thread.code (Option.some.inj hth)
        rw [← show _ = p from hcode] at hnext
        refine ⟨env, l, o, k, rfl, ha, ?_⟩
        refine ((henters _ _ ha.thread).1 _ (joinsNext_resume hnext)).resolve_left fun hjoins => ?_
        have hlocks : d.shared.locks = c.shared.locks := by
          rw [ha.shared]
          exact joinsNext_locks hjoins c.shared
        exact hc ⟨fun lock => hlocks ▸ hlocked lock, l, _, ha.thread, hjoins⟩
      · exact absurd (committed_other ha ht hd) hc

end steps

section runs
variable {b : Build} {c d : ThreadConfig} {mv : Move Label Tid Env} {v : Prop}
  {stateCallback rxCallback : Bool}

/-- No thread stores ENABLED without being told, except for `ant_enable_radio`. -/
abbrev StoresTold (v : Prop) (c : ThreadConfig) : Prop :=
  Machine.PoolBacked (· = .enableRadio) (· = .setRadioStatus .enabled) toldEnabled v c

theorem storesTold_step (h : StoresTold v c) (hs : (machine b).step mv c = some d)
    (htold : ∀ t env l o k, mv = .act t env → c.pool t = some ⟨l, .op o k⟩ → l ≠ .enableRadio →
      toldEnabled o (effect t env o c.shared).1 → v) : StoresTold v d := by
  refine Machine.poolBacked_step (fun l hl => (body_told hl).weaken ?_) h hs htold
  rintro o rfl
  rfl

theorem storesTold_reachable
    (h : (machine b).Reachable (initConfig stateCallback rxCallback) c) : StoresTold True c :=
  h.invariant (fun _ _ _ hx _ hs => storesTold_step hx hs fun _ _ _ _ _ _ _ _ _ => trivial)
    fun _ _ hth => by cases hth

theorem storesTold_of_storesAnswer (h : StoresTold True c) (hnone : ∀ u, ¬ StoresAnswer c u) :
    StoresTold False c := by
  rintro u ⟨l, code⟩ hth hl
  have htold := h u _ hth hl
  cases code with
  | ret a => trivial
  | op o k =>
      refine ⟨?_, htold.2⟩
      rintro rfl
      exact hnone u ⟨l, k, hth, hl⟩

/-- While a call goes on to its join, the radio is not enabled and nobody is told that it is. -/
def Heeded (c : ThreadConfig) : Prop :=
  ∀ n, Committed c n → c.shared.radioStatus ≠ .enabled ∧ StoresTold False c

theorem Heeded.joinsStopping (hI : Heeded c) : JoinsStopping c :=
  fun n _ hjoin hguard => (hI n hjoin.committed).1 hguard.enabled

theorem settles_status {t : Tid} {env : Env} {o : Op} {s : Shared}
    (h : settles o (effect t env o s).1) : (effect t env o s).2.radioStatus ≠ .enabled := by
  cases o with
  | setRadioStatus | returnRadioStatus => exact h
  | _ => exact h.elim

/-- A call that begins to go on to its join finds no answer that is still to be stored. -/
theorem heeded_new (hreach : (machine b).Reachable (initConfig stateCallback rxCallback) c)
    (hC : Answers b c mv) (hs : (machine b).step mv c = some d) {n : Nat} (hd : Committed d n)
    (hc : ¬ Committed c n) : d.shared.radioStatus ≠ .enabled ∧ StoresTold False d := by
  obtain ⟨env, l, o, k, rfl, ha, hsettles⟩ := committed_new hreach hs hd hc
  have hstored : StoresTold False c :=
    storesTold_of_storesAnswer (storesTold_reachable hreach) (hC.pending n d hs hd hc)
  refine ⟨?_, storesTold_step hstored hs fun t env' l' o' k' hmv hth _ htold => ?_⟩
  · rw [ha.shared]
    exact settles_status hsettles
  · cases hmv
    cases hth.symm.trans ha.thread
    cases o with
    | setRadioStatus | returnRadioStatus => exact htold
    | _ => exact hsettles

/-- From there on nobody stores ENABLED, since nobody is told to. -/
theorem heeded_kept (hreach : (machine b).Reachable (initConfig stateCallback rxCallback) c)
    (hI : Heeded c) (hC : Answers b c mv) (hs : (machine b).step mv c = some d) {n : Nat}
    (hc : Committed c n) : d.shared.radioStatus ≠ .enabled ∧ StoresTold False d := by
  obtain ⟨hstatus, hstored⟩ := hI n hc
  refine ⟨?_, storesTold_step hstored hs fun t env l o k hmv hth _ htold => ?_⟩
  · cases mv with
    | start t l =>
        obtain ⟨-, -, rfl⟩ := Machine.step_start hs
        exact hstatus
    | act t env =>
        obtain ⟨l, o, k, ha⟩ := Machine.step_act hs
        rw [ha.shared]
        by_cases hset : o = .setRadioStatus .enabled
        · subst hset
          obtain ⟨hlocked, l', p, hth, hnext⟩ := hc
          by_cases hl : l = .enableRadio
          · -- the holder of enableLock is the call itself, which is past its stores
            subst hl
            have howner := owner_of_stores hreach ha.thread
            obtain rfl := Option.some.inj (howner.symm.trans (hlocked .enableLock))
            cases ha.thread.symm.trans hth
            obtain ⟨h, hjoin⟩ | ⟨hgo, -⟩ := hnext
            · cases hjoin
            · exact absurd id hgo
          · exact absurd rfl (hstored t _ ha.thread hl).1
        · by_cases hstores : ∃ status, o = .setRadioStatus status
          · obtain ⟨status, rfl⟩ := hstores
            exact fun heq => hset (congrArg Op.setRadioStatus heq)
          · have hkept : (effect t env o c.shared).2.radioStatus = c.shared.radioStatus :=
              radioStatus_kept t env c.shared fun status ho => hstores ⟨status, ho⟩
            exact hkept ▸ hstatus
  · cases o with
    | antIsEnabled => exact hC.silent t env l k n hmv hth hc htold
    | getRadioStatus => exact hstatus htold
    | _ => exact htold

theorem heeded_step (hreach : (machine b).Reachable (initConfig stateCallback rxCallback) c)
    (hI : Heeded c) (hC : Answers b c mv) (hs : (machine b).step mv c = some d) : Heeded d := by
  intro n hd
  by_cases hc : Committed c n
  · exact heeded_kept hreach hI hC hs hc
  · exact heeded_new hreach hC hs hd hc

/-- If nobody is told that the radio is enabled while a call goes on to its join, no
call waits for a thread that goes on. -/
theorem joins_stopping
    (h : (machine b).Path (Answers b) (initConfig stateCallback rxCallback) c) :
    JoinsStopping c := by
  have hI : Heeded c := by
    induction h with
    | refl =>
        rintro n ⟨-, l, p, hth, -⟩
        cases hth
    | tail hpath hC hs ih => exact heeded_step hpath.reachable ih hC hs
  exact hI.joinsStopping

/-- An enabled radio whose receive thread polls is disabled, up to the join. -/
def joining (antDisable : Int) : List (Move Label Tid Env) :=
  .start (.app 0) .enableRadio :: List.replicate 20 (.act (.app 0) {}) ++
    List.replicate 9 (.act (.rx 1) {}) ++
    .start (.app 1) .disableRadio :: List.replicate 16 (.act (.app 1) { antDisable := antDisable })

/-- The guard of the thread that is joined is about to return the status. -/
def evaluates (c : ThreadConfig) : Bool :=
  (c.pool (.app 1)).any (fun th => th.head? = some (.pthreadJoin 1)) &&
    decide (c.shared.locks .enableLock = some (.app 1)) &&
    decide (c.shared.locks .txLock = some (.app 1)) &&
    (c.pool (.rx 1)).any fun th =>
      decide (th.label = .rxLoop 3) && decide (th.head? = some .returnRadioStatus)

theorem joining_of_evaluates (h : evaluates c = true) :
    Joining c 1 1 ∧
      ∃ rxSocket k, c.pool (.rx 1) = some ⟨.rxLoop rxSocket, .op .returnRadioStatus k⟩ := by
  simp only [evaluates, Bool.and_eq_true, Option.any_eq_true, decide_eq_true_eq] at h
  obtain ⟨⟨⟨⟨⟨l, p⟩, happ, hjoin⟩, henable⟩, htx⟩, ⟨l', p'⟩, hrx, hlabel, hreturn⟩ := h
  obtain ⟨k, rfl⟩ := Thread.code_of_head hjoin
  obtain ⟨k', hk'⟩ := Thread.code_of_head hreturn
  refine ⟨⟨fun lock => ?_, l, k, happ⟩, 3, k', ?_⟩
  · cases lock with
    | enableLock => exact henable
    | txLock => exact htx
  · rw [hrx, ← hlabel, ← hk']

/-- Nobody is answered 1 while another thread has txLock, and a status is settled
where no other thread is still to store ENABLED. -/
def calm (c : ThreadConfig) : Move Label Tid Env → Bool
  | .start _ _ => true
  | .act t env =>
    match (c.pool t).bind Thread.head? with
    | some .antIsEnabled =>
      decide (env.antIsEnabled ≠ 1) || decide (c.shared.locks .txLock = none) ||
        decide (c.shared.locks .txLock = some t)
    | some (.setRadioStatus _) | some .returnRadioStatus =>
      [Tid.app 0, .app 1, .rx 1].all fun u => decide (u = t) || (c.pool u).all fun th =>
        decide (th.label = .enableRadio) || decide (th.head? ≠ some (.setRadioStatus .enabled))
    | _ => true

theorem answers_of_calm (hreach : (machine b).Reachable (initConfig stateCallback rxCallback) c)
    (hpool : ∀ u th, c.pool u = some th → u ∈ [Tid.app 0, .app 1, .rx 1])
    (h : calm c mv = true) : Answers b c mv := by
  refine ⟨fun n d hs hd hc u hstores => ?_, fun t env l k n hmv hth hc hone => ?_⟩
  · obtain ⟨env, l, o, k, rfl, ha, hsettles⟩ := committed_new hreach hs hd hc
    obtain ⟨l', k', hth, hl'⟩ := hstores
    have hothers : ∀ status, o = .setRadioStatus status ∨ o = .returnRadioStatus → u = .app n := by
      rintro status ho
      have hat : (c.pool (.app n)).bind Thread.head? = some o := by rw [ha.thread]; rfl
      have hall := h
      simp only [calm, hat] at hall
      have hmem := hpool u _ hth
      obtain rfl | rfl := ho
      all_goals
        have hu := List.all_eq_true.mp hall u hmem
        simpa [hth, hl', Thread.head?] using hu
    have hu : u = .app n := by
      cases o with
      | setRadioStatus status => exact hothers status (.inl rfl)
      | returnRadioStatus => exact hothers .unknown (.inr rfl)
      | _ => exact hsettles.elim
    subst hu
    cases ha.thread.symm.trans hth
    exact hsettles rfl
  · subst hmv
    obtain ⟨hlocked, l', p, hp, hnext⟩ := hc
    have hat : (c.pool t).bind Thread.head? = some .antIsEnabled := by rw [hth]; rfl
    have hmine : t = .app n := by
      simpa [calm, hat, hone, hlocked .txLock, eq_comm] using h
    subst hmine
    cases hth.symm.trans hp
    obtain ⟨h, hjoin⟩ | ⟨hgo, -⟩ := hnext
    · cases hjoin
    · exact absurd id hgo

/-- `ant_disable` succeeds, and the guard finds the chip off. -/
theorem joins_stopping_disabled :
    ∃ c : ThreadConfig, Joining c 1 1 ∧ ¬ GuardHolds c 1 ∧
      ∃ rxSocket k, c.pool (.rx 1) = some ⟨.rxLoop rxSocket, .op .returnRadioStatus k⟩ := by
  obtain ⟨c, hpath, hc⟩ := Machine.exec_any (machine ⟨.wl12xx, true⟩)
    (fun c mv => calm c mv && (machine ⟨.wl12xx, true⟩).stays [.app 0, .app 1, .rx 1] c mv)
    (joining 0 ++ List.replicate 9 (.act (.rx 1) { antIsEnabled := 0 })) (initConfig true true)
    evaluates (by decide)
  obtain ⟨hjoin, hreturns⟩ := joining_of_evaluates hc
  have hanswers : (machine ⟨.wl12xx, true⟩).Path (Answers ⟨.wl12xx, true⟩)
      (initConfig true true) c := by
    refine hpath.along fun x mv hx hmv => ?_
    have hstays := hx.mono fun _ _ h => (Bool.and_eq_true_iff.mp h).2
    exact answers_of_calm hx.reachable
      (fun u th hth => Machine.pool_stays hstays (fun _ => rfl) hth) (Bool.and_eq_true_iff.mp hmv).1
  exact ⟨c, hjoin, joins_stopping hanswers 1 1 hjoin, hreturns⟩

/-- `ant_disable` fails, and the guard stores ENABLED over DISABLING. -/
theorem joins_notStopping :
    ¬ ∀ (b : Build) (stateCallback rxCallback : Bool) (c : ThreadConfig),
      b.useExternalPowerLibrary = true →
      (machine b).Reachable (initConfig stateCallback rxCallback) c → JoinsStopping c := by
  intro h
  obtain ⟨c, hpath, hc⟩ := Machine.exec_any (machine ⟨.wl12xx, true⟩) (fun _ _ => true)
    (joining (-1) ++ List.replicate 9 (.act (.rx 1) {})) (initConfig true true)
    (fun c => evaluates c && decide (c.shared.radioStatus = .enabled)) (by decide)
  rw [Bool.and_eq_true, decide_eq_true_eq] at hc
  obtain ⟨hjoin, hreturns⟩ := joining_of_evaluates hc.1
  exact h _ true true c rfl hpath.reachable 1 1 hjoin ⟨hreturns, hc.2⟩

end runs
end AntHal.Bluez
