import AntHal.Concurrency.Obligation
import AntHal.Concurrency.Waiting
import AntHal.Bluez.CommandComplete
import AntHal.Bluez.JoinWaits
import AntHal.Bluez.LockInvariant

/-!
Nobody hangs in the BlueZ back end.

A call waits for enableLock with no lock, for txLock with enableLock at most, and
for the end of a receive thread with both. The receive thread takes enableLock by
a trylock and never waits. So waiting leads down, from enableLock to txLock, to a
join, and to a thread that can move.
-/

namespace AntHal.Bluez

open Concurrency

/-- `t` waits for `u`: for a lock that it holds, or for its end. -/
def waitsFor (c : ThreadConfig) (t u : Tid) : Prop :=
  ∃ o, (c.pool t).bind Thread.head? = some o ∧
    ((∃ lock, o = .mutexLock lock ∧ c.shared.locks lock = some u) ∨
      ∃ h, o = .pthreadJoin h ∧ u = .rx h)

/-- The calls of the locks do not fail. -/
def lockable (env : Env) : Prop := env.mutex = 0

/-- How far a thread at an operation is from one that can move. -/
def Op.waitRank : Op → Nat
  | .mutexLock .enableLock => 3
  | .mutexLock .txLock => 2
  | .pthreadJoin _ => 1
  | _ => 0

def waitRank (c : ThreadConfig) (t : Tid) : Nat :=
  ((c.pool t).bind Thread.head?).elim 0 Op.waitRank

section programs
variable {b : Build} {α : Type} {p : Cmd α}

def locks : Op → Bool
  | .mutexLock _ => true
  | _ => false

def waits : Op → Bool
  | .mutexLock _ | .pthreadJoin _ => true
  | _ => false

/-- The operation takes no lock that it would wait for. -/
def NoLock (o : Op) : Prop := locks o = false

def NoWait (o : Op) : Prop := waits o = false

abbrev Lockless (p : Cmd α) : Prop := p.Only NoLock fun _ => True

abbrev Waitless (p : Cmd α) : Prop := p.Only NoWait fun _ => True

theorem Waitless.lockless (h : Waitless p) : Lockless p :=
  h.mono (fun o ho => by cases o <;> first | rfl | cases ho) fun _ h => h

theorem reportRadioStatus_waitless : Waitless reportRadioStatus := by
  simp [reportRadioStatus, NoWait, waits]

theorem getAndSetRadioStatus_waitless : Waitless (getAndSetRadioStatus b) := by
  have hrefresh : Waitless (withPowerLibrary b refreshRadioStatus) := by
    refine Prog.only_ite.mpr ⟨fun _ => ?_, fun _ => trivial⟩
    simp [refreshRadioStatus, NoWait, waits, reportRadioStatus_waitless]
  exact (Prog.only_op _ _).mpr ⟨rfl, fun _ => hrefresh.bind fun _ _ => by simp [NoWait, waits]⟩

/-- The operation neither takes enableLock nor releases it. -/
def Plain (o : Op) : Prop := lockAct o = .plain

theorem Quietly.plain {P : α → Prop} (h : Quietly P p) : p.Only Plain fun _ => True :=
  h.mono (fun _ ho => (quiet_plain ho (.app 0)).1) fun _ _ => trivial

theorem joinThread_plain : joinThread.Only Plain fun _ => True := by
  simp [joinThread, Plain, lockAct]

theorem enableRadioLocked_plain : (enableRadioLocked b).Only Plain fun _ => True := by
  have hbegin (status : RadioStatus) : (beginEnabling b status).Only Plain fun _ => True := by
    refine Prog.only_ite.mpr ⟨fun _ => joinThread_plain.bind fun _ _ => ?_, fun _ => trivial⟩
    exact (Prog.only_op _ _).mpr ⟨rfl, fun _ =>
      Quietly.plain (withPowerLibrary_quietly reportRadioStatus_quietly)⟩
  have hconnect (result : Int) : (connectThread b result).Only Plain fun _ => True := by
    refine Prog.only_ite.mpr ⟨fun _ => ?_, fun _ => trivial⟩
    refine (Prog.only_op _ _).mpr ⟨rfl, fun thread => Prog.only_ite.mpr ⟨fun _ => ?_, fun _ => ?_⟩⟩
    · exact (Prog.only_op _ _).mpr ⟨rfl, fun _ => trivial⟩
    · refine (Prog.only_op _ _).mpr ⟨rfl, fun _ => Prog.only_ite.mpr ⟨fun _ => trivial,
        fun _ => ?_⟩⟩
      exact (Quietly.plain enabledWithThread_quietly).bind fun _ _ => trivial
  exact (Quietly.plain getAndSetRadioStatus_quietly).bind fun status _ =>
    (hbegin status).bind fun _ _ => (Quietly.plain powerOn_quietly).bind fun result _ =>
      (hconnect result).bind fun ret _ => (Quietly.plain (enableCleanUp_quietly ret)).bind
        fun _ _ =>
        trivial

theorem disableRadioLocked_plain : (disableRadioLocked b).Only Plain fun _ => True :=
  (Quietly.plain beginDisabling_quietly).bind fun _ _ => joinThread_plain.bind fun _ _ =>
    (Quietly.plain getAndSetRadioStatus_quietly).bind fun _ _ => trivial

/-- What is behind both locks takes no lock. -/
theorem lockless_of_aside (h : Aside p) (h' : p.Only Plain fun _ => True) : Lockless p := by
  induction p with
  | ret a => trivial
  | op o k ih =>
      obtain ⟨ho, hk⟩ := (Prog.only_op o k).mp h
      obtain ⟨ho', hk'⟩ := (Prog.only_op o k).mp h'
      refine (Prog.only_op o k).mpr ⟨?_, fun r => ih r (hk r) (hk' r)⟩
      cases o with
      | mutexLock lock =>
          cases lock with
          | txLock => cases ho
          | enableLock => cases ho'
      | _ => rfl

/-- The receive thread never waits. -/
theorem body_waitless {l : Label} (hl : l.isRx = true) : Waitless (body b l) := by
  cases l with
  | rxStart => simp [body, rxStart, NoWait, waits]
  | rxLoop rxSocket =>
      refine getAndSetRadioStatus_waitless.bind fun status _ => ?_
      split <;> trivial
  | rxPoll rxSocket => simp [body, rxPoll, NoWait, waits]
  | rxRead rxSocket =>
      simp only [body, rxRead, Prog.op_bind, Prog.ret_bind, Prog.pure_eq, Prog.only_op]
      refine ⟨rfl, fun packet => ?_⟩
      split
      · trivial
      · trivial
      · refine Prog.Only.bind (Q := fun _ => True) ?_ fun _ _ => trivial
        simp [deliver, NoWait, waits]
  | rxClose rxSocket =>
      have hdisable : Waitless (crashDisable b) := by
        refine Prog.only_ite.mpr ⟨fun _ => ?_, fun _ => by simp [NoWait, waits]⟩
        refine Prog.Only.bind (Q := fun _ => True) (by simp [reportDisabling, NoWait, waits])
          fun _ _ => ?_
        exact (Prog.only_op _ _).mpr ⟨rfl, fun _ => getAndSetRadioStatus_waitless.bind fun _ _ =>
          trivial⟩
      have hclean (r : Int) : Waitless (crashCleanUp b r) :=
        Prog.only_ite.mpr ⟨fun _ => hdisable.bind fun _ _ => by simp [NoWait, waits],
          fun _ => trivial⟩
      exact (Prog.only_op _ _).mpr ⟨rfl, fun r => (hclean r).bind fun _ _ =>
        by simp [NoWait, waits]⟩
  | enableRadio | disableRadio | radioEnabledStatus | txMessage | txWrite | txWait | txRead
    | txClose => cases hl

end programs

section custody
variable {b : Build}

/-- The blocks of the send loop, which begin with txLock. -/
def Label.inSendLoop : Label → Prop
  | .txWrite _ | .txWait _ | .txRead _ | .txClose _ => True
  | _ => False

def takesTxLock : (o : Op) → o.Res → Prop
  | .mutexLock .txLock, r => r = 0
  | _, _ => False

/-- Only a lock call makes its thread the owner. -/
theorem txLock_effect {t : Tid} {env : Env} {o : Op} {s : Shared}
    (howner : (effect t env o s).2.locks .txLock = some t) :
    takesTxLock o (effect t env o s).1 ∨
      (s.locks .txLock = some t ∧ o ≠ .mutexUnlock .txLock) := by
  have hother (owner : Option Tid) : (s.setLock .enableLock owner).locks .txLock =
      s.locks .txLock :=
    s.setLock_other (by decide) owner
  cases o with
  | mutexLock lock =>
      by_cases henv : env.mutex = 0
      · cases lock with
        | txLock => exact .inl (by simp [effect, takesTxLock, henv])
        | enableLock =>
            simp only [effect, henv, if_true, hother] at howner
            exact .inr ⟨howner, by simp⟩
      · simp only [effect, henv, if_false] at howner
        exact .inr ⟨howner, by simp⟩
  | mutexUnlock lock =>
      cases lock with
      | txLock =>
          simp only [effect, Shared.setLock_self] at howner
          cases howner
      | enableLock => exact .inr ⟨(hother none).symm.trans howner, by simp⟩
  | unlockReturn f ret => exact .inr ⟨(hother none).symm.trans howner, by simp⟩
  | mutexTrylock =>
      refine .inr ⟨?_, by simp⟩
      simp only [effect] at howner
      repeat' split at howner
      · exact howner
      · exact (hother _).symm.trans howner
      · exact howner
  | pthreadCreate | read | writev =>
      refine .inr ⟨?_, by simp⟩
      simp only [effect] at howner
      split at howner <;> exact howner
  | _ => exact .inr ⟨howner, by simp⟩

/-- Who has txLock takes no other lock before the release. -/
def txCustody (b : Build) : Custody (machine b) where
  owner s := s.locks .txLock
  acquires := takesTxLock
  release o := o = .mutexUnlock .txLock
  stop o := locks o = true
  inside := Label.inSendLoop
  effect := by
    intro pool t env o s u _ howner
    by_cases htu : u = t
    · subst htu
      exact (txLock_effect howner).imp (fun h => ⟨rfl, h⟩) fun h => ⟨h.1, fun _ => h.2⟩
    · exact .inr ⟨locks_effect htu howner, fun h => absurd h htu⟩

/-- The block goes on with one of the send loop. -/
def GoesOn (a : Option Label) : Prop := ∃ l, a = some l ∧ l.inSendLoop

theorem goesOn_some {l : Label} (h : l.inSendLoop) : GoesOn (some l) := ⟨l, rfl, h⟩

/-- The rest of a program that has txLock. -/
abbrev Owes {α : Type} (b : Build) (Q : α → Prop) (p : Cmd α) : Prop :=
  p.Until (fun _ _ => True) (txCustody b).release (txCustody b).stop Q

theorem owes_lockless {α : Type} {p : Cmd α} {Q : α → Prop} (h : p.Only NoLock Q) : Owes b Q p :=
  h.until fun o ho hstop => by
    have hlocks : locks o = true := hstop
    cases ho.symm.trans hlocks

theorem owes_bind {α β : Type} {p : Cmd α} {f : α → Cmd β} {Q : β → Prop} (h : Lockless p)
    (hf : ∀ a, Owes b Q (f a)) : Owes b Q (p >>= f) :=
  (Prog.until_bind _ _).mpr (Prog.Until.mono (owes_lockless h) (fun _ _ h => h) (fun _ h => h)
    (fun _ h => h) fun a _ => hf a)

theorem acquiring_of_ne {o : Op} (k : o.Res → Cmd (Option Label)) (h : o ≠ .mutexLock .txLock) :
    (txCustody b).Acquiring o k := by
  intro r hr
  cases o with
  | mutexLock lock =>
      cases lock with
      | txLock => exact absurd rfl h
      | enableLock => exact hr.elim
  | _ => exact hr.elim

theorem acquiring_lockless {Q : Option Label → Prop} {p : Cmd (Option Label)}
    (h : p.Only NoLock Q) : p.Always (txCustody b).Acquiring :=
  h.always fun o k ho => acquiring_of_ne k (by rintro rfl; cases ho)

theorem txWrite_goesOn (tx : Sending) : (txWrite b tx).Only NoLock GoesOn := by
  simp only [txWrite, Prog.op_bind, Prog.ret_bind, Prog.pure_eq, Prog.only_op, Prog.only_ite,
    Prog.only_ret]
  refine ⟨rfl, fun _ => ⟨fun _ => goesOn_some trivial, fun _ => ⟨rfl, fun bytesWritten => ?_⟩⟩⟩
  refine goesOn_some ?_
  split
  · trivial
  · trivial
  · split <;> trivial

theorem txWait_goesOn (tx : Sending) : (txWait tx).Only NoLock GoesOn := by
  simp only [txWait, Prog.op_bind, Prog.ret_bind, Prog.pure_eq, Prog.only_op, Prog.only_ret]
  refine ⟨rfl, fun n => goesOn_some ?_⟩
  split
  · trivial
  · trivial
  · split <;> trivial

theorem handleCommandComplete_goesOn (tx : Sending) :
    (handleCommandComplete tx).Only NoLock GoesOn := by
  unfold handleCommandComplete
  split
  · exact goesOn_some trivial
  · dsimp only
    split <;> exact goesOn_some trivial
  · simp only [Prog.op_bind, Prog.ret_bind, Prog.pure_eq, Prog.only_op]
    refine ⟨rfl, fun _ => ⟨rfl, fun currentTime => ?_⟩⟩
    split
    · refine goesOn_some ?_
      split <;> trivial
    · exact goesOn_some trivial
  · exact goesOn_some trivial

theorem txRead_goesOn (tx : Sending) : (txRead b tx).Only NoLock GoesOn := by
  simp only [txRead, Prog.op_bind, Prog.ret_bind, Prog.pure_eq, Prog.only_op]
  refine ⟨rfl, fun packet => ?_⟩
  split
  · exact goesOn_some trivial
  · exact handleCommandComplete_goesOn _
  · exact handleCommandComplete_goesOn _

theorem antCloseTxTransport_lockless (socket : Int) : Lockless (antCloseTxTransport socket) := by
  simp [antCloseTxTransport, NoLock, locks]

theorem beginSending_lockless (pucMesg : List UInt8) (status : RadioStatus) :
    Lockless (beginSending pucMesg status) := by
  have hopen : Lockless antOpenTxTransport := by simp [antOpenTxTransport, NoLock, locks]
  refine Prog.only_ite.mpr ⟨fun _ => by simp [NoLock, locks], fun _ => hopen.bind fun _ _ => ?_⟩
  simp [NoLock, locks]

/-- Without an enabled radio or a socket the lock is released at once. -/
theorem beginSending_owes (pucMesg : List UInt8) (status : RadioStatus) :
    Owes b GoesOn (beginSending pucMesg status) := by
  have hopen : Lockless antOpenTxTransport := by simp [antOpenTxTransport, NoLock, locks]
  refine Prog.until_ite.mpr ⟨fun _ => .reached rfl, fun _ => owes_bind hopen fun txSocket => ?_⟩
  refine Prog.until_ite.mpr ⟨fun _ => .reached rfl, fun _ => ?_⟩
  exact owes_lockless ((Prog.only_op _ _).mpr ⟨rfl, fun _ => goesOn_some trivial⟩)

theorem underTxLock_acquiring {f : Func} {locked : Cmd AntStatus} (h : Lockless locked) :
    (underTxLock f locked >>= fun _ => (.ret none : Cmd (Option Label))).Always
      (txCustody b).Acquiring := by
  simp only [underTxLock, Prog.op_bind, Prog.ret_bind, Prog.pure_eq]
  refine ⟨fun r hr => ?_, fun r => acquiring_lockless (Q := fun _ => True) ?_⟩
  · obtain rfl : r = 0 := hr
    dsimp only
    rw [if_neg (not_not.mpr rfl), Prog.bind_assoc]
    exact owes_bind h fun ret => .reached rfl
  · dsimp only
    split
    · exact (Prog.only_op _ _).mpr ⟨rfl, fun _ => trivial⟩
    · rw [Prog.bind_assoc]
      exact h.bind fun ret _ => (Prog.only_op _ _).mpr ⟨rfl, fun _ =>
        (Prog.only_op _ _).mpr ⟨rfl, fun _ => trivial⟩⟩

theorem antEnableRadio_acquiring : (body b .enableRadio).Always (txCustody b).Acquiring := by
  have hmark : Lockless markEnabling := by simp [markEnabling, NoLock, locks]
  simp only [body, antEnableRadio, Prog.op_bind, Prog.ret_bind, Prog.pure_eq]
  refine ⟨acquiring_of_ne _ (by simp), fun _ => ⟨acquiring_of_ne _ (by simp), fun r => ?_⟩⟩
  dsimp only
  split
  · exact ⟨acquiring_of_ne _ (by simp), fun _ => trivial⟩
  · rw [Prog.bind_assoc]
    exact hmark.always_bind (fun o k ho => acquiring_of_ne k (by rintro rfl; cases ho)) fun _ _ =>
      underTxLock_acquiring (lockless_of_aside enableRadioLocked_aside enableRadioLocked_plain)

theorem antDisableRadio_acquiring : (body b .disableRadio).Always (txCustody b).Acquiring := by
  simp only [body, antDisableRadio, Prog.op_bind, Prog.ret_bind, Prog.pure_eq]
  refine ⟨acquiring_of_ne _ (by simp), fun _ => ⟨acquiring_of_ne _ (by simp), fun r => ?_⟩⟩
  dsimp only
  split
  · exact ⟨acquiring_of_ne _ (by simp), fun _ => trivial⟩
  · exact underTxLock_acquiring
      (lockless_of_aside disableRadioLocked_aside disableRadioLocked_plain)

theorem antTxMessage_acquiring (pucMesg : List UInt8) :
    (body b (.txMessage pucMesg)).Always (txCustody b).Acquiring := by
  simp only [body, antTxMessage, Prog.op_bind, Prog.ret_bind, Prog.pure_eq]
  refine ⟨acquiring_of_ne _ (by simp), fun _ => ⟨fun r hr => ?_, fun r => ?_⟩⟩
  · obtain rfl : r = 0 := hr
    dsimp only
    rw [if_neg (not_not.mpr rfl)]
    exact owes_bind getAndSetRadioStatus_waitless.lockless
      fun status => beginSending_owes pucMesg status
  · dsimp only
    split
    · exact ⟨acquiring_of_ne _ (by simp), fun _ => trivial⟩
    · exact acquiring_lockless (getAndSetRadioStatus_waitless.lockless.bind fun status _ =>
        beginSending_lockless pucMesg status)

theorem body_acquiring (l : Label) : (body b l).Always (txCustody b).Acquiring := by
  cases l with
  | enableRadio => exact antEnableRadio_acquiring
  | disableRadio => exact antDisableRadio_acquiring
  | radioEnabledStatus =>
      exact (antRadioEnabledStatus_aside (b := b)).always_bind
        (fun o k ho => acquiring_of_ne k (by rintro rfl; cases ho)) fun _ _ => trivial
  | txMessage pucMesg => exact antTxMessage_acquiring pucMesg
  | txWrite tx => exact acquiring_lockless (txWrite_goesOn tx)
  | txWait tx => exact acquiring_lockless (txWait_goesOn tx)
  | txRead tx => exact acquiring_lockless (txRead_goesOn tx)
  | txClose tx =>
      exact acquiring_lockless ((antCloseTxTransport_lockless tx.txSocket).bind fun _ _ =>
        show Lockless _ by simp [NoLock, locks])
  | rxStart => exact acquiring_lockless (body_waitless (l := .rxStart) rfl).lockless
  | rxLoop rxSocket => exact acquiring_lockless (body_waitless (l := .rxLoop rxSocket) rfl).lockless
  | rxPoll rxSocket => exact acquiring_lockless (body_waitless (l := .rxPoll rxSocket) rfl).lockless
  | rxRead rxSocket => exact acquiring_lockless (body_waitless (l := .rxRead rxSocket) rfl).lockless
  | rxClose rxSocket =>
      exact acquiring_lockless (body_waitless (l := .rxClose rxSocket) rfl).lockless

/-- Every block releases txLock, or hands it to the next one. -/
theorem txCustody_checked (b : Build) : (txCustody b).Checked where
  acquiring := body_acquiring
  inside l hl := by
    cases l with
    | txWrite tx => exact ⟨_, _, rfl, owes_lockless (txWrite_goesOn tx)⟩
    | txWait tx => exact ⟨_, _, rfl, owes_lockless (txWait_goesOn tx)⟩
    | txRead tx => exact ⟨_, _, rfl, owes_lockless (txRead_goesOn tx)⟩
    | txClose tx =>
        have howes : Owes b GoesOn (txClose tx) :=
          owes_bind (antCloseTxTransport_lockless tx.txSocket) fun _ => .reached rfl
        cases hbody : txClose tx with
        | ret a =>
            simp only [txClose, antCloseTxTransport] at hbody
            split at hbody <;> cases hbody
        | op o k => exact ⟨o, k, hbody, hbody ▸ howes⟩
    | enableRadio | disableRadio | radioEnabledStatus | txMessage | rxStart | rxLoop | rxPoll
      | rxRead | rxClose => exact hl.elim

end custody

section waiting
variable {b : Build} {stateCallback rxCallback : Bool} {c d : ThreadConfig} {t u : Tid} {l : Label}
  {o : Op} {k : o.Res → Cmd (Option Label)}

theorem waitRank_eq (h : c.pool t = some ⟨l, .op o k⟩) : waitRank c t = o.waitRank := by
  simp [waitRank, h, Thread.head?]

/-- Without success pthread_create starts nothing. -/
theorem canMove_of_isReady {env : Env} (hth : c.pool t = some ⟨l, .op o k⟩) (hlock : lockable env)
    (hcreate : env.pthreadCreate = 1) (hready : isReady c.pool env o c.shared = true) :
    (machine b).CanMove lockable c t := by
  refine Machine.canMove_of_ready env hth hlock hready fun u lu hspawn => ?_
  cases o <;> simp [machine, spawned, effect, hcreate] at hspawn

/-- What is not ready is a lock that is held, or a join of a thread that runs. -/
theorem blocked_cases (hth : c.pool t = some ⟨l, .op o k⟩)
    (hstuck : ¬ (machine b).CanMove lockable c t) :
    (∃ lock u, o = .mutexLock lock ∧ c.shared.locks lock = some u) ∨
      ∃ h, o = .pthreadJoin h ∧ (c.pool (.rx h)).any Thread.terminated = false := by
  have hready : ¬ isReady c.pool { pthreadCreate := 1 } o c.shared = true :=
    mt (canMove_of_isReady (b := b) hth rfl rfl) hstuck
  cases o with
  | mutexLock lock =>
      simp only [isReady, ne_eq, not_true_eq_false, decide_false, Bool.or_false,
        Option.isNone_iff_eq_none] at hready
      obtain ⟨u, hu⟩ := Option.ne_none_iff_exists'.mp hready
      exact .inl ⟨lock, u, rfl, hu⟩
  | pthreadJoin h => exact .inr ⟨h, rfl, by simpa [isReady] using hready⟩
  | _ => exact absurd rfl hready

/-- The recorded thread was created. -/
theorem recorded_isSome
    (hreach : (machine b).Reachable (initConfig stateCallback rxCallback) c)
    (hthread : c.shared.thread ≠ 0) : (c.pool (.rx c.shared.thread)).isSome := by
  refine hreach.invariant (I := fun c => c.shared.thread ≠ 0 →
    (c.pool (.rx c.shared.thread)).isSome) ?_ (fun h => absurd rfl h) hthread
  intro c mv d hI _ hs hthread
  cases mv with
  | start t l =>
      have hshared : d.shared = c.shared := by
        obtain ⟨-, -, rfl⟩ := Machine.step_start hs
        rfl
      rw [hshared] at hthread ⊢
      obtain ⟨th, hth⟩ := Option.isSome_iff_exists.mp (hI hthread)
      simp [Machine.step_start_kept hs hth]
  | act t env =>
      obtain ⟨l, o, k, ha⟩ := Machine.step_act hs
      have hshared : d.shared = (effect t env o c.shared).2 := ha.shared
      rw [hshared] at hthread ⊢
      rcases thread_effect t env o c.shared with hsame | hzero | hnew
      · rw [hsame] at hthread ⊢
        exact ha.exists _ (hI hthread)
      · exact absurd hzero hthread
      · rw [(ha.created _ _ (by rw [hshared]; exact hnew)).2]
        rfl

/-- A receive thread is never at an operation that waits. -/
theorem rx_noWait (hreach : (machine b).Reachable (initConfig stateCallback rxCallback) c) {h : Nat}
    (hth : c.pool (.rx h) = some ⟨l, .op o k⟩) : NoWait o := by
  have hbody (l : Label) : ((machine b).body l).Always fun o _ => l.isRx = true → NoWait o := by
    cases hl : l.isRx with
    | true => exact (body_waitless hl).always fun o _ ho _ => ho
    | false => exact Prog.always_of_forall fun _ _ => nofun
  have hpool : Machine.PoolAlways (fun l o _ => l.isRx = true → NoWait o) c :=
    hreach.invariant (fun _ _ _ hx _ hs => Machine.poolAlways_step hbody hx hs)
      fun t th hth => nomatch hth
  exact (hpool _ _ hth).1 ((enableLock_holds hreach).roles _ _ hth)

/-- The holder of enableLock is at an operation, and not at that lock. -/
theorem enableLock_head (hholds : (enableLock b).Holds c)
    (howner : c.shared.locks .enableLock = some t) :
    ∃ l o k, c.pool t = some ⟨l, .op o k⟩ ∧ o ≠ .mutexLock .enableLock := by
  obtain ⟨l, o, k, hth⟩ := hholds.head howner
  refine ⟨l, o, k, hth, ?_⟩
  rintro rfl
  exact (hholds.checks hth howner).1 rfl

/-- Behind every thread that is stuck is a live one, nearer to one that can move. -/
theorem blocked_rank (hreach : (machine b).Reachable (initConfig stateCallback rxCallback) c)
    (hlive : Machine.Live c t) (hstuck : ¬ (machine b).CanMove lockable c t) :
    ∃ u, waitsFor c t u ∧ Machine.Live c u ∧ waitRank c u < waitRank c t := by
  obtain ⟨l, o, k, hth⟩ := Machine.live_iff.mp hlive
  have hhead : (c.pool t).bind Thread.head? = some o := by rw [hth]; rfl
  rw [waitRank_eq hth]
  rcases blocked_cases hth hstuck with ⟨lock, u, rfl, howner⟩ | ⟨h, rfl, hrun⟩
  · cases lock with
    | enableLock =>
        obtain ⟨l', o', k', hu, hnot⟩ := enableLock_head (enableLock_holds hreach) howner
        refine ⟨u, ⟨_, hhead, .inl ⟨_, rfl, howner⟩⟩, Machine.live_iff.mpr ⟨l', o', k', hu⟩, ?_⟩
        rw [waitRank_eq hu]
        cases o' with
        | mutexLock lock =>
            cases lock with
            | enableLock => exact absurd rfl hnot
            | txLock => exact Nat.lt_succ_self 2
        | pthreadJoin => exact Nat.lt_of_sub_eq_succ rfl
        | _ => exact Nat.succ_pos _
    | txLock =>
        have hcustody := (txCustody b).holds_reachable (txCustody_checked b)
          rfl (fun _ => rfl) hreach
        obtain ⟨l', o', k', hu, hnot⟩ := hcustody.head howner
        refine ⟨u, ⟨_, hhead, .inl ⟨_, rfl, howner⟩⟩, Machine.live_iff.mpr ⟨l', o', k', hu⟩, ?_⟩
        rw [waitRank_eq hu]
        cases o' with
        | mutexLock lock =>
            rcases hnot with hrelease | hstop
            · cases hrelease
            · exact absurd rfl hstop
        | pthreadJoin => exact Nat.lt_succ_self 1
        | _ => exact Nat.succ_pos _
  · have hjoin : h = c.shared.thread ∧ h ≠ 0 :=
      (inside_record (enableLock_holds hreach) hth (.inr (.inr ⟨h, rfl⟩))).2
    obtain ⟨rfl, hne⟩ := hjoin
    obtain ⟨⟨l', code⟩, hu⟩ := Option.isSome_iff_exists.mp (recorded_isSome hreach hne)
    rw [hu] at hrun
    cases code with
    | ret a => cases hrun
    | op o' k' =>
        refine ⟨.rx c.shared.thread, ⟨_, hhead, .inr ⟨_, rfl, rfl⟩⟩,
          Machine.live_iff.mpr ⟨l', o', k', hu⟩, ?_⟩
        rw [waitRank_eq hu]
        have hwait := rx_noWait hreach hu
        cases o' with
        | mutexLock | pthreadJoin => cases hwait
        | _ => exact Nat.succ_pos _

/-- In every reachable state every live thread can move, or waits in a chain for
one that can: no interleaving of calls and receive threads deadlocks. -/
theorem somebody_moves (hreach : (machine b).Reachable (initConfig stateCallback rxCallback) c)
    (hlive : Machine.Live c t) :
    ∃ u, Relation.ReflTransGen (waitsFor c) t u ∧ (machine b).CanMove lockable c u :=
  Machine.exists_canMove hlive
    (Machine.not_hangs_of_rank (waitRank c) fun _ hu hstuck => blocked_rank hreach hu hstuck)

/-- A disable waits for another one, and that one for the receive thread. -/
def waitingBehind : List (Move Label Tid Env) :=
  joining 0 ++ [.start (.app 2) .disableRadio, .act (.app 2) {}]

def waitsBehindJoin (c : ThreadConfig) : Bool :=
  (c.pool (.app 2)).any (fun th => th.head? = some (.mutexLock .enableLock)) &&
    decide (c.shared.locks .enableLock = some (.app 1)) &&
    (c.pool (.app 1)).any fun th => th.head? = some (.pthreadJoin 1)

theorem somebody_moves_behind_join :
    ∃ c, waitsFor c (.app 2) (.app 1) ∧ waitsFor c (.app 1) (.rx 1) ∧
      ∃ u, Relation.ReflTransGen (waitsFor c) (.app 2) u ∧
        (machine ⟨.wl12xx, true⟩).CanMove lockable c u := by
  obtain ⟨c, hpath, hc⟩ := Machine.exec_any (machine ⟨.wl12xx, true⟩)
    (fun _ _ => true) waitingBehind
    (initConfig true true) waitsBehindJoin (by decide)
  simp only [waitsBehindJoin, Bool.and_eq_true, Option.any_eq_true, decide_eq_true_eq] at hc
  obtain ⟨⟨⟨⟨l, p⟩, hth, hlock⟩, howner⟩, th', hth', hjoin⟩ := hc
  obtain ⟨k, rfl⟩ := Thread.code_of_head hlock
  exact ⟨c, ⟨_, by rw [hth]; exact hlock, .inl ⟨_, rfl, howner⟩⟩,
    ⟨_, by rw [hth']; exact hjoin, .inr ⟨1, rfl, rfl⟩⟩,
    somebody_moves hpath.reachable (Machine.live_iff.mpr ⟨l, _, k, hth⟩)⟩

end waiting
end AntHal.Bluez
