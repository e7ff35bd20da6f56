import AntHal.Bluez.LockInvariant

/-!
Does ENABLED mean that somebody receives?

A receive thread that leaves its loop takes its record back, but only if it gets
enableLock at once, and only if it had a socket. Otherwise the record stays
behind, and whoever holds the lock has to notice. Runs in which the holder does
notice keep the promise of ENABLED.
-/

namespace AntHal.Bluez

open Concurrency

variable {b : Build} {c d e : ThreadConfig}

/-- The labels of a receive thread that has not left its loop. -/
def Label.inLoop : Label → Bool
  | .rxStart | .rxLoop _ | .rxPoll _ | .rxRead _ => true
  | _ => false

section property
variable (b : Build) (c : ThreadConfig)

/-- The thread has left its loop, or has ended before it. -/
def hasLeft (th : Thread Op Op.Res Label) : Bool := th.terminated || !th.label.inLoop

/-- A receive thread is recorded, and it is in its loop or on the way there. -/
def looping : Bool :=
  c.shared.thread ≠ 0 && (c.pool (.rx c.shared.thread)).any fun th => !hasLeft th

/-- What ENABLED promises while nobody holds enableLock. -/
def EnabledIsLive : Prop :=
  c.shared.locks .enableLock = none → c.shared.radioStatus = .enabled →
    c.shared.thread ≠ 0 → (c.pool (.rx c.shared.thread)).any (fun th => !th.terminated) = true

def returnsSuccess : Move Label Tid Env → Bool
  | .start _ _ => false
  | .act t _ => (c.pool t).bind Thread.head? = some (.unlockReturn .antEnableRadio .success)

def rxFails (env : Env) : Op → Bool
  | .createHciSock => env.hciSock.isNone
  | .setsockopt _ => env.setsockopt < 0
  | .poll _ =>
    match env.poll with
    | .error => true
    | _ => false
  | .read _ =>
    match env.read with
    | .error => true
    | _ => false
  | _ => false

/-- The move fails nothing and disables nothing: no call of `ant_disable_radio`
is made or goes on, no call of the receive thread fails, no crash is cleaned up,
and no status other than ENABLED is stored. -/
def undisturbed : Move Label Tid Env → Bool
  | .start _ l => l ≠ .disableRadio
  | .act t env =>
    match c.pool t with
    | some ⟨l, .op o _⟩ =>
      decide (l ≠ .disableRadio) && !(l.inLoop && rxFails env o) &&
        match o with
        | .setRadioStatus s => decide (s = .enabled)
        | .mutexTrylock => (c.shared.locks .enableLock).isSome || decide (env.mutex ≠ 0)
        | _ => true
    | _ => true

/-- From a successful return of `ant_enable_radio` on, as long as nothing fails
or is disabled, the receive thread is in its loop. -/
def SuccessIsLooping (P : ThreadConfig → Move Label Tid Env → Prop) : Prop :=
  ∀ mv d e, returnsSuccess c mv = true → P c mv → (machine b).step mv c = some d →
    (machine b).Path (fun x mv => P x mv ∧ undisturbed x mv = true) d e → looping e = true

/-- The answers that let a call with enableLock notice that the recorded thread
has left: it gets txLock, and `ant_enable_radio` does not find the radio ENABLED. -/
def noticing (l : Label) (p : Nat) : (o : Op) → o.Res → Prop
  | .getThread, r => r = p
  | .mutexLock _, r => r = 0
  | .returnRadioStatus, r => l = .enableRadio → r ≠ .enabled
  | _, _ => True

/-- With noticing answers the program forgets the recorded thread before it
releases enableLock. -/
def Notices (l : Label) (p : Nat) (prog : Cmd (Option Label)) : Prop :=
  prog.Until (noticing l p) (fun o => o = .clearThread) (fun o => lockAct o = .unlock)
    fun _ => False

/-- Whoever holds enableLock will notice. -/
def Attended : Prop :=
  ∀ u, c.shared.locks .enableLock = some u →
    ∃ th, c.pool u = some th ∧ Notices th.label c.shared.thread th.code

/-- The program has just left the loop, for the clean-up or without one. -/
def Leaves (p : Cmd (Option Label)) : Prop :=
  p = .ret none ∨ ∃ rxSocket, p = .ret (some (.rxClose rxSocket))

/-- The condition on one operation of thread `t`. -/
structure Mindful (t : Tid) (env : Env) (l : Label) (o : Op) (r : o.Res)
    (p : Cmd (Option Label)) : Prop where
  /-- The recorded thread leaves its loop under the eyes of the lock's holder. -/
  leaves : t = .rx c.shared.thread → l.inLoop = true → Leaves p →
    Attended c ∧ (p = .ret none → c.shared.locks .enableLock ≠ none)
  /-- A trylock does not fail on a free lock. -/
  trylock : o = .mutexTrylock → c.shared.locks .enableLock = none → env.mutex = 0
  notices : (c.pool (.rx c.shared.thread)).any hasLeft = true →
    c.shared.locks .enableLock = some t → noticing l c.shared.thread o r
  /-- Nobody has overwritten the status when an enable succeeds. -/
  returns : o = .unlockReturn .antEnableRadio .success → c.shared.radioStatus = .enabled

def mindful : Move Label Tid Env → Prop
  | .start _ _ => True
  | .act t env => ∀ l o k, c.pool t = some ⟨l, .op o k⟩ →
    Mindful c t env l o (effect t env o c.shared).1 (k (effect t env o c.shared).1)

end property

section code

/-- The answers by which the recorded thread fails, or finds the radio down. -/
def leavingAnswer : (o : Op) → o.Res → Prop
  | .createHciSock, r => r < 0
  | .setsockopt _, r => r < 0
  | .poll _, r => r = .error
  | .read _, r => r = .error
  | .returnRadioStatus, r => r ≠ .enabled
  | _, _ => False

/-- The rest of a block of the receive thread: it goes on in its loop, until an
answer makes it leave at once. -/
def Loops : Cmd (Option Label) → Prop
  | .ret a => ∃ l, a = some l ∧ l.inLoop = true
  | .op o k => Quiet o ∧ ∀ r, Loops (k r) ∨ Leaves (k r) ∧ leavingAnswer o r

theorem loops_some {l : Label} (h : l.inLoop = true) : Loops (.ret (some l)) := ⟨l, rfl, h⟩

theorem leaves_close (rxSocket : Int) : Leaves (.ret (some (.rxClose rxSocket))) :=
  .inr ⟨rxSocket, rfl⟩

theorem Loops.bind {α : Type} {P : α → Prop} {p : Cmd α} {f : α → Cmd (Option Label)}
    (hp : Quietly P p) (hf : ∀ a, P a → Loops (f a)) : Loops (p >>= f) := by
  induction p with
  | ret a => exact hf a hp
  | op o k ih =>
      obtain ⟨hquiet, hk⟩ := (Prog.only_op o k).mp hp
      exact ⟨hquiet, fun r => .inl (ih r (hk r))⟩

theorem body_loops {l : Label} (hl : l.inLoop = true) : Loops (body b l) := by
  cases l with
  | rxStart =>
      simp only [body, rxStart, Prog.op_bind, Prog.ret_bind, Prog.pure_eq]
      refine ⟨rfl, fun _ => .inl ⟨rfl, fun rxSocket => ?_⟩⟩
      dsimp only
      split
      · rename_i herr
        exact .inr ⟨.inl rfl, herr⟩
      · refine .inl ⟨rfl, fun ret => ?_⟩
        dsimp only
        split
        · rename_i herr
          exact .inr ⟨leaves_close _, herr⟩
        · exact .inl (loops_some rfl)
  | rxLoop rxSocket =>
      simp only [body, rxLoop, getAndSetRadioStatus, Prog.op_bind, Prog.ret_bind,
        Prog.bind_assoc]
      refine ⟨rfl, fun _ => .inl ?_⟩
      refine Loops.bind (withPowerLibrary_quietly refreshRadioStatus_quietly) fun _ _ => ?_
      refine ⟨rfl, fun status => ?_⟩
      dsimp only
      split
      · exact .inl (loops_some rfl)
      · rename_i hdown
        exact .inr ⟨leaves_close _, hdown⟩
  | rxPoll rxSocket =>
      simp only [body, rxPoll, Prog.op_bind, Prog.ret_bind, Prog.pure_eq]
      refine ⟨rfl, fun n => ?_⟩
      cases n with
      | again => exact .inl (loops_some rfl)
      | error => exact .inr ⟨leaves_close _, rfl⟩
      | ok n =>
          refine .inl ?_
          dsimp only
          split <;> exact loops_some rfl
  | rxRead rxSocket =>
      simp only [body, rxRead, Prog.op_bind, Prog.ret_bind, Prog.pure_eq]
      refine ⟨rfl, fun packet => ?_⟩
      cases packet with
      | again => exact .inl (loops_some rfl)
      | error => exact .inr ⟨leaves_close _, rfl⟩
      | ok packet => exact .inl (Loops.bind (quietly_of_transfers (deliver_transfers _ _))
          fun _ _ => loops_some rfl)
  | _ => cases hl

theorem lockAct_of_quiet {o : Op} (h : Quiet o) : lockAct o = .plain := by
  cases o <;> simp_all [Quiet, quiet, lockAct]

section until_
variable {allowed : (o : Op) → o.Res → Prop} {goal stop : Op → Prop} {α β : Type}

/-- A program that has to reach the goal does so whatever follows it. -/
theorem until_bind_goal {Q : β → Prop} {p : Cmd α} {f : α → Cmd β}
    (h : p.Until allowed goal stop fun _ => False) : (p >>= f).Until allowed goal stop Q :=
  (Prog.until_bind p f).mpr
    (h.mono (fun _ _ hr => hr) (fun _ ho => ho) (fun _ ho => ho) fun _ hf => hf.elim)

theorem until_bind_quietly {P : α → Prop} {Q : β → Prop} {p : Cmd α} {f : α → Cmd β}
    (hstop : ∀ o, Quiet o → ¬ stop o) (hp : Quietly P p)
    (hf : ∀ a, P a → (f a).Until allowed goal stop Q) :
    (p >>= f).Until allowed goal stop Q :=
  (Prog.until_bind p f).mpr
    ((hp.until hstop).mono (fun _ _ hr => hr) (fun _ ho => ho) (fun _ ho => ho) hf)

end until_

section notices
variable {l : Label} {p : Nat}

abbrev Noticing (l : Label) (p : Nat) {α : Type} (Q : α → Prop) (prog : Cmd α) : Prop :=
  prog.Until (noticing l p) (fun o => o = .clearThread) (fun o => lockAct o = .unlock) Q

theorem quiet_not_unlock (o : Op) (h : Quiet o) : ¬ lockAct o = .unlock := by
  simp [lockAct_of_quiet h]

theorem joinThread_noticing (hp : p ≠ 0) : Noticing l p (fun _ => False) joinThread := by
  simp only [joinThread, Prog.op_bind, Prog.ret_bind, Prog.pure_eq]
  refine .step (by simp [lockAct]) fun r hr => ?_
  obtain rfl : r = p := hr
  rw [if_pos hp]
  refine .step (by simp [lockAct]) fun _ _ => ?_
  exact .step (by simp [lockAct]) fun _ _ => .reached rfl

theorem getAndSetRadioStatus_noticing :
    Noticing .enableRadio p (fun status => status ≠ .enabled) (getAndSetRadioStatus b) := by
  simp only [getAndSetRadioStatus, Prog.op_bind, Prog.ret_bind]
  refine .step nofun fun _ _ => ?_
  refine until_bind_quietly quiet_not_unlock
    (withPowerLibrary_quietly refreshRadioStatus_quietly) fun _ _ => ?_
  exact .step nofun fun status hstatus => hstatus rfl

theorem enableRadioLocked_noticing (hp : p ≠ 0) :
    Noticing .enableRadio p (fun _ => False) (enableRadioLocked b) := by
  refine (Prog.until_bind _ _).mpr (getAndSetRadioStatus_noticing.mono (fun _ _ hr => hr)
    (fun _ ho => ho) (fun _ ho => ho) fun status hstatus => until_bind_goal ?_)
  rw [beginEnabling, if_pos hstatus]
  exact until_bind_goal (joinThread_noticing hp)

theorem disableRadioLocked_noticing (hp : p ≠ 0) :
    Noticing l p (fun _ => False) (disableRadioLocked b) :=
  until_bind_quietly quiet_not_unlock beginDisabling_quietly fun _ _ =>
    until_bind_goal (joinThread_noticing hp)

theorem underTxLock_noticing {f : Func} {locked : Cmd AntStatus}
    (h : Noticing l p (fun _ => False) locked) :
    Noticing l p (fun _ => False) (underTxLock f locked) := by
  simp only [underTxLock, Prog.op_bind, Prog.ret_bind, Prog.pure_eq]
  refine .step (by simp [lockAct]) fun lockResult hr => ?_
  obtain rfl : lockResult = 0 := hr
  rw [if_neg (not_not.mpr rfl)]
  exact until_bind_goal h

end notices

/-- While the recorded thread is alive, the program cannot forget it: it would
have to join it first. -/
def Spares (p : Nat) (prog : Cmd (Option Label)) : Prop :=
  prog.Until (sparing p) joinsOrUnlocks forgets fun _ => False
where
  sparing (p : Nat) : (o : Op) → o.Res → Prop
    | .getThread, r => r = p
    | _, _ => True
  joinsOrUnlocks : Op → Prop
    | .pthreadJoin _ => True
    | o => lockAct o = .unlock
  forgets (o : Op) : Prop := o = .clearThread ∨ o = .pthreadCreate

section spares
variable {p : Nat}

abbrev Sparing (p : Nat) {α : Type} (Q : α → Prop) (prog : Cmd α) : Prop :=
  prog.Until (Spares.sparing p) Spares.joinsOrUnlocks Spares.forgets Q

theorem quiet_not_forgets (o : Op) (h : Quiet o) : ¬ Spares.forgets o := by
  rintro (rfl | rfl) <;> cases h

theorem joinThread_sparing (hp : p ≠ 0) : Sparing p (fun _ => False) joinThread := by
  simp only [joinThread, Prog.op_bind, Prog.ret_bind, Prog.pure_eq]
  refine .step (by simp [Spares.forgets]) fun r hr => ?_
  obtain rfl : r = p := hr
  rw [if_pos hp]
  exact .step (by simp [Spares.forgets]) fun _ _ => .reached trivial

theorem connectThread_sparing (hp : p ≠ 0) (result : Int) :
    Sparing p (fun _ => True) (connectThread b result) := by
  simp only [connectThread, Prog.op_bind, Prog.ret_bind, Prog.pure_eq]
  split
  · refine .step (by simp [Spares.forgets]) fun r hr => ?_
    obtain rfl : r = p := hr
    rw [if_pos hp]
    exact .step (by simp [Spares.forgets]) fun _ _ => trivial
  · trivial

theorem enableRadioLocked_sparing (hp : p ≠ 0) :
    Sparing p (fun _ => True) (enableRadioLocked b) := by
  refine until_bind_quietly quiet_not_forgets getAndSetRadioStatus_quietly fun status _ => ?_
  refine (Prog.until_bind _ _).mpr ?_
  unfold beginEnabling
  split
  · exact until_bind_goal (joinThread_sparing hp)
  · refine until_bind_quietly quiet_not_forgets powerOn_quietly fun result _ => ?_
    refine (Prog.until_bind _ _).mpr ((connectThread_sparing hp result).mono (fun _ _ hr => hr)
      (fun _ ho => ho) (fun _ ho => ho) fun ret _ => ?_)
    exact until_bind_quietly quiet_not_forgets (enableCleanUp_quietly ret) fun _ _ => trivial

theorem underTxLock_sparing {f : Func} {locked : Cmd AntStatus}
    (h : Sparing p (fun _ => True) locked) :
    Sparing p (fun _ => False) (underTxLock f locked) := by
  simp only [underTxLock, Prog.op_bind, Prog.ret_bind, Prog.pure_eq]
  refine .step (by simp [Spares.forgets]) fun lockResult _ => ?_
  split
  · exact .reached rfl
  · refine (Prog.until_bind _ _).mpr (h.mono (fun _ _ hr => hr) (fun _ ho => ho)
      (fun _ ho => ho) fun ret _ => ?_)
    exact .step (by simp [Spares.forgets]) fun _ _ => .reached rfl

end spares

section entering

def NotLocking (o : Op) : Prop := lockAct o ≠ .lock

theorem Quietly.notLocking {α : Type} {P : α → Prop} {p : Cmd α} (h : Quietly P p) :
    p.Only NotLocking fun _ => True :=
  h.mono (fun o ho => by simp [NotLocking, lockAct_of_quiet ho]) fun _ _ => trivial

theorem joinThread_notLocking : joinThread.Only NotLocking fun _ => True := by
  simp [joinThread, NotLocking, lockAct]

theorem connectThread_notLocking (result : Int) :
    (connectThread b result).Only NotLocking fun _ => True := by
  have hstart : (enabledWithThread b >>= fun _ => (.ret .success : Cmd AntStatus)).Only
      NotLocking fun _ => True :=
    enabledWithThread_quietly.notLocking.bind fun _ _ => trivial
  simp [connectThread, NotLocking, lockAct, hstart]

theorem enableRadioLocked_notLocking : (enableRadioLocked b).Only NotLocking fun _ => True := by
  refine getAndSetRadioStatus_quietly.notLocking.bind fun status _ => ?_
  refine Prog.Only.bind (Q := fun _ => True) ?_ fun _ _ =>
    powerOn_quietly.notLocking.bind fun result _ =>
      (connectThread_notLocking result).bind fun ret _ =>
        (enableCleanUp_quietly ret).notLocking.bind fun _ _ => trivial
  refine Prog.only_ite.mpr ⟨fun _ => joinThread_notLocking.bind fun _ _ => ?_, fun _ => trivial⟩
  refine (Prog.only_op _ _).mpr ⟨by simp [NotLocking, lockAct], fun _ => ?_⟩
  exact (withPowerLibrary_quietly reportRadioStatus_quietly).notLocking

theorem disableRadioLocked_notLocking :
    (disableRadioLocked b).Only NotLocking fun _ => True :=
  beginDisabling_quietly.notLocking.bind fun _ _ => joinThread_notLocking.bind fun _ _ =>
    getAndSetRadioStatus_quietly.notLocking.bind fun _ _ => trivial

theorem underTxLock_notLocking {f : Func} {locked : Cmd AntStatus}
    (h : locked.Only NotLocking fun _ => True) :
    (underTxLock f locked).Only NotLocking fun _ => True := by
  have hunlock : ∀ ret, (mutexUnlock .txLock >>= fun _ => unlockReturn f ret >>= fun _ =>
      (.ret ret : Cmd AntStatus)).Only NotLocking fun _ => True := by
    simp [NotLocking, lockAct]
  simp only [underTxLock, Prog.op_bind, Prog.ret_bind, Prog.pure_eq, Prog.only_op, Prog.only_ite,
    Prog.only_ret]
  refine ⟨by simp [NotLocking, lockAct], fun _ => ⟨fun _ => ?_, fun _ => ?_⟩⟩
  · exact ⟨by simp [NotLocking, lockAct], fun _ => trivial⟩
  · exact h.bind fun ret _ => hunlock ret

/-- Who takes enableLock will notice a recorded thread that has left, and does
not forget one that is alive, unless it disables the radio. -/
def entering (l : Label) : (o : Op) → (o.Res → Cmd (Option Label)) → Prop
  | .mutexLock .enableLock, k => ∀ p, p ≠ 0 →
    Notices l p (k 0) ∧ (l = .disableRadio ∨ l = .enableRadio ∧ Spares p (k 0))
  | .mutexTrylock, k => ∀ p, Notices l p (k 0)
  | _, _ => True

theorem entering_of_notLocking {l : Label} {p : Cmd (Option Label)}
    (h : p.Only NotLocking fun _ => True) : p.Always (entering l) := by
  refine h.always fun o k ho => ?_
  cases o with
  | mutexLock lock =>
      cases lock with
      | enableLock => exact absurd rfl ho
      | txLock => trivial
  | mutexTrylock => exact absurd rfl ho
  | _ => trivial

theorem antEnableRadio_entering : (body b .enableRadio).Always (entering .enableRadio) := by
  simp only [body, antEnableRadio, Prog.op_bind, Prog.ret_bind, Prog.pure_eq]
  refine ⟨trivial, fun _ => ⟨fun p hp => ?_, fun r => ?_⟩⟩
  · refine ⟨?_, .inr ⟨rfl, ?_⟩⟩
    · exact until_bind_goal (until_bind_quietly quiet_not_unlock markEnabling_quietly fun _ _ =>
        underTxLock_noticing (enableRadioLocked_noticing hp))
    · exact until_bind_goal (until_bind_quietly quiet_not_forgets markEnabling_quietly fun _ _ =>
        underTxLock_sparing (enableRadioLocked_sparing hp))
  · refine entering_of_notLocking (Prog.Only.bind (Q := fun _ => True) ?_ fun _ _ => trivial)
    refine Prog.only_ite.mpr ⟨fun _ => by simp [NotLocking, lockAct], fun _ => ?_⟩
    exact markEnabling_quietly.notLocking.bind fun _ _ =>
      underTxLock_notLocking enableRadioLocked_notLocking

theorem antDisableRadio_entering : (body b .disableRadio).Always (entering .disableRadio) := by
  simp only [body, antDisableRadio, Prog.op_bind, Prog.ret_bind, Prog.pure_eq]
  refine ⟨trivial, fun _ => ⟨fun p hp => ⟨?_, .inl rfl⟩, fun r => ?_⟩⟩
  · exact until_bind_goal (underTxLock_noticing (disableRadioLocked_noticing hp))
  · refine entering_of_notLocking (Prog.Only.bind (Q := fun _ => True) ?_ fun _ _ => trivial)
    refine Prog.only_ite.mpr ⟨fun _ => by simp [NotLocking, lockAct], fun _ => ?_⟩
    exact underTxLock_notLocking disableRadioLocked_notLocking

theorem rxClose_entering (rxSocket : Int) :
    (rxClose b rxSocket).Always (entering (.rxClose rxSocket)) := by
  simp only [rxClose, Prog.op_bind, Prog.ret_bind, Prog.pure_eq]
  refine ⟨fun p => until_bind_goal ?_, fun r => ?_⟩
  · exact until_bind_quietly quiet_not_unlock crashDisable_quietly fun _ _ => .reached rfl
  · refine entering_of_notLocking (Prog.Only.bind (Q := fun _ => True) ?_ fun _ _ => ?_)
    · refine Prog.only_ite.mpr ⟨fun _ => ?_, fun _ => trivial⟩
      exact crashDisable_quietly.notLocking.bind fun _ _ => by simp [NotLocking, lockAct]
    · simp [NotLocking, lockAct]

theorem body_entering (l : Label) : (body b l).Always (entering l) := by
  cases l with
  | enableRadio => exact antEnableRadio_entering
  | disableRadio => exact antDisableRadio_entering
  | rxClose rxSocket => exact rxClose_entering rxSocket
  | radioEnabledStatus =>
      exact entering_of_notLocking
        (antRadioEnabledStatus_quietly.notLocking.bind fun _ _ => trivial)
  | txMessage pucMesg => exact entering_of_notLocking (antTxMessage_quietly pucMesg).notLocking
  | txWrite tx =>
      exact entering_of_notLocking (quietly_of_transfers (txWrite_transfers tx)).notLocking
  | txWait tx =>
      exact entering_of_notLocking (quietly_of_transfers (txWait_transfers tx)).notLocking
  | txRead tx =>
      exact entering_of_notLocking (quietly_of_transfers (txRead_transfers tx)).notLocking
  | txClose tx =>
      exact entering_of_notLocking (quietly_of_transfers (txClose_transfers tx)).notLocking
  | rxStart => exact entering_of_notLocking (quietly_of_transfers rxStart_transfers).notLocking
  | rxLoop rxSocket => exact entering_of_notLocking (rxLoop_quietly rxSocket).notLocking
  | rxPoll rxSocket =>
      exact entering_of_notLocking (quietly_of_transfers (rxPoll_transfers rxSocket)).notLocking
  | rxRead rxSocket =>
      exact entering_of_notLocking (quietly_of_transfers (rxRead_transfers rxSocket)).notLocking

end entering

end code

/-- Where a recorded thread can be. Once it has left its loop, whoever holds
enableLock will notice; a thread that has missed its clean-up leaves the lock held. -/
inductive Stage (b : Build) (c : ThreadConfig) (th : Thread Op Op.Res Label) : Prop where
  | live (label : th.label.inLoop = true) (running : th.terminated = false)
      (loops : Loops th.code)
      (unlocked : c.shared.locks .enableLock ≠ some (.rx c.shared.thread))
  | closing (rxSocket : Int) (code : th = ⟨.rxClose rxSocket, rxClose b rxSocket⟩)
      (attended : Attended c)
  | gone (left : hasLeft th = true) (next : th.code.Returns fun l => l = none)
      (attended : Attended c) (held : c.shared.locks .enableLock ≠ none)

/-- The recorded thread exists, at one of its stages. -/
def Recorded (b : Build) (c : ThreadConfig) : Prop :=
  c.shared.thread ≠ 0 → ∃ th, c.pool (.rx c.shared.thread) = some th ∧ Stage b c th

/-- What holds along every mindful run. -/
structure Watched (b : Build) (c : ThreadConfig) : Prop where
  holds : (enableLock b).Holds c
  entering : Machine.PoolAlways entering c
  recorded : Recorded b c

section steps
variable {t : Tid} {env : Env} {l : Label} {o : Op} {k : o.Res → Cmd (Option Label)}

theorem resume_until {allowed : (o : Op) → o.Res → Prop} {goal stop : Op → Prop}
    {p : Cmd (Option Label)} (h : p.Until allowed goal stop fun _ => False) (l : Label) :
    (machine b).resume l p = ⟨l, p⟩ := by
  cases p with
  | ret a => exact h.elim
  | op o k => rfl

theorem resume_returns_none {l : Label} {p : Cmd (Option Label)}
    (h : p.Returns fun a => a = none) : (machine b).resume l p = ⟨l, p⟩ := by
  rcases (machine b).resume_cases l p with ⟨l', rfl, -⟩ | hresume
  · cases h
  · exact hresume

theorem notices_of_entering (h : entering l o k) (hact : lockAct o = .lock) {p : Nat}
    (hp : p ≠ 0) {r : o.Res} (hr : lockAnswer o r true) : Notices l p (k r) := by
  cases o with
  | mutexLock lock =>
      cases lock with
      | txLock => cases hact
      | enableLock =>
          obtain rfl : r = 0 := hr.mp rfl
          exact (h p hp).1
  | mutexTrylock =>
      obtain rfl : r = 0 := hr.mp rfl
      exact h p
  | mutexUnlock lock => cases lock <;> cases hact
  | _ => cases hact

/-- Once the recorded thread has left, the holder of the lock keeps noticing. -/
theorem attended_act (hI : Watched b c) (ha : (machine b).Acts t env c d l o k)
    (hm : Mindful c t env l o (effect t env o c.shared).1 (k (effect t env o c.shared).1))
    (hthread : c.shared.thread ≠ 0) (hsame : d.shared.thread = c.shared.thread)
    (hleft : (c.pool (.rx c.shared.thread)).any hasLeft = true) (hatt : Attended c) :
    Attended d ∧ (c.shared.locks .enableLock ≠ none → d.shared.locks .enableLock ≠ none) := by
  have hothers : d.shared.locks .enableLock = c.shared.locks .enableLock →
      ∀ u, u ≠ t → d.shared.locks .enableLock = some u →
      ∃ th, d.pool u = some th ∧ Notices th.label d.shared.thread th.code := by
    intro hlock u hu hown
    obtain ⟨th, hth, hnotices⟩ := hatt u (hlock ▸ hown)
    exact ⟨th, ha.kept hu hth, hsame ▸ hnotices⟩
  have hself : Notices l c.shared.thread (k (effect t env o c.shared).1) →
      ∃ th, d.pool t = some th ∧ Notices th.label d.shared.thread th.code := by
    intro hk
    refine ⟨⟨l, k (effect t env o c.shared).1⟩, ?_, hsame ▸ hk⟩
    exact ha.self.2.trans (congrArg some (resume_until hk l))
  rcases Monitor.lockStep hI.holds ha trivial with ⟨hact, hlock, -⟩ |
    ⟨hact, hans, hfree, hmine, -⟩ | ⟨hact, -, hother, hlock, -⟩ | ⟨hact, hmine, -, -⟩
  · change d.shared.locks .enableLock = c.shared.locks .enableLock at hlock
    refine ⟨fun u hu => ?_, fun hheld => hlock ▸ hheld⟩
    by_cases hut : u = t
    · subst hut
      obtain ⟨th, hth, hnotices⟩ := hatt u (hlock ▸ hu)
      rw [ha.thread] at hth
      cases hth
      rcases hnotices with rfl | ⟨-, hnext⟩
      · exact absurd (hsame.symm.trans (congrArg Shared.thread ha.shared)) hthread
      · exact hself (hnext _ (hm.notices hleft (hlock ▸ hu)))
    · exact hothers hlock u hut hu
  · refine ⟨fun u hu => ?_, fun hheld => absurd hfree hheld⟩
    obtain rfl : t = u := Option.some.inj (hmine.symm.trans hu)
    exact hself (notices_of_entering (hI.entering t _ ha.thread).1 hact hthread hans)
  · refine ⟨fun u hu => hothers hlock u ?_ hu, fun hheld hfree => hheld (hlock.symm.trans hfree)⟩
    rintro rfl
    exact hother (hlock.symm.trans hu)
  · obtain ⟨th, hth, hnotices⟩ := hatt t hmine
    rw [ha.thread] at hth
    cases hth
    rcases hnotices with rfl | ⟨hstop, -⟩
    · cases hact
    · exact absurd hact hstop

theorem resume_loops {p : Cmd (Option Label)} (h : Loops p) (hl : l.inLoop = true) :
    ∃ th, (machine b).resume l p = th ∧ th.label.inLoop = true ∧ th.terminated = false ∧
      Loops th.code := by
  cases p with
  | ret a =>
      obtain ⟨l', rfl, hl'⟩ := h
      refine ⟨⟨l', body b l'⟩, rfl, hl', ?_, body_loops hl'⟩
      cases l' <;> first | rfl | cases hl'
  | op o k => exact ⟨_, rfl, hl, rfl, h⟩

theorem Attended.transfer (h : Attended c) (hthread : d.shared.thread = c.shared.thread)
    (hlock : d.shared.locks .enableLock = c.shared.locks .enableLock)
    (hkept : ∀ u th, d.shared.locks .enableLock = some u → c.pool u = some th →
      d.pool u = some th) : Attended d := by
  intro u hu
  obtain ⟨th, hth, hnotices⟩ := h u (hlock ▸ hu)
  exact ⟨th, hkept u th hu hth, hthread ▸ hnotices⟩

/-- A live recorded thread takes a step: it stays in its loop or leaves it. -/
theorem stage_live (ha : (machine b).Acts t env c d l o k)
    (hm : Mindful c t env l o (effect t env o c.shared).1 (k (effect t env o c.shared).1))
    (ht : t = .rx c.shared.thread) (hsame : d.shared.thread = c.shared.thread)
    (hlabel : l.inLoop = true) (hloops : Loops (.op o k))
    (hunlocked : c.shared.locks .enableLock ≠ some t) :
    ∃ th, d.pool t = some th ∧ Stage b d th := by
  obtain ⟨hquiet, hnext⟩ := hloops
  have hact : (enableLock b).lockAct o = .plain := lockAct_of_quiet hquiet
  have hlock : d.shared.locks .enableLock = c.shared.locks .enableLock :=
    (congrArg (fun s : Shared => s.locks .enableLock) ha.shared).trans
      (enableLock_kept t env c.shared hact)
  have hpool : d.pool t = some ((machine b).resume l (k (effect t env o c.shared).1)) :=
    ha.self.2
  rcases hnext (effect t env o c.shared).1 with hstays | ⟨hleaves, -⟩
  · obtain ⟨th, hth, hl, hrun, hcode⟩ := resume_loops (b := b) hstays hlabel
    rw [hth] at hpool
    exact ⟨th, hpool, .live hl hrun hcode (by rw [hlock, hsame, ← ht]; exact hunlocked)⟩
  · obtain ⟨hatt, hheld⟩ := hm.leaves ht hlabel hleaves
    have hatt' : Attended d := hatt.transfer hsame hlock fun u th hu hth =>
      ha.kept (fun hut => hunlocked (hlock ▸ hut ▸ hu)) hth
    rcases hleaves with hend | ⟨rxSocket, hend⟩
    · rw [hend] at hpool
      exact ⟨_, hpool, .gone rfl rfl hatt' (hlock ▸ hheld hend)⟩
    · rw [hend] at hpool
      exact ⟨_, hpool, .closing rxSocket rfl hatt'⟩

theorem stage_left (hI : Watched b c) (ha : (machine b).Acts t env c d l o k)
    (hm : Mindful c t env l o (effect t env o c.shared).1 (k (effect t env o c.shared).1))
    (hlabel : l.inLoop = false) (hreturns : (Prog.op o k).Returns fun a => a = none)
    (hatt : Attended d) (hheld : o ≠ .mutexTrylock → d.shared.locks .enableLock ≠ none) :
    ∃ th, d.pool t = some th ∧ Stage b d th := by
  have hnext := hreturns (effect t env o c.shared).1
  refine ⟨⟨l, k (effect t env o c.shared).1⟩,
    ha.self.2.trans (congrArg some (resume_returns_none hnext)), ?_⟩
  refine .gone (by simp [hasLeft, hlabel]) hnext hatt ?_
  by_cases ho : o = .mutexTrylock
  · subst ho
    rcases Monitor.lockStep hI.holds ha trivial with ⟨hact, -, -⟩ | ⟨-, -, -, hmine, -⟩ |
      ⟨-, hans, -, hlock, -⟩ | ⟨hact, -, -, -⟩
    · cases hact
    · exact fun hfree => nomatch hmine.symm.trans hfree
    · intro hfree
      have hfree' : c.shared.locks .enableLock = none := hlock.symm.trans hfree
      have hok := hm.trylock rfl hfree'
      have hr : (effect t env .mutexTrylock c.shared).1 = 0 := by simp [effect, hfree', hok]
      exact Bool.false_ne_true (hans.mpr hr)
    · cases hact
  · exact hheld ho

theorem recorded_act (hI : Watched b c) (ha : (machine b).Acts t env c d l o k)
    (hm : Mindful c t env l o (effect t env o c.shared).1 (k (effect t env o c.shared).1)) :
    Recorded b d := by
  have hshared : d.shared = (effect t env o c.shared).2 := ha.shared
  intro hthread
  have hcases := thread_effect t env o c.shared
  rw [← hshared] at hcases
  rcases hcases with hsame | hzero | hnew
  · rw [hsame] at hthread ⊢
    obtain ⟨th, hth, hstage⟩ := hI.recorded hthread
    have hother : t ≠ .rx c.shared.thread → d.pool (.rx c.shared.thread) = some th :=
      fun ht => ha.kept (Ne.symm ht) hth
    have hlast : ∀ {p : Bool}, hasLeft th = p →
        (c.pool (.rx c.shared.thread)).any hasLeft = p := by
      intro p hp
      simpa [hth] using hp
    cases hstage with
    | live label running loops unlocked =>
        by_cases ht : t = .rx c.shared.thread
        · subst ht
          have hcode := hth.symm.trans ha.thread
          cases hcode
          exact stage_live ha hm rfl hsame label loops unlocked
        · refine ⟨th, hother ht, .live label running loops fun hu => ?_⟩
          rw [hsame] at hu
          exact (Monitor.owner_next hI.holds ha trivial hu).elim (fun heq => ht heq.symm) unlocked
    | closing rxSocket code attended =>
        subst code
        obtain ⟨hatt, -⟩ := attended_act hI ha hm hthread hsame (hlast rfl) attended
        by_cases ht : t = .rx c.shared.thread
        · subst ht
          have hcode := hth.symm.trans ha.thread
          cases hcode
          refine stage_left hI ha hm rfl (rxClose_returns rxSocket) hatt fun ho => ?_
          exact absurd rfl ho
        · exact ⟨_, hother ht, .closing rxSocket rfl hatt⟩
    | gone left next attended held =>
        obtain ⟨hatt, hheld⟩ := attended_act hI ha hm hthread hsame (hlast left) attended
        by_cases ht : t = .rx c.shared.thread
        · subst ht
          have hcode := hth.symm.trans ha.thread
          cases hcode
          refine stage_left hI ha hm
            (by simpa [hasLeft, Thread.terminated, Thread.head?] using left)
            next hatt fun _ => hheld held
        · exact ⟨th, hother ht, .gone left next hatt (hheld held)⟩
  · exact absurd hzero hthread
  · obtain ⟨hunused, hcreated⟩ := ha.created _ _ hnew
    have hloops : Loops (body b .rxStart) := body_loops rfl
    refine ⟨_, hcreated, .live rfl rfl hloops fun hu => ?_⟩
    -- The owner of a lock is in the pool, the new thread was not.
    rcases Monitor.owner_next hI.holds ha trivial hu with rfl | howner
    · cases hunused.symm.trans ha.thread
    · have hexists := hI.holds.owner _ howner
      simp [hunused] at hexists

theorem recorded_start {t : Tid} {l : Label} (hI : Watched b c)
    (hs : (machine b).step (.start t l) c = some d) : Recorded b d := by
  obtain ⟨-, -, hd⟩ := Machine.step_start hs
  have hshared : d.shared = c.shared := by rw [hd]
  have hatt : Attended c → Attended d := fun h =>
    h.transfer (congrArg Shared.thread hshared) (by rw [hshared]) fun u th _ hth =>
      Machine.step_start_kept hs hth
  intro hthread
  rw [hshared] at hthread ⊢
  obtain ⟨th, hth, hstage⟩ := hI.recorded hthread
  refine ⟨th, Machine.step_start_kept hs hth, ?_⟩
  cases hstage with
  | live label running loops unlocked => exact .live label running loops (by rwa [hshared])
  | closing rxSocket code attended => exact .closing rxSocket code (hatt attended)
  | gone left next attended held => exact .gone left next (hatt attended) (by rwa [hshared])

theorem watched_step (hI : Watched b c) {mv : Move Label Tid Env} (hm : mindful c mv)
    (hs : (machine b).step mv c = some d) : Watched b d := by
  refine ⟨Monitor.holds_step (enableLock_checked b) hI.holds (enableLock_allowed c mv) hs,
    Machine.poolAlways_step body_entering hI.entering hs, ?_⟩
  cases mv with
  | start t l => exact recorded_start hI hs
  | act t env =>
      obtain ⟨l, o, k, ha⟩ := Machine.step_act hs
      exact recorded_act hI ha (hm l o k ha.thread)

/-- A mindful run never leaves a dead thread recorded while the lock is free. -/
theorem watched_path {stateCallback rxCallback : Bool}
    (h : (machine b).Path mindful (initConfig stateCallback rxCallback) c) : Watched b c :=
  h.invariant (fun _ _ _ hx hC hs => watched_step hx hC hs)
    ⟨enableLock_holds (.refl _), (fun _ _ hth => nomatch hth), fun hthread => absurd rfl hthread⟩

end steps

section success

/-- The radio after a successful enable, while nothing disturbs it. -/
structure Calm (b : Build) (c : ThreadConfig) : Prop where
  watched : Watched b c
  enabled : c.shared.radioStatus = .enabled
  thread : c.shared.thread ≠ 0
  live : ∃ th, c.pool (.rx c.shared.thread) = some th ∧ th.label.inLoop = true ∧
    th.terminated = false ∧ Loops th.code
  spared : ∀ u, c.shared.locks .enableLock = some u →
    ∃ th, c.pool u = some th ∧ th.label = .enableRadio ∧ Spares c.shared.thread th.code

theorem Calm.looping (h : Calm b c) : looping c = true := by
  obtain ⟨th, hth, hlabel, hrun, -⟩ := h.live
  simp [Bluez.looping, h.thread, hth, hasLeft, hlabel, hrun]

theorem EnabledIsLive.of_watched (h : Watched b c) : EnabledIsLive c := by
  intro hfree _ hthread
  obtain ⟨th, hth, hstage⟩ := h.recorded hthread
  simp only [hth, Option.any_some, Bool.not_eq_true']
  cases hstage with
  | live label running loops unlocked => exact running
  | closing rxSocket code attended =>
      subst code
      rfl
  | gone left next attended held => exact absurd hfree held

section calm
variable {t : Tid} {env : Env} {l : Label} {o : Op} {k : o.Res → Cmd (Option Label)}

theorem Spares.not_forgets {p : Nat} (h : Spares p (.op o k)) : ¬ Spares.forgets o := by
  rcases h with hjoins | ⟨hkeeps, -⟩
  · rintro (rfl | rfl) <;> cases hjoins
  · exact hkeeps

/-- While nothing fails, the recorded thread does not leave its loop. -/
theorem not_leavingAnswer {c : ThreadConfig} (ht : c.pool t = some ⟨l, .op o k⟩)
    (hu : undisturbed c (.act t env) = true) (hl : l.inLoop = true)
    (henabled : c.shared.radioStatus = .enabled) :
    ¬ leavingAnswer o (effect t env o c.shared).1 := by
  have hfails : rxFails env o = false := by
    simp only [undisturbed, ht, hl, Bool.true_and, Bool.and_eq_true] at hu
    simpa using hu.1.2
  cases o with
  | createHciSock =>
      obtain ⟨n, hn⟩ := Option.isSome_iff_exists.mp (by simpa [rxFails] using hfails)
      simp [leavingAnswer, effect, hn]
  | setsockopt socket => simpa [leavingAnswer, effect, rxFails] using hfails
  | poll socket =>
      simp only [leavingAnswer, effect]
      intro herr
      simp [rxFails, herr] at hfails
  | read socket =>
      simp only [leavingAnswer, effect]
      intro herr
      cases hread : env.read <;> simp_all [rxFails]
  | returnRadioStatus => simp [leavingAnswer, effect, henabled]
  | _ => exact id

theorem Calm.not_joined (h : Calm b c) (ha : (machine b).Acts t env c d l o k)
    (hact : lockAct o ≠ .unlock) (hcheck : RecordCheck t o c.shared.record) :
    ¬ Spares.joinsOrUnlocks o := by
  cases o with
  | pthreadJoin p =>
      obtain rfl : p = c.shared.thread := hcheck.1
      obtain ⟨th, hth, -, hrun, -⟩ := h.live
      have hjoined : (c.pool (.rx c.shared.thread)).any Thread.terminated = true := ha.ready
      simp [hth, hrun] at hjoined
  | _ => exact hact

/-- Who takes enableLock while nothing is disturbed spares the recorded thread. -/
theorem spares_of_locked (h : Calm b c) (ha : (machine b).Acts t env c d l o k)
    (hu : undisturbed c (.act t env) = true) (hact : lockAct o = .lock)
    (hfree : c.shared.locks .enableLock = none)
    (hans : lockAnswer o (effect t env o c.shared).1 true) :
    l = .enableRadio ∧ Spares c.shared.thread (k (effect t env o c.shared).1) := by
  simp only [undisturbed, ha.thread, Bool.and_eq_true, decide_eq_true_eq] at hu
  obtain ⟨⟨hlabel, -⟩, hundisturbed⟩ := hu
  cases o with
  | mutexLock lock =>
      cases lock with
      | txLock => cases hact
      | enableLock =>
          rw [show (effect t env (.mutexLock .enableLock) c.shared).1 = 0 from hans.mp rfl]
          have hentering := (h.watched.entering t _ ha.thread).1 _ h.thread
          exact hentering.2.resolve_left hlabel
  | mutexTrylock =>
      have hrefused : env.mutex ≠ 0 := by simpa [hfree] using hundisturbed
      have hzero : (effect t env .mutexTrylock c.shared).1 = 0 := hans.mp rfl
      simp [effect, hfree, hrefused] at hzero
  | mutexUnlock lock => cases lock <;> cases hact
  | _ => cases hact

/-- An owner of enableLock that acts is an enable that spares the recorded thread. -/
theorem Calm.owner_spares (h : Calm b c) (ha : (machine b).Acts t env c d l o k)
    (hown : c.shared.locks .enableLock = some t) :
    l = .enableRadio ∧ Spares c.shared.thread (.op o k) := by
  obtain ⟨th, hth, hlabel, hspares⟩ := h.spared t hown
  rw [ha.thread] at hth
  cases hth
  exact ⟨hlabel, hspares⟩

theorem Calm.thread_act (h : Calm b c) (ha : (machine b).Acts t env c d l o k) :
    d.shared.thread = c.shared.thread := by
  by_cases hown : c.shared.locks .enableLock = some t
  · have hkeeps := (h.owner_spares ha hown).2.not_forgets
    rw [ha.shared]
    exact thread_kept t env _ (fun ho => hkeeps (.inl ho)) fun ho => hkeeps (.inr ho)
  · exact congrArg Record.thread (Monitor.rely_step h.watched.holds ha trivial hown)

theorem Calm.enabled_act (h : Calm b c) (ha : (machine b).Acts t env c d l o k)
    (hu : undisturbed c (.act t env) = true) : d.shared.radioStatus = .enabled := by
  have hshared : d.shared = (effect t env o c.shared).2 := ha.shared
  rw [hshared]
  by_cases hstore : ∃ status, o = .setRadioStatus status
  · obtain ⟨status, rfl⟩ := hstore
    simp only [undisturbed, ha.thread, Bool.and_eq_true, decide_eq_true_eq] at hu
    exact hu.2
  · rw [radioStatus_kept t env _ fun status ho => hstore ⟨status, ho⟩]
    exact h.enabled

/-- The recorded thread stays in its loop, whoever acts. -/
theorem Calm.live_act (h : Calm b c) (ha : (machine b).Acts t env c d l o k)
    (hu : undisturbed c (.act t env) = true) :
    ∃ th, d.pool (.rx c.shared.thread) = some th ∧ th.label.inLoop = true ∧
      th.terminated = false ∧ Loops th.code := by
  obtain ⟨th, hth, hlabel, hrun, hloops⟩ := h.live
  by_cases ht : t = .rx c.shared.thread
  · subst ht
    have hcode := hth.symm.trans ha.thread
    cases hcode
    rcases hloops.2 (effect (.rx c.shared.thread) env o c.shared).1 with hstays | ⟨-, hleaves⟩
    · obtain ⟨th, hresume, hlive⟩ := resume_loops (b := b) hstays hlabel
      exact ⟨th, ha.self.2.trans (congrArg some hresume), hlive⟩
    · exact absurd hleaves (not_leavingAnswer ha.thread hu hlabel h.enabled)
  · exact ⟨th, ha.kept (Ne.symm ht) hth, hlabel, hrun, hloops⟩

/-- Who owns enableLock after the step spares the recorded thread: the owner is
the one before, or has just taken the lock. -/
theorem Calm.spared_act (h : Calm b c) (ha : (machine b).Acts t env c d l o k)
    (hu : undisturbed c (.act t env) = true) {u : Tid}
    (hown : d.shared.locks .enableLock = some u) :
    ∃ th, d.pool u = some th ∧ th.label = .enableRadio ∧ Spares c.shared.thread th.code := by
  have hself : l = .enableRadio → Spares c.shared.thread (k (effect t env o c.shared).1) →
      ∃ th, d.pool t = some th ∧ th.label = .enableRadio ∧ Spares c.shared.thread th.code :=
    fun hlabel hspares => ⟨⟨l, k (effect t env o c.shared).1⟩,
      ha.self.2.trans (congrArg some (resume_until hspares l)), hlabel, hspares⟩
  have hother : u ≠ t → c.shared.locks .enableLock = some u →
      ∃ th, d.pool u = some th ∧ th.label = .enableRadio ∧ Spares c.shared.thread th.code := by
    intro hut howner
    obtain ⟨th, hth, hkeeps⟩ := h.spared u howner
    exact ⟨th, ha.kept hut hth, hkeeps⟩
  rcases Monitor.lockStep h.watched.holds ha trivial with ⟨hact, hlock, -⟩ |
    ⟨hact, hans, hfree, hmine, -⟩ | ⟨-, -, hnot, hlock, -⟩ | ⟨-, -, hfree, -⟩
  · have howner := hlock.symm.trans hown
    by_cases hut : u = t
    · subst hut
      obtain ⟨hlabel, hspares⟩ := h.owner_spares ha howner
      rcases hspares with hjoins | ⟨-, hnext⟩
      · exact absurd hjoins (h.not_joined ha (by simp [show lockAct o = .plain from hact])
          (h.watched.holds.checks ha.thread howner).2)
      · refine hself hlabel (hnext _ ?_)
        cases o with
        | getThread => rfl
        | _ => trivial
    · exact hother hut howner
  · obtain rfl : t = u := Option.some.inj (hmine.symm.trans hown)
    obtain ⟨hlabel, hspares⟩ := spares_of_locked h ha hu hact hfree hans
    exact hself hlabel hspares
  · have howner := hlock.symm.trans hown
    exact hother (fun hut => hnot (hut ▸ howner)) howner
  · exact nomatch hfree.symm.trans hown

theorem calm_act (h : Calm b c) (hw : Watched b d) (ha : (machine b).Acts t env c d l o k)
    (hu : undisturbed c (.act t env) = true) : Calm b d := by
  have hsame := h.thread_act ha
  refine ⟨hw, h.enabled_act ha hu, hsame ▸ h.thread, ?_, fun u hown => ?_⟩
  · rw [hsame]
    exact h.live_act ha hu
  · rw [hsame]
    exact h.spared_act ha hu hown

theorem calm_step (h : Calm b c) {mv : Move Label Tid Env} (hm : mindful c mv)
    (hu : undisturbed c mv = true) (hs : (machine b).step mv c = some d) : Calm b d := by
  have hw := watched_step h.watched hm hs
  cases mv with
  | start t l =>
      obtain ⟨-, -, hd⟩ := Machine.step_start hs
      have hshared : d.shared = c.shared := by rw [hd]
      obtain ⟨th, hth, hlive⟩ := h.live
      refine ⟨hw, hshared ▸ h.enabled, hshared ▸ h.thread,
        ⟨th, hshared ▸ Machine.step_start_kept hs hth, hlive⟩, fun u hown => ?_⟩
      obtain ⟨th, hth, hspared⟩ := h.spared u (hshared ▸ hown)
      exact ⟨th, Machine.step_start_kept hs hth, hshared ▸ hspared⟩
  | act t env =>
      obtain ⟨l, o, k, ha⟩ := Machine.step_act hs
      exact calm_act h hw ha hu

/-- A successful enable has left a live thread: the holder of enableLock would
not have ended without noticing a dead one. -/
theorem calm_of_success (hw : Watched b c) {mv : Move Label Tid Env}
    (hsuccess : returnsSuccess c mv = true) (hm : mindful c mv)
    (hs : (machine b).step mv c = some d) : Calm b d := by
  have hw' := watched_step hw hm hs
  cases mv with
  | start t l => cases hsuccess
  | act t env =>
      obtain ⟨l, o, k, ha⟩ := Machine.step_act hs
      obtain rfl : o = .unlockReturn .antEnableRadio .success := by
        simpa [returnsSuccess, ha.thread, Thread.head?] using hsuccess
      rcases Monitor.lockStep hw.holds ha trivial with ⟨hact, -, -⟩ | ⟨hact, -, -, -, -⟩ |
        ⟨hact, -, -, -, -⟩ | ⟨-, hmine, hfree, hkept⟩
      · cases hact
      · cases hact
      · cases hact
      · have hthread : c.shared.thread ≠ 0 := (hw.holds.checks ha.thread hmine).2 rfl rfl
        have hsame : d.shared.thread = c.shared.thread := congrArg Record.thread hkept
        have hstatus : d.shared.radioStatus = c.shared.radioStatus :=
          (congrArg Shared.radioStatus ha.shared).trans rfl
        have hunattended : ¬ Attended c := by
          intro hatt
          obtain ⟨th, hth, hnotices⟩ := hatt t hmine
          rw [ha.thread] at hth
          cases hth
          rcases hnotices with hclears | ⟨hstops, -⟩
          · cases hclears
          · exact hstops rfl
        refine ⟨hw', hstatus.trans ((hm l _ k ha.thread).returns rfl), hsame ▸ hthread, ?_,
          fun u hu => absurd (hu.symm.trans hfree) (Option.some_ne_none u)⟩
        obtain ⟨th, hth, hstage⟩ := hw.recorded hthread
        rw [hsame]
        cases hstage with
        | live label running loops unlocked =>
            have hother : Tid.rx c.shared.thread ≠ t := fun ht => unlocked (ht ▸ hmine)
            exact ⟨th, ha.kept hother hth, label, running, loops⟩
        | closing rxSocket code attended => exact absurd attended hunattended
        | gone left next attended held => exact absurd attended hunattended

/-- In a mindful run ENABLED means a live receiver, and after a successful enable
that nothing disturbs it is in its loop. -/
theorem enabled_liveReceiver {stateCallback rxCallback : Bool}
    (h : (machine b).Path mindful (initConfig stateCallback rxCallback) c) :
    EnabledIsLive c ∧ SuccessIsLooping b c mindful := by
  have hw := watched_path h
  refine ⟨.of_watched hw, fun mv d e hsuccess hm hs hpath => ?_⟩
  have hcalm : Calm b e :=
    hpath.invariant (fun _ _ _ hx hC hstep => calm_step hx hC.1 hC.2 hstep)
      (calm_of_success hw hsuccess hm hs)
  exact hcalm.looping

end calm

/-- A call of `ant_enable_radio` up to its return. -/
def enabling : List (Move Label Tid Env) :=
  .start (.app 0) .enableRadio :: List.replicate 13 (.act (.app 0) {})

def polledTwice : List (Move Label Tid Env) := List.replicate 8 (.act (.rx 1) {})

def leavesLoop : Cmd (Option Label) → Bool
  | .ret (some l) => !l.inLoop
  | .ret none => true
  | .op _ _ => false

/-- No receive thread leaves its loop or has left it, and an enable succeeds only
while the radio is ENABLED. -/
def nobodyLeaves (c : ThreadConfig) : Move Label Tid Env → Bool
  | .start _ _ => true
  | .act t env =>
    match c.pool t with
    | some ⟨l, .op o k⟩ =>
      !(c.pool (.rx c.shared.thread)).any hasLeft && decide (o ≠ .mutexTrylock) &&
        !(l.inLoop && leavesLoop (k (effect t env o c.shared).1)) &&
        (decide (c.shared.radioStatus = .enabled) ||
          decide (o ≠ .unlockReturn .antEnableRadio .success))
    | _ => true

theorem Leaves.leavesLoop {p : Cmd (Option Label)} (h : Leaves p) : leavesLoop p = true := by
  rcases h with rfl | ⟨rxSocket, rfl⟩ <;> rfl

theorem mindful_of_nobodyLeaves {mv : Move Label Tid Env} (h : nobodyLeaves c mv = true) :
    mindful c mv := by
  cases mv with
  | start t l => trivial
  | act t env =>
      intro l o k hth
      simp only [nobodyLeaves, hth, Bool.and_eq_true, Bool.or_eq_true, Bool.not_eq_true',
        decide_eq_true_eq] at h
      obtain ⟨⟨⟨hleft, htry⟩, hstays⟩, hreturns⟩ := h
      refine ⟨fun _ hl hleaves => ?_, fun ho => absurd ho htry, fun hany => ?_, fun ho => ?_⟩
      · rw [hl, hleaves.leavesLoop] at hstays
        cases hstays
      · rw [hleft] at hany
        cases hany
      · exact hreturns.resolve_right fun hne => hne ho

theorem enabled_liveReceiver_polledTwice :
    ∃ c e, EnabledIsLive c ∧ returnsSuccess c (.act (.app 0) {}) = true ∧ looping e = true := by
  let b : Build := ⟨.wl12xx, false⟩
  obtain ⟨c, hpath, hc⟩ := Machine.exec_any (machine b) nobodyLeaves enabling
    (initConfig true true) (fun c => returnsSuccess c (.act (.app 0) {}) &&
      nobodyLeaves c (.act (.app 0) {}) && ((machine b).step (.act (.app 0) {}) c).any fun d =>
        ((machine b).exec (fun x mv => nobodyLeaves x mv && undisturbed x mv) polledTwice d).isSome)
    (by decide)
  simp only [Bool.and_eq_true, Option.any_eq_true, Option.isSome_iff_exists] at hc
  obtain ⟨⟨hsuccess, hreturn⟩, d, hd, e, he⟩ := hc
  have hmindful := hpath.mono fun _ _ h => mindful_of_nobodyLeaves h
  have hpolls := (Machine.exec_path he).mono fun x mv h =>
    And.imp_left mindful_of_nobodyLeaves (Bool.and_eq_true_iff.mp h)
  obtain ⟨hlive, hloops⟩ := enabled_liveReceiver hmindful
  exact ⟨c, e, hlive, hsuccess,
    hloops _ d e hsuccess (mindful_of_nobodyLeaves hreturn) hd hpolls⟩

/-- The receive thread gets no socket, after `ant_enable_radio` has returned. -/
def enablingSocketless : List (Move Label Tid Env) :=
  enabling ++ .act (.app 0) {} :: List.replicate 2 (.act (.rx 1) { hciSock := none })

theorem enabled_notLiveReceiver :
    ¬ ∀ (b : Build) (stateCallback rxCallback : Bool) (c : ThreadConfig),
      (machine b).Reachable (initConfig stateCallback rxCallback) c →
      EnabledIsLive c ∧ SuccessIsLooping b c fun _ _ => True := by
  intro h
  obtain ⟨c, hpath, hc⟩ := Machine.exec_any (machine ⟨.wl12xx, false⟩) (fun _ _ => true)
    enablingSocketless (initConfig true true) (fun c => (c.shared.locks .enableLock).isNone &&
      decide (c.shared.radioStatus = .enabled) && decide (c.shared.thread ≠ 0) &&
      !(c.pool (.rx c.shared.thread)).any fun th => !th.terminated) (by decide)
  simp only [Bool.and_eq_true, Bool.not_eq_true', Option.isNone_iff_eq_none,
    decide_eq_true_eq] at hc
  obtain ⟨⟨⟨hfree, henabled⟩, hthread⟩, hdead⟩ := hc
  have hlive := (h _ true true c hpath.reachable).1 hfree henabled hthread
  rw [hdead] at hlive
  cases hlive

end success
end AntHal.Bluez
