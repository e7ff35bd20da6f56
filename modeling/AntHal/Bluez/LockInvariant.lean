import AntHal.Concurrency.MonitorRuns
import AntHal.Bluez.ReceiveThread

/-!
What enableLock protects.

The lock guards the recorded receive thread: a thread is created while none is
recorded, and the recorded one is joined, all of it with the lock. The application
forgets a thread behind its join only. A call of `ant_enable_radio` that succeeds
leaves a recorded thread.

The status is not guarded, most of its readers and writers hold no lock at all.
-/

namespace AntHal.Bluez

open Concurrency

/-- The application does not run the labels of the receive thread, nor the
other way round. -/
def hasRole : Tid → Label → Prop
  | .app _, l => l.isRx = false
  | .rx _, l => l.isRx = true

def lockAct : Op → LockAct
  | .mutexLock l => if l = .enableLock then .lock else .plain
  | .mutexTrylock => .lock
  | .mutexUnlock l => if l = .enableLock then .unlock else .plain
  | .unlockReturn _ _ => .unlock
  | _ => .plain

/-- A lock call has the lock exactly if it answers 0. -/
def lockAnswer : (o : Op) → o.Res → Bool → Prop
  | .mutexLock _, r, got | .mutexTrylock, r, got => got = true ↔ r = 0
  | _, _, _ => False

/-- The recorded thread, and whether it has been joined. -/
structure Record where
  thread : Nat
  joined : Bool

def Shared.record (s : Shared) : Record := ⟨s.thread, decide (.joined s.thread ∈ s.events)⟩

/-- What an operation answers about the record, and does to it. -/
def reacts : (o : Op) → Record → o.Res → Record → Prop
  | .getThread, p, r, p' => r = p.thread ∧ p' = p
  | .clearThread, _, _, p' => p'.thread = 0
  | .pthreadCreate, p, r, p' => (r = 0 ∧ p'.thread ≠ 0) ∨ (r ≠ 0 ∧ p' = p)
  | .pthreadJoin h, p, _, p' => p' = { p with joined := p.joined || decide (h = p.thread) }
  | _, p, _, p' => p' = p

/-- A successful enable leaves a recorded thread. -/
def Returned (f : Func) (ret : AntStatus) (p : Record) : Prop :=
  f = .antEnableRadio → ret = .success → p.thread ≠ 0

/-- What is asked of the record where a thread works on it, and where a call
leaves it. -/
def RecordCheck (t : Tid) : Op → Record → Prop
  | .pthreadJoin h, p => h = p.thread ∧ h ≠ 0
  | .pthreadCreate, p => p.thread = 0
  | .clearThread, p => (∃ n, t = .app n) → p.thread = 0 ∨ p.joined = true
  | .unlockReturn f ret, p => Returned f ret p
  | _, _ => True

theorem Shared.record_log (s : Shared) {e : Event} (h : ∀ n, e ≠ .joined n) :
    (s.log e).record = s.record := by
  have hmem : Event.joined s.thread ∈ s.events ++ [e] ↔ Event.joined s.thread ∈ s.events := by
    simp only [List.mem_append, List.mem_singleton, or_iff_left_iff_imp]
    exact fun heq => absurd heq.symm (h _)
  exact congrArg (Record.mk s.thread) (decide_eq_decide.mpr hmem)

/-- The other operations leave enableLock alone. -/
theorem enableLock_kept (t : Tid) (env : Env) (s : Shared) {o : Op} (hact : lockAct o = .plain) :
    (effect t env o s).2.locks .enableLock = s.locks .enableLock := by
  cases o with
  | mutexLock l =>
      cases l with
      | enableLock => cases hact
      | txLock =>
          simp only [effect]
          split
          · exact s.setLock_other (by decide) _
          · rfl
  | mutexUnlock l =>
      cases l with
      | enableLock => cases hact
      | txLock => exact s.setLock_other (by decide) _
  | mutexTrylock | unlockReturn => cases hact
  | pthreadCreate | read | writev =>
      simp only [effect]
      split <;> rfl
  | _ => rfl

/-- A lock call keeps the record. -/
theorem record_kept (t : Tid) (env : Env) (s : Shared) {o : Op} (hact : lockAct o ≠ .plain) :
    (effect t env o s).2.record = s.record := by
  cases o with
  | mutexLock lock =>
      simp only [effect]
      split <;> rfl
  | mutexTrylock =>
      simp only [effect]
      repeat' split
      all_goals rfl
  | mutexUnlock lock => rfl
  | unlockReturn f ret => exact Shared.record_log _ (by simp)
  | _ => exact absurd rfl hact

/-- They react on the record as said. -/
theorem record_reacts (t : Tid) (env : Env) (s : Shared) {o : Op} (hact : lockAct o = .plain) :
    reacts o s.record (effect t env o s).1 (effect t env o s).2.record := by
  cases o with
  | mutexLock lock =>
      simp only [effect, reacts]
      split <;> rfl
  | mutexTrylock | unlockReturn => cases hact
  | getThread => exact ⟨rfl, rfl⟩
  | pthreadCreate =>
      simp only [effect]
      split
      · exact .inl ⟨rfl, Nat.succ_ne_zero _⟩
      · rename_i herr
        exact .inr ⟨herr, rfl⟩
  | pthreadJoin h =>
      refine congrArg (Record.mk s.thread) (Bool.eq_iff_iff.mpr ?_)
      change decide (Event.joined s.thread ∈ s.events ++ [Event.joined h]) = true ↔
        (decide (Event.joined s.thread ∈ s.events) || decide (h = s.thread)) = true
      simp only [Bool.or_eq_true, decide_eq_true_eq, List.mem_append, List.mem_singleton,
        Event.joined.injEq]
      exact or_congr Iff.rfl eq_comm
  | funcStart | funcEnd | stateCallback | rxCallback | antEnable | antDisable =>
      exact Shared.record_log _ (by simp)
  | writev socket bytes =>
      simp only [effect, reacts]
      split
      · exact Shared.record_log _ (by simp)
      · rfl
  | read =>
      simp only [effect, reacts]
      split <;> rfl
  | _ => rfl

def enableLock (b : Build) : Monitor (machine b) Record where
  owner s := s.locks .enableLock
  guarded := Shared.record
  inv _ := True
  rely p q := q = p
  rely_refl _ := rfl
  rely_trans h h' := h'.trans h
  inv_rely _ _ := trivial
  lockAct := lockAct
  lockAnswer := lockAnswer
  react _ := reacts
  check := RecordCheck
  allow _ _ _ _ := True
  role := hasRole
  role_entry := by
    intro t l h
    cases t <;> cases l <;> first | rfl | cases h
  role_spawn := by
    intro o r s u l h
    cases o <;> simp only [machine, spawned, reduceCtorEq] at h
    split at h
    · cases h
      rfl
    · cases h
  lock_spec := by
    intro env pool t o s hact hready _
    refine ⟨record_kept t env s (by rw [hact]; exact LockAct.noConfusion), ?_⟩
    cases o with
    | mutexLock l =>
        cases l with
        | txLock => cases hact
        | enableLock =>
            simp only [machine, effect, isReady] at hready ⊢
            split
            · rename_i hok
              refine .inl ⟨by simp [lockAnswer], ?_, s.setLock_self _ _⟩
              simpa [hok] using hready
            · rename_i herr
              exact .inr ⟨by simpa [lockAnswer] using herr, rfl⟩
    | mutexTrylock =>
        simp only [machine, effect]
        split
        · exact .inr ⟨by simp [lockAnswer, ebusy], rfl⟩
        · rename_i hfree
          split
          · exact .inl ⟨by simp [lockAnswer], by simpa using hfree, s.setLock_self _ _⟩
          · rename_i herr
            exact .inr ⟨by simpa [lockAnswer] using herr, rfl⟩
    | mutexUnlock l => cases l <;> cases hact
    | _ => cases hact
  unlock_spec := by
    intro t env s o hact
    refine ⟨record_kept t env s (by rw [hact]; exact LockAct.noConfusion), ?_⟩
    cases o with
    | mutexLock l => cases l <;> cases hact
    | mutexUnlock l =>
        cases l with
        | txLock => cases hact
        | enableLock => exact s.setLock_self _ _
    | unlockReturn f ret => exact s.setLock_self .enableLock none
    | _ => cases hact
  plain_spec t env s _ hact _ :=
    ⟨enableLock_kept t env s hact, fun _ _ => record_reacts t env s hact⟩

/-- It is about all runs. -/
theorem enableLock_allowed {b : Build} (c : ThreadConfig) (mv : Move Label Tid Env) :
    (enableLock b).Allowed c mv :=
  Monitor.allowed_of_forall (fun _ _ _ _ => trivial) c mv

section transfer
variable {b : Build}

/-- Operations that concern neither the status nor the receive thread nor
enableLock. -/
def transfers : Op → Bool
  | .mutexLock l | .mutexUnlock l => l ≠ .enableLock
  | .funcStart _ | .funcEnd _ _ | .getRxCallback | .rxCallback _ | .createHciSock
  | .setCmdSocket _ | .getCmdSocket | .setsockopt _ | .poll _ | .read _ | .writev _ _ | .close _
  | .time | .nanosleep => true
  | _ => false

def Transfers (o : Op) : Prop := transfers o = true

section
-- The equations of the table are made here, once, and not in each proof that needs them.
attribute [local simp] transfers
end

/-- The next label, if there is one, belongs to the same kind of thread. -/
def staysRx (rx : Bool) (l : Option Label) : Prop := ∀ l', l = some l' → l'.isRx = rx

theorem staysRx_none (rx : Bool) : staysRx rx none := nofun

theorem staysRx_some {rx : Bool} {l : Label} (h : l.isRx = rx) : staysRx rx (some l) := by
  rintro l' ⟨⟩
  exact h

theorem beginSending_transfers (pucMesg : List UInt8) (status : RadioStatus) :
    (beginSending pucMesg status).Only Transfers (staysRx false) := by
  have hopen : antOpenTxTransport.Only Transfers fun _ => True := by
    simp [antOpenTxTransport, Transfers, transfers]
  refine Prog.only_ite.mpr ⟨fun _ => ?_, fun _ => hopen.bind fun _ _ => ?_⟩
  · simp [Transfers, transfers, staysRx]
  · simp [Transfers, transfers, staysRx, Label.isRx]

theorem txWrite_transfers (tx : Sending) : (txWrite b tx).Only Transfers (staysRx false) := by
  simp only [txWrite, Prog.op_bind, Prog.ret_bind, Prog.pure_eq, Prog.only_op, Prog.only_ite,
    Prog.only_ret]
  refine ⟨rfl, fun _ => ⟨fun _ => staysRx_some rfl, fun _ => ⟨rfl, fun bytesWritten => ?_⟩⟩⟩
  refine staysRx_some ?_
  split
  · rfl
  · rfl
  · split <;> rfl

theorem txWait_transfers (tx : Sending) : (txWait tx).Only Transfers (staysRx false) := by
  simp only [txWait, Prog.op_bind, Prog.ret_bind, Prog.pure_eq, Prog.only_op, Prog.only_ret]
  refine ⟨rfl, fun n => staysRx_some ?_⟩
  split
  · rfl
  · rfl
  · split <;> rfl

theorem handleCommandComplete_transfers (tx : Sending) :
    (handleCommandComplete tx).Only Transfers (staysRx false) := by
  unfold handleCommandComplete
  split
  · exact staysRx_some rfl
  · dsimp only
    split <;> exact staysRx_some rfl
  · simp only [Prog.op_bind, Prog.ret_bind, Prog.pure_eq, Prog.only_op]
    refine ⟨rfl, fun _ => ⟨rfl, fun currentTime => ?_⟩⟩
    split
    · refine staysRx_some ?_
      split <;> rfl
    · exact staysRx_some rfl
  · exact staysRx_some rfl

theorem txRead_transfers (tx : Sending) : (txRead b tx).Only Transfers (staysRx false) := by
  simp only [txRead, Prog.op_bind, Prog.ret_bind, Prog.pure_eq, Prog.only_op]
  refine ⟨rfl, fun packet => ?_⟩
  split
  · exact staysRx_some rfl
  · exact handleCommandComplete_transfers _
  · exact handleCommandComplete_transfers _

theorem txClose_transfers (tx : Sending) : (txClose tx).Only Transfers (staysRx false) := by
  have hclose : (antCloseTxTransport tx.txSocket).Only Transfers (fun _ => True) := by
    simp [antCloseTxTransport, Transfers, transfers]
  refine hclose.bind fun _ _ => ?_
  simp [Transfers, transfers, staysRx]

theorem rxStart_transfers : rxStart.Only Transfers (staysRx true) := by
  simp [rxStart, Transfers, transfers, staysRx, Label.isRx]

theorem rxPoll_transfers (rxSocket : Int) : (rxPoll rxSocket).Only Transfers (staysRx true) := by
  simp only [rxPoll, Prog.op_bind, Prog.ret_bind, Prog.pure_eq, Prog.only_op, Prog.only_ret]
  refine ⟨rfl, fun n => staysRx_some ?_⟩
  split
  · rfl
  · rfl
  · split <;> rfl

theorem deliver_transfers (len : Nat) (buf : Memory) :
    (deliver b len buf).Only Transfers (fun _ => True) := by
  simp [deliver, Transfers, transfers]

theorem rxRead_transfers (rxSocket : Int) : (rxRead b rxSocket).Only Transfers (staysRx true) := by
  simp only [rxRead, Prog.op_bind, Prog.ret_bind, Prog.pure_eq, Prog.only_op]
  refine ⟨rfl, fun packet => ?_⟩
  split
  · exact staysRx_some rfl
  · exact staysRx_some rfl
  · exact (deliver_transfers _ _).bind fun _ _ => staysRx_some rfl

end transfer

section quietly

/-- Operations that leave enableLock and the recorded thread alone. -/
def quiet : Op → Bool
  | .mutexLock l | .mutexUnlock l => l ≠ .enableLock
  | .mutexTrylock | .unlockReturn _ _ | .getThread | .clearThread | .pthreadCreate
  | .pthreadJoin _ => false
  | _ => true

def Quiet (o : Op) : Prop := quiet o = true

section
attribute [local simp] quiet
end

abbrev Quietly {α : Type} (Q : α → Prop) (p : Cmd α) : Prop := p.Only Quiet Q

variable {b : Build}

theorem quietly_of_transfers {α : Type} {Q : α → Prop} {p : Cmd α} (h : p.Only Transfers Q) :
    Quietly Q p :=
  h.mono (fun o ho => by cases o <;> first | exact ho | cases ho) fun _ ha => ha

theorem reportRadioStatus_quietly : Quietly (fun _ => True) reportRadioStatus := by
  simp [reportRadioStatus, Quiet, quiet]

theorem withPowerLibrary_quietly {p : Cmd Unit} (hp : Quietly (fun _ => True) p) :
    Quietly (fun _ => True) (withPowerLibrary b p) := by
  simp [withPowerLibrary, hp]

theorem refreshRadioStatus_quietly : Quietly (fun _ => True) refreshRadioStatus := by
  simp [refreshRadioStatus, Quiet, quiet, reportRadioStatus_quietly]

theorem getAndSetRadioStatus_quietly :
    Quietly (fun _ => True) (getAndSetRadioStatus b) :=
  (Prog.only_op _ _).mpr ⟨rfl, fun _ =>
    (withPowerLibrary_quietly refreshRadioStatus_quietly).bind fun _ _ => by simp [Quiet, quiet]⟩

theorem powerOn_quietly : Quietly (fun _ => True) (powerOn b) := by
  simp [powerOn, Quiet, quiet]

theorem enabledWithThread_quietly : Quietly (fun _ => True) (enabledWithThread b) := by
  simp [enabledWithThread, Quiet, quiet, reportRadioStatus_quietly]

theorem enableCleanUp_quietly (status : AntStatus) :
    Quietly (fun _ => True) (enableCleanUp b status) := by
  have hdisable : Quietly (fun _ => True) (withPowerLibrary b (antDisable >>= fun _ => .ret ())) :=
    withPowerLibrary_quietly (by simp [Quiet, quiet])
  refine Prog.only_ite.mpr ⟨fun _ => hdisable.bind fun _ _ => ?_, fun _ => trivial⟩
  exact getAndSetRadioStatus_quietly.bind fun _ _ => trivial

theorem markEnabling_quietly : Quietly (fun _ => True) markEnabling := by
  simp [markEnabling, Quiet, quiet]

theorem announceDisabling_quietly (status : RadioStatus) :
    Quietly (fun _ => True) (announceDisabling status) := by
  simp [announceDisabling, Quiet, quiet, reportRadioStatus_quietly]

theorem beginDisabling_quietly : Quietly (fun _ => True) (beginDisabling b) := by
  refine Prog.only_ite.mpr ⟨fun _ => ?_, fun _ => by simp [Quiet, quiet]⟩
  refine getAndSetRadioStatus_quietly.bind fun status _ => ?_
  exact (announceDisabling_quietly status).bind fun _ _ => by simp [Quiet, quiet]

theorem antRadioEnabledStatus_quietly :
    Quietly (fun _ => True) (antRadioEnabledStatus b) := by
  have hrefresh : Quietly (fun _ => True) (refreshUnlessInTransition b) := by
    simp only [refreshUnlessInTransition, Prog.op_bind, Prog.ret_bind, Prog.pure_eq, Prog.only_op,
      Prog.only_ite, Prog.only_ret, implies_true, and_true]
    exact ⟨rfl, fun _ _ => ⟨rfl, fun _ _ => getAndSetRadioStatus_quietly.bind fun _ _ => trivial⟩⟩
  refine (Prog.only_op _ _).mpr ⟨rfl, fun _ => hrefresh.bind fun _ _ => ?_⟩
  simp [Quiet, quiet]

theorem crashDisable_quietly : Quietly (fun _ => True) (crashDisable b) := by
  have hreport : Quietly (fun _ => True) reportDisabling := by simp [reportDisabling, Quiet, quiet]
  refine Prog.only_ite.mpr ⟨fun _ => hreport.bind fun _ _ => ?_, fun _ => by simp [Quiet, quiet]⟩
  refine (Prog.only_op _ _).mpr ⟨rfl, fun _ => ?_⟩
  exact getAndSetRadioStatus_quietly.bind fun _ _ => trivial

theorem antTxMessage_quietly (pucMesg : List UInt8) :
    Quietly (staysRx false) (antTxMessage b pucMesg) := by
  simp only [antTxMessage, Prog.op_bind, Prog.ret_bind, Prog.pure_eq, Prog.only_op, Prog.only_ite]
  refine ⟨rfl, fun _ => ⟨rfl, fun _ => ⟨fun _ => ⟨rfl, fun _ => staysRx_none _⟩, fun _ => ?_⟩⟩⟩
  exact getAndSetRadioStatus_quietly.bind fun status _ =>
    quietly_of_transfers (beginSending_transfers pucMesg status)

theorem rxClose_returns (rxSocket : Int) : (rxClose b rxSocket).Returns fun l => l = none := by
  simp only [rxClose, Prog.op_bind, Prog.ret_bind, Prog.pure_eq]
  exact fun _ => Prog.returns_bind _ fun _ _ => rfl

theorem rxLoop_quietly (rxSocket : Int) : Quietly (staysRx true) (rxLoop b rxSocket) := by
  refine getAndSetRadioStatus_quietly.bind fun status _ => ?_
  split <;> exact staysRx_some rfl

end quietly

section rules
variable {b : Build} {t : Tid} {α β : Type} {P : α → Prop} {I : Record → Prop}
  {J : α → Record → Prop}

/-- Only the holder of the lock works on the record, so what it knows stays true. -/
theorem record_stable (I : Record → Prop) : (enableLock b).Stable I :=
  Monitor.Exact.stable (fun _ _ h => h) I

theorem quiet_plain {o : Op} (h : quiet o = true) (t : Tid) :
    lockAct o = .plain ∧ (∀ p r p', reacts o p r p' → p' = p) ∧ ∀ p, RecordCheck t o p := by
  cases o with
  | mutexTrylock | unlockReturn | getThread | clearThread | pthreadCreate | pthreadJoin => cases h
  | mutexLock l | mutexUnlock l =>
      exact ⟨if_neg (of_decide_eq_true h), fun _ _ _ hr => hr, fun _ => trivial⟩
  | _ => exact ⟨rfl, fun _ _ _ hr => hr, fun _ => trivial⟩

theorem quiet_harmlessOut {o : Op} (h : Quiet o) : (enableLock b).HarmlessOut o := by
  obtain ⟨hact, hreact, -⟩ := quiet_plain h (.app 0)
  exact ⟨hact, hreact⟩

/-- A quiet operation of the holder keeps everything it knows. -/
theorem quiet_keeps {o : Op} (h : Quiet o) (t : Tid) (I : Record → Prop) :
    lockAct o = .plain ∧ ∀ p, I p → RecordCheck t o p ∧ ∀ r p', reacts o p r p' → I p' := by
  obtain ⟨hact, hreact, hcheck⟩ := quiet_plain h t
  refine ⟨hact, fun p hp => ⟨hcheck p, fun r p' hr => ?_⟩⟩
  rw [hreact p r p' hr]
  exact hp

theorem quiet_op {o : Op} {k : o.Res → Cmd α} (h : Quiet o)
    (hk : ∀ r, (enableLock b).Triple t I (k r) J) : (enableLock b).Triple t I (.op o k) J :=
  .op (record_stable I) (quiet_keeps h t I).1 (quiet_keeps h t I).2 hk

theorem outside_quietly {prog : Cmd α} (h : Quietly P prog) : (enableLock b).Outside t prog :=
  .only h fun _ => quiet_harmlessOut

theorem quietly_triple {prog : Cmd α} (h : Quietly P prog) :
    (enableLock b).Triple t I prog fun a p => P a ∧ I p :=
  .only (record_stable I) h fun _ ho => quiet_keeps ho t I

/-- A quiet function is called: what is known stays known. -/
theorem quietly_bind {Q : β → Prop} {prog : Cmd β} (h : Quietly Q prog) {f : β → Cmd α}
    (hf : ∀ a, (enableLock b).Triple t I (f a) J) : (enableLock b).Triple t I (prog >>= f) J :=
  .bind ((quietly_triple h).mono (fun _ hp => hp) fun _ _ hp => hp.2) hf

theorem record_ret {a : α} (h : ∀ p, I p → J a p) : (enableLock b).Triple t I (.ret a) J :=
  .ret (record_stable I) h

/-- The answer of the read is what is recorded until it is written. -/
theorem record_getThread {k : Nat → Cmd α}
    (hk : ∀ r, (enableLock b).Triple t (fun p => I p ∧ r = p.thread) (k r) J) :
    (enableLock b).Triple t I (.op .getThread k) J := by
  refine .op (record_stable I) rfl (fun p hp => ⟨trivial, ?_⟩) hk
  rintro r p' ⟨rfl, rfl⟩
  exact ⟨hp, rfl⟩

theorem outside_mutexLock {k : Int → Cmd α}
    (hgot : (enableLock b).Releases t (enableLock b).inv (k 0))
    (hnot : ∀ r, r ≠ 0 → (enableLock b).Outside t (k r)) :
    (enableLock b).Outside t (.op (.mutexLock .enableLock) k) := by
  refine .lock rfl (fun r hr => ?_) fun r hr => hnot r fun hzero =>
    Bool.false_ne_true (hr.mpr hzero)
  obtain rfl := hr.mp rfl
  exact hgot

end rules

section functions
variable {b : Build} {t : Tid}

/-- A thread that is recorded is joined before it is forgotten. -/
theorem joinThread_record :
    (enableLock b).Triple t (fun _ => True) joinThread fun _ _ => True := by
  simp only [joinThread, Prog.op_bind, Prog.ret_bind, Prog.pure_eq]
  refine record_getThread fun r => .ite (fun hr => record_getThread fun thread => ?_) fun _ =>
    record_ret fun _ _ => trivial
  have hjoin : ∀ p, ((True ∧ r = p.thread) ∧ thread = p.thread) →
      RecordCheck t (.pthreadJoin thread) p ∧
        ∀ u p', reacts (.pthreadJoin thread) p u p' → p'.joined = true := by
    rintro p ⟨⟨-, hsame⟩, hthread⟩
    refine ⟨⟨hthread, hthread ▸ hsame ▸ hr⟩, fun u p' hp' => ?_⟩
    rw [show p' = { p with joined := p.joined || decide (thread = p.thread) } from hp']
    simp [hthread]
  have hclear : (enableLock b).Triple t (fun p => p.joined = true) clearThread fun _ _ => True :=
    .op (record_stable _) rfl (fun p hp => ⟨fun _ => .inr hp, fun _ _ _ => trivial⟩) fun _ =>
      record_ret fun _ _ => trivial
  exact .op (record_stable _) rfl hjoin fun _ => hclear

theorem beginEnabling_record (status : RadioStatus) :
    (enableLock b).Triple t (fun _ => True) (beginEnabling b status) fun _ _ => True := by
  refine .ite (fun _ => joinThread_record.bind fun _ => ?_) fun _ => record_ret fun _ _ => trivial
  have hreport : Quietly (fun _ => True) (withPowerLibrary b reportRadioStatus) :=
    withPowerLibrary_quietly reportRadioStatus_quietly
  exact quiet_op rfl fun _ => (quietly_triple hreport).mono (fun _ hp => hp) fun _ _ _ => trivial

/-- A connected radio has a recorded thread: one is created only if none is found. -/
theorem connectThread_record (result : Int) :
    (enableLock b).Triple t (fun _ => True) (connectThread b result) fun ret p =>
      ret = .success → p.thread ≠ 0 := by
  have hfail {ret : AntStatus} {I : Record → Prop} (h : ret ≠ .success) :
      (enableLock b).Triple t I (.ret ret) fun ret p => ret = .success → p.thread ≠ 0 :=
    record_ret fun _ _ hret => absurd hret h
  simp only [connectThread, Prog.op_bind, Prog.ret_bind, Prog.pure_eq]
  refine .ite (fun _ => record_getThread fun r => .ite (fun hr => ?_) fun hr => ?_) fun _ =>
    hfail (by decide)
  · exact quiet_op rfl fun _ => record_ret fun p hp _ => hp.2 ▸ hr
  · have hnone : ∀ p, (True ∧ r = p.thread) → RecordCheck t .pthreadCreate p := by
      rintro p ⟨-, rfl⟩
      exact not_not.mp hr
    refine .op (K := fun created p => created = 0 → p.thread ≠ 0) (record_stable _) rfl
      (fun p hp => ⟨hnone p hp, ?_⟩) fun created => .ite (fun _ => hfail (by decide)) fun hok => ?_
    · rintro created p' (⟨-, hp'⟩ | ⟨hne, -⟩) hzero
      · exact hp'
      · exact absurd hzero hne
    · exact quietly_bind enabledWithThread_quietly fun _ =>
        record_ret fun p hp _ => hp (not_not.mp hok)

theorem enableRadioLocked_record :
    (enableLock b).Triple t (fun _ => True) (enableRadioLocked b) (Returned .antEnableRadio) := by
  refine quietly_bind getAndSetRadioStatus_quietly fun status => ?_
  refine (beginEnabling_record status).bind fun _ => quietly_bind powerOn_quietly fun result => ?_
  refine (connectThread_record result).bind fun ret => ?_
  exact quietly_bind (enableCleanUp_quietly ret) fun _ => record_ret fun _ hp _ => hp

theorem disableRadioLocked_record :
    (enableLock b).Triple t (fun _ => True) (disableRadioLocked b) (Returned .antDisableRadio) := by
  refine quietly_bind beginDisabling_quietly fun _ => joinThread_record.bind fun _ => ?_
  exact quietly_bind getAndSetRadioStatus_quietly fun _ => record_ret fun _ _ => nofun

theorem unlockReturn_record {f : Func} {ret : AntStatus} :
    (enableLock b).Releases t (Returned f ret) (unlockReturn f ret >>= fun _ => .ret ret) :=
  .unlock (record_stable _) rfl (fun _ hp => ⟨hp, trivial⟩) fun _ => .ret _

theorem underTxLock_record {f : Func} {locked : Cmd AntStatus}
    (h : (enableLock b).Triple t (fun _ => True) locked (Returned f)) :
    (enableLock b).Releases t (fun _ => True) (underTxLock f locked) := by
  simp only [underTxLock, Prog.op_bind, Prog.ret_bind, Prog.pure_eq]
  refine .plain (K := fun _ _ => True) (record_stable _) rfl
    (quiet_keeps (o := .mutexLock .txLock) rfl t _).2 fun lockResult => ?_
  split
  · exact fun p _ => unlockReturn_record p nofun
  · exact h.releases fun ret => .plain (record_stable _) rfl
      (quiet_keeps (o := .mutexUnlock .txLock) rfl t _).2 fun _ => unlockReturn_record

theorem antEnableRadio_record : (enableLock b).Outside t (antEnableRadio b) := by
  simp only [antEnableRadio, Prog.op_bind, Prog.ret_bind, Prog.pure_eq]
  refine .op (quiet_harmlessOut rfl) fun _ => outside_mutexLock ?_ fun r hr => ?_
  · rw [if_neg (not_not.mpr rfl)]
    exact (quietly_triple markEnabling_quietly).releases fun _ p _ =>
      underTxLock_record enableRadioLocked_record p trivial
  · rw [if_pos hr]
    exact .op (quiet_harmlessOut rfl) fun _ => .ret _

theorem antDisableRadio_record : (enableLock b).Outside t (antDisableRadio b) := by
  simp only [antDisableRadio, Prog.op_bind, Prog.ret_bind, Prog.pure_eq]
  refine .op (quiet_harmlessOut rfl) fun _ => outside_mutexLock ?_ fun r hr => ?_
  · rw [if_neg (not_not.mpr rfl)]
    exact underTxLock_record disableRadioLocked_record
  · rw [if_pos hr]
    exact .op (quiet_harmlessOut rfl) fun _ => .ret _

/-- The receive thread forgets itself without a join. -/
theorem rxClose_record {h : Nat} (rxSocket : Int) :
    (enableLock b).Outside (.rx h) (rxClose b rxSocket) := by
  simp only [rxClose, Prog.op_bind, Prog.ret_bind, Prog.pure_eq]
  refine .lock rfl (fun r hr => ?_) fun r hr => ?_
  · obtain rfl := hr.mp rfl
    simp only [crashCleanUp, if_true, Prog.bind_assoc, Prog.op_bind, Prog.ret_bind]
    refine (quietly_triple crashDisable_quietly).releases fun _ => ?_
    refine .plain (K := fun _ _ => True) (record_stable _) rfl
      (fun p _ => ⟨?_, fun _ _ _ => trivial⟩) fun _ =>
        .unlock (record_stable _) rfl (fun _ _ => ⟨trivial, trivial⟩) fun _ =>
          .op (quiet_harmlessOut rfl) fun _ => .ret _
    exact fun h => h.elim fun _ hn => Tid.noConfusion hn
  · have hne : r ≠ 0 := fun hzero => Bool.false_ne_true (hr.mpr hzero)
    simp only [crashCleanUp, hne, if_false]
    exact .op (quiet_harmlessOut rfl) fun _ => .ret _

/-- Every block respects the lock, and names labels of its own kind of thread. -/
theorem enableLock_checked (b : Build) : (enableLock b).Checked := by
  have hquiet {t : Tid} {l : Label} (hl : hasRole t l) {prog : Cmd (Option Label)}
      (h : Quietly (staysRx l.isRx) prog) :
      (enableLock b).Sat t ((enableLock b).Done t) none prog := by
    refine ((outside_quietly h).returns _ t h.returns).mono _ t fun a v hv =>
      ⟨hv.1, fun l' hl' => ?_⟩
    have hsame := hv.2 l' hl'
    cases t <;> exact hsame.trans hl
  have hend {t : Tid} {α : Type} {prog : Cmd α} (h : (enableLock b).Outside t prog) :
      (enableLock b).Sat t ((enableLock b).Done t) none
        (prog >>= fun _ => (.ret none : Cmd (Option Label))) := by
    refine Monitor.sat_bind _ t (h.mono _ t fun _ v hv => ?_)
    subst hv
    exact ⟨rfl, nofun⟩
  intro t l hl
  cases l with
  | enableRadio => exact hend antEnableRadio_record
  | disableRadio => exact hend antDisableRadio_record
  | radioEnabledStatus =>
      exact hquiet hl (antRadioEnabledStatus_quietly.bind fun _ _ => staysRx_none _)
  | txMessage pucMesg => exact hquiet hl (antTxMessage_quietly pucMesg)
  | txWrite tx => exact hquiet hl (quietly_of_transfers (txWrite_transfers tx))
  | txWait tx => exact hquiet hl (quietly_of_transfers (txWait_transfers tx))
  | txRead tx => exact hquiet hl (quietly_of_transfers (txRead_transfers tx))
  | txClose tx => exact hquiet hl (quietly_of_transfers (txClose_transfers tx))
  | rxStart => exact hquiet hl (quietly_of_transfers rxStart_transfers)
  | rxLoop rxSocket => exact hquiet hl (rxLoop_quietly rxSocket)
  | rxPoll rxSocket => exact hquiet hl (quietly_of_transfers (rxPoll_transfers rxSocket))
  | rxRead rxSocket => exact hquiet hl (quietly_of_transfers (rxRead_transfers rxSocket))
  | rxClose rxSocket =>
      cases t with
      | app n => cases hl
      | rx h =>
          refine ((rxClose_record rxSocket).returns _ _ (rxClose_returns rxSocket)).mono _ _
            fun a v hv => ⟨hv.1, fun l' hl' => ?_⟩
          cases hv.2.symm.trans hl'

/-- In every run the record is worked on with the lock, and as its check asks. -/
theorem enableLock_holds {stateCallback rxCallback : Bool} {c : ThreadConfig}
    (h : (machine b).Reachable (initConfig stateCallback rxCallback) c) :
    (enableLock b).Holds c := by
  refine Monitor.holds_path (enableLock_checked b) (fun _ _ _ => enableLock_allowed _ _)
    ⟨?_, ?_, ?_, ?_⟩ h
  · exact fun _ => trivial
  · exact fun t ht => nomatch ht
  · exact fun t th hth => nomatch hth
  · exact fun t th hth => nomatch hth

/-- The record is worked on by the holder of the lock only. -/
theorem inside_record {c : ThreadConfig} (hholds : (enableLock b).Holds c) {l : Label} {o : Op}
    {k : o.Res → Cmd (Option Label)} (hth : c.pool t = some ⟨l, .op o k⟩)
    (ho : o = .clearThread ∨ o = .pthreadCreate ∨ ∃ h, o = .pthreadJoin h) :
    c.shared.locks .enableLock = some t ∧ RecordCheck t o c.shared.record := by
  rcases ho with rfl | rfl | ⟨h, rfl⟩
  · exact hholds.inside hth rfl ⟨1, false⟩ ⟨0, false⟩ () rfl (by simp [enableLock])
  · exact hholds.inside hth rfl ⟨0, false⟩ ⟨1, false⟩ 0 (.inl ⟨rfl, by decide⟩)
      (by simp [enableLock])
  · exact hholds.inside hth rfl ⟨h, false⟩ ⟨h, true⟩ () (by simp [enableLock, reacts])
      (by simp [enableLock])

end functions
end AntHal.Bluez
