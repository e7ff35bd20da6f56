import AntHal.Concurrency.MonitorRuns
import AntHal.Chardev.ReceiveThread

/-!
What the sections under stEnabledStatusLock are made of.

Apart from `ant_enable` and `ant_disable` the code reads the state, sets flags
and calls back. A monitor of the lock whose invariant these operations keep is
respected everywhere, as soon as `ant_enable` and `ant_disable` keep it.
-/

namespace AntHal

open Concurrency

/-- The labels of the two kinds of threads. -/
def hasRole : Tid → Label → Prop
  | .app _, .enableRadio | .app _, .disableRadio | .app _, .hardReset => True
  | .rx _, .rxStart | .rx _, .rxLoop | .rx _, .rxClose | .rx _, .doReset => True
  | _, _ => False

def lockAct : Op → LockAct
  | .mutexLock | .mutexTrylock => .lock
  | .mutexUnlock => .unlock
  | _ => .plain

def lockAnswer : (o : Op) → o.Res → Bool → Prop
  | .mutexLock, r, got => r = 0 ∧ got = true
  | .mutexTrylock, r, got => r = 0 ∧ got = true ∨ r = ebusy ∧ got = false
  | _, _, _ => False

/-- What is done without the lock, and does not need it. -/
def outerOp : Op → Bool
  | .mutexLock | .mutexTrylock | .mutexUnlock | .setRunThread true | .clearRxThread | .setFd _ _
  | .openDevice _ | .closeDevice _ | .pthreadCreate | .pthreadJoin _ | .eventfdWrite
  | .funcStart .antEnable | .funcEnd .antDisable _ => false
  | _ => true

/-- Under the lock the recorded thread is also cleared. -/
def innerOp (o : Op) : Bool := outerOp o || decide (o = .clearRxThread)

/-- The calls of the vendor library, and its handle. -/
def vendorOp : Op → Bool
  | .dlopen | .dlsym | .getVendorInterface | .clearVendorInterface | .vendorInit | .powerCtrl _
  | .userialOpen | .userialClose | .vendorCleanup => true
  | _ => false

/-- The start of a keepalive thread. -/
def keepAliveOp : Op → Bool
  | .keepAliveCreate | .pthreadDetach _ => true
  | _ => false

/-- What is done apart from these, and from `ant_enable` and `ant_disable`. -/
def passiveOp (o : Op) : Bool := outerOp o && !vendorOp o && !keepAliveOp o

theorem plain_of_passive {o : Op} (h : passiveOp o = true) : lockAct o = .plain := by
  cases o <;> first | rfl | cases h

theorem outer_of_passive {o : Op} (h : passiveOp o = true) : outerOp o = true := by
  simp only [passiveOp, Bool.and_eq_true] at h
  exact h.1.1

theorem keepAlive_of_passive {o : Op} (h : passiveOp o = true) : keepAliveOp o = false := by
  simp only [passiveOp, Bool.and_eq_true, Bool.not_eq_true'] at h
  exact h.2

/-- What an enabled channel is opened with. -/
def openingOp : Op → Bool
  | .openDevice _ => true
  | o => outerOp o

/-- What is done for a channel that is opened or closed. -/
def channelOp : Op → Bool
  | .getFd _ | .setFd _ _ | .openDevice _ | .closeDevice _ => true
  | o => vendorOp o

/-- What is done while the radio is being stopped: the run flag stays down. -/
def stoppingOp : Op → Bool
  | .mutexLock | .mutexTrylock | .mutexUnlock | .setRunThread true | .clearRxThread
  | .pthreadCreate => false
  | _ => true

section
-- The equations of the tables are made here, once, and not in each proof that needs them.
attribute [local simp] outerOp vendorOp keepAliveOp openingOp channelOp
end

theorem stopping_of_channel {o : Op} (h : channelOp o = true) : stoppingOp o = true := by
  cases o <;> first | rfl | cases h

/-- What a part of the state means under stEnabledStatusLock, for any thread. -/
structure Guarding (π : Type) where
  guarded : Shared → π
  guarded_lock : ∀ s owner, guarded { s with stEnabledStatusLock := owner } = guarded s
  inv : π → Prop
  /-- What the threads outside the lock may do. -/
  rely : π → π → Prop
  rely_refl : ∀ p, rely p p
  rely_trans : ∀ {p q r}, rely p q → rely q r → rely p r
  inv_rely : ∀ {p q}, inv p → rely p q → inv q
  react : (o : Op) → π → o.Res → π → Prop
  /-- What holds of every state in which the lock is held. -/
  check : π → Prop
  check_of_inv : ∀ p, inv p → check p
  plain : ∀ b t env s {o}, lockAct o = .plain →
    (effect b t env o s).2.stEnabledStatusLock = s.stEnabledStatusLock ∧
      react o (guarded s) (effect b t env o s).1 (guarded (effect b t env o s).2)

section lockCalls
variable {π : Type} {f : Shared → π} {t : Tid} {env : Env} {s : Shared} {o : Op}

/-- What a lock call does, for any part of the state that it leaves alone. -/
theorem lock_effect (hf : ∀ s owner, f { s with stEnabledStatusLock := owner } = f s) (b : Build)
    {pool : Pool Op Op.Res Label Tid} (hact : lockAct o = .lock)
    (hready : isReady pool o s = true) :
    f (effect b t env o s).2 = f s ∧
      (lockAnswer o (effect b t env o s).1 true ∧ s.stEnabledStatusLock = none ∧
          (effect b t env o s).2.stEnabledStatusLock = some t ∨
        lockAnswer o (effect b t env o s).1 false ∧
          (effect b t env o s).2.stEnabledStatusLock = s.stEnabledStatusLock) := by
  cases o <;> simp only [lockAct, reduceCtorEq] at hact
  · refine ⟨hf s _, .inl ⟨⟨rfl, rfl⟩, ?_, rfl⟩⟩
    simpa [isReady] using hready
  · simp only [effect]
    split
    · rename_i hfree
      exact ⟨hf s _, .inl ⟨.inl ⟨rfl, rfl⟩, by simpa using hfree, rfl⟩⟩
    · exact ⟨rfl, .inr ⟨.inr ⟨rfl, rfl⟩, rfl⟩⟩

theorem unlock_effect (hf : ∀ s owner, f { s with stEnabledStatusLock := owner } = f s) (b : Build)
    (hact : lockAct o = .unlock) :
    f (effect b t env o s).2 = f s ∧ (effect b t env o s).2.stEnabledStatusLock = none := by
  cases o <;> simp only [lockAct, reduceCtorEq] at hact
  exact ⟨hf s _, rfl⟩

end lockCalls

theorem hasRole_entry (b : Build) {t : Tid} {l : Label} (h : (machine b).entry t l = true) :
    hasRole t l := by
  cases t <;> cases l <;> trivial

theorem hasRole_spawn (b : Build) {o : Op} {r : o.Res} {s : Shared} {u : Tid} {l : Label}
    (h : (machine b).spawn o r s = some (u, l)) : hasRole u l := by
  cases o <;> simp only [machine, spawned, reduceCtorEq] at h
  split at h
  · cases h
    trivial
  · cases h

namespace Guarding

variable {π : Type} (G : Guarding π) (b : Build)

def monitor : Monitor (machine b) π where
  owner s := s.stEnabledStatusLock
  guarded := G.guarded
  inv := G.inv
  rely := G.rely
  rely_refl := G.rely_refl
  rely_trans := G.rely_trans
  inv_rely := G.inv_rely
  lockAct := lockAct
  lockAnswer := lockAnswer
  react _ := G.react
  check _ _ := G.check
  allow _ _ _ _ := True
  role := hasRole
  role_entry := @hasRole_entry b
  role_spawn := @hasRole_spawn b
  lock_spec _ _ _ _ _ hact hready _ := lock_effect G.guarded_lock b hact hready
  unlock_spec _ _ _ _ hact := unlock_effect G.guarded_lock b hact
  plain_spec t env s _ hact _ := (G.plain b t env s hact).imp_right fun hreact _ _ => hreact

end Guarding

section programs
variable {b : Build}

theorem readFds_only (chs : List AntChannelType) :
    (rxStart.readFds chs).Only (passiveOp · = true) fun _ => True := by
  induction chs with
  | nil => trivial
  | cons ch chs ih =>
      rw [rxStart.readFds, Prog.op_bind, Prog.only_op]
      exact ⟨rfl, fun _ => ih⟩

theorem countOpenFiles_only (chs : List AntChannelType) :
    (countOpenFiles chs).Only (passiveOp · = true) fun _ => True := by
  induction chs with
  | nil => trivial
  | cons ch chs ih =>
      rw [countOpenFiles, Prog.op_bind, Prog.only_op]
      exact ⟨rfl, fun _ => ih.bind fun _ _ => trivial⟩

theorem antRadioEnabledStatus_only :
    (antRadioEnabledStatus b).Only (passiveOp · = true) fun _ => True := by
  simp only [antRadioEnabledStatus, Prog.op_bind, Prog.ret_bind, Prog.only_op, Prog.only_ite]
  refine ⟨rfl, fun _ => ⟨fun _ => trivial, fun _ => (countOpenFiles_only _).bind fun _ _ => ?_⟩⟩
  simp [passiveOp, outerOp, vendorOp, keepAliveOp]

theorem reportStatus_only {status : Cmd RadioStatus}
    (h : status.Only (passiveOp · = true) fun _ => True) :
    (reportStatus status).Only (passiveOp · = true) fun _ => True := by
  simp only [reportStatus, Prog.op_bind, Prog.ret_bind, Prog.only_op, Prog.only_ite]
  refine ⟨rfl, fun _ => ⟨fun _ => h.bind fun _ _ => ?_, fun _ => trivial⟩⟩
  simp [passiveOp, outerOp, vendorOp, keepAliveOp]

theorem report_only (status : RadioStatus) :
    (reportStatus (return status)).Only (passiveOp · = true) fun _ => True :=
  reportStatus_only trivial

theorem handleChannels_only (revents : AntChannelType → UInt16) (chs : List AntChannelType) :
    (handleChannels b revents chs).Only (passiveOp · = true) fun _ => True := by
  induction chs with
  | nil => trivial
  | cons ch chs ih =>
      simp only [handleChannels, Prog.op_bind, Prog.ret_bind, Prog.pure_eq, Prog.only_ite]
      refine ⟨fun _ => trivial, fun _ => ⟨fun _ => trivial, fun _ => ⟨fun _ => ?_, fun _ =>
        ⟨fun _ => trivial, fun _ => ⟨fun _ => trivial, fun _ => ih⟩⟩⟩⟩⟩
      simp only [Prog.only_op, Prog.only_ite]
      refine ⟨rfl, fun _ => ⟨rfl, fun _ => ⟨fun _ => ?_, fun _ => ih⟩⟩⟩
      cases b.backend with
      | vfs => trivial
      | btVendor => exact (Prog.only_op _ _).mpr ⟨rfl, fun _ => ih⟩

theorem handleShutdown_only (revents : UInt16) :
    (handleShutdown revents).Only (passiveOp · = true) fun _ => True := by
  simp [handleShutdown, passiveOp, outerOp, vendorOp, keepAliveOp]

theorem rxStart_only : (rxStart b).Only (passiveOp · = true) (· = some .rxLoop) := by
  simp only [rxStart, Prog.op_bind, Prog.ret_bind, Prog.only_op]
  refine ⟨rfl, fun _ => (readFds_only _).bind fun _ _ => ?_⟩
  simp [passiveOp, outerOp, vendorOp, keepAliveOp]

/-- The receive thread alone starts keepalive threads. -/
theorem rxLoop_only : (rxLoop b).Only (fun o => passiveOp o = true ∨ keepAliveOp o = true)
    (fun l => l = some .rxLoop ∨ l = some .rxClose ∨ l = some .doReset) := by
  simp only [rxLoop, Prog.op_bind, Prog.ret_bind, Prog.pure_eq, Prog.only_op, Prog.only_ite]
  refine ⟨.inl rfl, fun _ => ⟨by simp, fun _ => ⟨.inl rfl, fun _ => ⟨.inl rfl, fun result =>
    ⟨fun _ => ⟨.inl rfl, fun waiting => ⟨fun _ => ⟨.inl rfl, fun _ => ⟨.inr rfl, fun _ =>
      ⟨.inr rfl, fun _ => by simp⟩⟩⟩, fun _ => by simp⟩⟩, fun _ => ⟨by simp, fun _ =>
      ((handleChannels_only _ _).mono (fun _ => .inl) fun _ hr => hr).bind fun reset _ => ?_⟩⟩⟩⟩⟩⟩
  rw [Prog.only_ite]
  exact ⟨by simp, fun _ => ((handleShutdown_only _).mono (fun _ => .inl) fun _ hr => hr).bind
    fun _ _ => by simp⟩

theorem antEnableOut_only (iRet : Int) :
    (antEnableOut b iRet).Only (passiveOp · = true) fun _ => True := by
  have hflag : (releaseRunFlag b).Only (passiveOp · = true) fun _ => True := by
    unfold releaseRunFlag
    cases b.backend with
    | vfs => simp [passiveOp, outerOp, vendorOp, keepAliveOp]
    | btVendor => trivial
  exact hflag.bind fun _ _ => by simp [passiveOp, outerOp, vendorOp, keepAliveOp]

theorem antEnableCheck_only : (antEnableCheck b).Only (passiveOp · = true) fun _ => True := by
  simp only [antEnableCheck, Prog.op_bind, Prog.ret_bind, Prog.only_op, Prog.only_ite]
  exact ⟨rfl, fun _ => ⟨fun _ => antEnableOut_only _, fun _ => antEnableOut_only _⟩⟩

theorem openTransport_only (ch : AntChannelType) :
    (openTransport b ch).Only (openingOp · = true) fun _ => True := by
  unfold openTransport
  cases b.backend with
  | vfs => simp [openingOp]
  | btVendor => simp [initTransportOn, openingOp, outerOp]

theorem antEnableChannel_only (ch : AntChannelType) :
    (antEnableChannel b ch).Only (channelOp · = true) fun _ => True := by
  have hopen : (openTransport b ch).Only (channelOp · = true) fun _ => True := by
    unfold openTransport
    cases b.backend with
    | vfs => simp [channelOp]
    | btVendor => simp [initTransportOn, channelOp, vendorOp]
  simp only [antEnableChannel, Prog.op_bind, Prog.ret_bind, Prog.only_op, Prog.only_ite]
  exact ⟨rfl, fun _ => ⟨fun _ => hopen.bind fun _ _ => by simp [channelOp], fun _ => trivial⟩⟩

theorem antDisableChannel_only (ch : AntChannelType) :
    (antDisableChannel b ch).Only (channelOp · = true) fun _ => True := by
  have hclose : (closeTransport b ch).Only (channelOp · = true) fun _ => True := by
    unfold closeTransport
    cases b.backend with
    | vfs => simp [channelOp]
    | btVendor => simp [initTransportOff, channelOp, vendorOp]
  simp only [antDisableChannel, Prog.op_bind, Prog.ret_bind, Prog.only_op, Prog.only_ite]
  exact ⟨rfl, fun _ => ⟨fun _ => hclose.bind fun _ _ => by simp [channelOp], fun _ => trivial⟩⟩

theorem enableChannels_only (chs : List AntChannelType) :
    (enableChannels b chs).Only (channelOp · = true) fun _ => True := by
  induction chs with
  | nil => trivial
  | cons ch chs ih =>
      rw [enableChannels]
      refine (antEnableChannel_only ch).bind fun _ _ => ?_
      rw [Prog.only_ite]
      exact ⟨fun _ => trivial, fun _ => ih⟩

theorem disableChannels_only (chs : List AntChannelType) :
    (disableChannels b chs).Only (channelOp · = true) fun _ => True := by
  induction chs with
  | nil => trivial
  | cons ch chs ih =>
      rw [disableChannels]
      exact (antDisableChannel_only ch).bind fun _ _ => ih

end programs

/-- What `ant_enable` and `ant_disable` do themselves, apart from the channels. -/
def lifecycleOp : Op → Bool
  | .setRunThread true | .clearRxThread | .pthreadCreate | .pthreadJoin _ | .eventfdWrite
  | .funcStart .antEnable | .funcEnd .antDisable _ => true
  | o => passiveOp o

theorem lifecycle_of_passive {o : Op} (h : passiveOp o = true) : lifecycleOp o = true := by
  unfold lifecycleOp
  split <;> first | rfl | exact h

section channels
variable {b : Build} {π : Type} {M : Monitor (machine b) π} {t : Tid}
  {chs : List AntChannelType}

/-- A descriptor for a closed channel leaves the open ones open. -/
theorem update_open {iFd : AntChannelType → Int} {ch ch' : AntChannelType} (hclosed : iFd ch = -1)
    (hopen : iFd ch' ≠ -1) (fd : Int) : Function.update iFd ch fd ch' ≠ -1 := by
  have hne : ch' ≠ ch := by
    rintro rfl
    exact hopen hclosed
  rwa [Function.update_of_ne hne]

/-- What each channel keeps, when it is enabled, they all keep. -/
theorem enableChannels_keep {I : π → Prop} (hI : M.Stable I)
    (h : ∀ ch ∈ chs, M.Triple t I (antEnableChannel b ch) fun _ => I) :
    M.Triple t I (enableChannels b chs) fun _ => I := by
  induction chs with
  | nil => exact .ret hI fun _ hp => hp
  | cons ch chs ih =>
      obtain ⟨hch, hchs⟩ := List.forall_mem_cons.mp h
      exact .bind hch fun _ => .ite (fun _ => .ret hI fun _ hp => hp) fun _ => ih hchs

theorem inside_disableChannels (h : ∀ ch ∈ chs, M.Inside t (antDisableChannel b ch)) :
    M.Inside t (disableChannels b chs) := by
  induction chs with
  | nil => exact .ret _
  | cons ch chs ih =>
      obtain ⟨hch, hchs⟩ := List.forall_mem_cons.mp h
      exact .bind hch fun _ => ih hchs

/-- A closed channel gets what the transport answers, and is enabled if that is a
descriptor; an open one is enabled as it is. -/
theorem triple_antEnableChannel {ch : AntChannelType} {I F A : π → Prop} (fd : π → Int)
    (hact : M.lockAct = lockAct) (hI : ∀ iFd, M.Stable fun p => I p ∧ fd p = iFd)
    (hget : ∀ p, I p → M.check t (.getFd ch) p ∧
      ∀ r p', M.react true (.getFd ch) p r p' → r = fd p ∧ p' = p)
    (hopen : M.Triple t (fun p => I p ∧ fd p = -1) (openTransport b ch) fun _ p =>
      I p ∧ fd p = -1)
    (hset : ∀ iFd p, I p → fd p = -1 → M.check t (.setFd ch iFd) p ∧
      ∀ r p', M.react true (.setFd ch iFd) p r p' → I p')
    (hfailed : ∀ p, I p → F p) (henabled : ∀ p, I p → fd p ≠ -1 → A p) :
    M.Triple t I (antEnableChannel b ch) fun iRet p => if iRet < 0 then F p else A p := by
  have hstable : M.Stable I := fun p q hp hq => (hI (fd p) p q ⟨hp, rfl⟩ hq).1
  have hread {k : Int → Cmd Int} {J : Int → π → Prop}
      (hk : ∀ iFd, M.Triple t (fun p => I p ∧ fd p = iFd) (k iFd) J) :
      M.Triple t I (.op (.getFd ch) k) J := by
    refine .op hstable (hact ▸ rfl) (fun p hp => ⟨(hget p hp).1, fun r p' hr => ?_⟩) hk
    obtain ⟨rfl, rfl⟩ := (hget p hp).2 r p' hr
    exact ⟨hp, rfl⟩
  have hdone {iFd : Int} (h : iFd ≠ -1) :
      M.Triple t (fun p => I p ∧ fd p = iFd) (.ret 0 : Cmd Int) fun _ => A :=
    .ret (hI iFd) fun p hp => henabled p hp.1 (hp.2 ▸ h)
  simp only [antEnableChannel, Prog.op_bind, Prog.ret_bind, Prog.pure_eq]
  refine hread fun iFd => .ite (fun hclosed => ?_) fun hne => hdone hne
  subst hclosed
  refine .bind hopen fun answer => .op (hI (-1)) (hact ▸ rfl)
    (fun p hp => hset answer p hp.1 hp.2) fun _ => hread fun iFd => .ite (fun _ => ?_) fun hpos =>
      hdone (by omega)
  exact .ret (hI iFd) fun p hp => hfailed p hp.1

/-- Channels are enabled in turn, up to the first that fails. -/
theorem triple_enableChannels {I : List AntChannelType → π → Prop} {F : π → Prop}
    (hI : ∀ opened, M.Stable (I opened)) (hF : M.Stable F)
    (h : ∀ opened, ∀ ch ∈ chs, M.Triple t (I opened) (antEnableChannel b ch) fun iRet p =>
      if iRet < 0 then F p else I (ch :: opened) p) (opened : List AntChannelType) :
    M.Triple t (I opened) (enableChannels b chs) fun enabled p =>
      if enabled then I (chs.reverse ++ opened) p else F p := by
  induction chs generalizing opened with
  | nil => exact .ret (hI opened) fun p hp => hp
  | cons ch chs ih =>
      obtain ⟨hch, hchs⟩ := forall_and.mp fun opened => List.forall_mem_cons.mp (h opened)
      rw [enableChannels, List.reverse_cons, List.append_assoc]
      refine .bind (hch opened) fun iRet => .ite (fun hneg => ?_) fun hneg => ?_
      · simp only [if_pos hneg]
        exact .ret hF fun p hp => hp
      · simp only [if_neg hneg]
        exact ih hchs (ch :: opened)

/-- What follows, if one has failed and if all are enabled. -/
theorem triple_enabled {α : Type} {I A F : π → Prop} {J : α → π → Prop} {prog prog' : Cmd α}
    (h : M.Triple t I (enableChannels b chs) fun enabled p => if enabled then A p else F p)
    (hfailed : M.Triple t F prog J) (henabled : M.Triple t A prog' J) :
    M.Triple t I (enableChannels b chs >>= fun enabled => if !enabled then prog else prog') J := by
  refine .bind h fun enabled => ?_
  cases enabled with
  | false => exact hfailed
  | true => exact henabled

/-- `ant_enable` keeps what its own operations and the opens of the channels keep. -/
theorem inside_antEnable (h : ∀ o, lifecycleOp o = true → M.HarmlessIn t o)
    (hopen : ∀ ch ∈ b.channels, M.Inside t (antEnableChannel b ch)) :
    M.Inside t (antEnable b) := by
  simp only [antEnable, Prog.op_bind, Prog.ret_bind]
  have hop {o : Op} {k : o.Res → Cmd Int} (ho : lifecycleOp o = true)
      (hk : ∀ r, M.Inside t (k r)) : M.Inside t (.op o k) := .op (h o ho) hk
  have hout (iRet : Int) : M.Inside t (antEnableOut b iRet) :=
    .only (antEnableOut_only iRet) fun o ho => h o (lifecycle_of_passive ho)
  have hcheck : M.Inside t (antEnableCheck b) :=
    .only antEnableCheck_only fun o ho => h o (lifecycle_of_passive ho)
  refine hop rfl fun _ => hop rfl fun _ => .ite (fun _ => hout _) fun _ => hop rfl fun _ =>
    .bind (enableChannels_keep Monitor.stable_inv hopen) fun _ => .ite (fun _ => hout _) fun _ =>
      hop rfl fun _ => .ite (fun _ => hop rfl fun _ => .ite (fun _ => hout _) fun _ => hcheck)
        fun _ => hcheck

theorem inside_antDisable (h : ∀ o, lifecycleOp o = true → M.HarmlessIn t o)
    (hclose : ∀ ch ∈ b.channels, M.Inside t (antDisableChannel b ch)) :
    M.Inside t (antDisable b) := by
  simp only [antDisable, antDisableOut, Prog.op_bind, Prog.ret_bind]
  have hop {o : Op} {k : o.Res → Cmd Int} (ho : lifecycleOp o = true)
      (hk : ∀ r, M.Inside t (k r)) : M.Inside t (.op o k) := .op (h o ho) hk
  have hout {iRet : Int} : M.Inside t
      (.op .clearRxThread fun _ => .op (.funcEnd .antDisable (.int iRet)) fun _ => .ret iRet) :=
    hop rfl fun _ => hop rfl fun _ => .ret _
  have hchannels : M.Inside t (disableChannels b b.channels) := inside_disableChannels hclose
  refine hop rfl fun _ => hop rfl fun _ => hop rfl fun _ => .ite (fun _ => hop rfl fun _ =>
    .ite (fun _ => hout) fun _ => hop rfl fun _ => hop rfl fun _ => .ite (fun _ => hout) fun _ =>
      .bind hchannels fun _ => hout) fun _ => .bind hchannels fun _ => hout

/-- Where the handle may be cleared, and any thread may disable. -/
theorem inside_stop (hclear : M.HarmlessIn t .clearRxThread)
    (h : ∀ o, passiveOp o = true → M.HarmlessIn t o) (hdisable : M.Inside t (antDisable b))
    {prog : Cmd Unit} (hprog : prog.Only (passiveOp · = true) fun _ => True) :
    M.Inside t (.op .clearRxThread fun _ => prog >>= fun _ => antDisable b) :=
  .op hclear fun _ => .bind (.only hprog h) fun _ => hdisable

end channels

/-- A monitor of the lock whose invariant is kept by `ant_enable`, by
`ant_disable` and by everything around them. -/
structure Upheld {b : Build} {π : Type} (M : Monitor (machine b) π) : Prop where
  owner_eq : M.owner = Shared.stEnabledStatusLock
  lockAct_eq : M.lockAct = lockAct
  lockAnswer_eq : M.lockAnswer = lockAnswer
  role_eq : M.role = hasRole
  outer : ∀ o, passiveOp o = true ∨ keepAliveOp o = true → M.HarmlessOut o
  inner : ∀ t o, passiveOp o = true → M.HarmlessIn t o
  unlock : ∀ t p, M.inv p → M.check t .mutexUnlock p
  enable : ∀ t, M.Inside t (antEnable b)
  disable : ∀ n, M.Inside (.app n) (antDisable b)
  /-- The receive thread clears its own handle before it disables. -/
  stop : ∀ h {prog : Cmd Unit}, prog.Only (passiveOp · = true) (fun _ => True) →
    M.Inside (.rx h) (.op .clearRxThread fun _ => prog >>= fun _ => antDisable b)

namespace Upheld

variable {b : Build} {π : Type} {M : Monitor (machine b) π} {t : Tid}

section rules
variable {α : Type} {prog : Cmd α}

theorem inside_only (h : Upheld M) {Q : α → Prop}
    (ho : prog.Only (passiveOp · = true) Q) : M.Inside t prog :=
  .only ho fun o hout => h.inner t o hout

theorem outside_only (h : Upheld M) {Q : α → Prop}
    (ho : prog.Only (passiveOp · = true) Q) : M.Outside t prog :=
  .only ho fun o hout => h.outer o (.inl hout)

theorem inside_op (h : Upheld M) {o : Op} {k : o.Res → Cmd α} (ho : passiveOp o = true)
    (hk : ∀ r, M.Inside t (k r)) : M.Inside t (.op o k) :=
  .op (h.inner t o ho) hk

theorem outside_op (h : Upheld M) {o : Op} {k : o.Res → Cmd α} (ho : passiveOp o = true)
    (hk : ∀ r, M.Outside t (k r)) : M.Outside t (.op o k) :=
  .op (h.outer o (.inl ho)) hk

theorem releases_unlock (h : Upheld M) {k : Unit → Cmd α} (hk : ∀ r, M.Outside t (k r)) :
    M.Releases t M.inv (.op .mutexUnlock k) :=
  .unlock Monitor.stable_inv (congrFun h.lockAct_eq _) (fun p hp => ⟨h.unlock t p hp, hp⟩) hk

theorem outside_lock (h : Upheld M) {k : Int → Cmd α} (hk : M.Releases t M.inv (k 0)) :
    M.Outside t (.op .mutexLock k) := by
  refine .lock (congrFun h.lockAct_eq _) (fun r hr => ?_) fun r hr => ?_ <;>
    rw [h.lockAnswer_eq] at hr
  · exact hr.1 ▸ hk
  · cases hr.2

end rules

variable {n : Nat}

theorem inside_enableRadioLocked (h : Upheld M) : M.Inside (.app n) (enableRadioLocked b) := by
  have hbody : M.Inside (.app n) (enableRadioBody b) := by
    refine .bind (h.inside_only (report_only _)) fun _ => .bind (h.enable _) fun iRet => ?_
    split
    · refine .bind (h.disable n) fun _ => .bind
        (h.inside_only (reportStatus_only antRadioEnabledStatus_only)) fun _ => .ret _
    · exact .bind (h.inside_only (report_only _)) fun _ => .ret _
  unfold enableRadioLocked
  split
  · refine .bind (h.inside_only antRadioEnabledStatus_only) fun current => ?_
    split
    · exact hbody
    · exact .ret _
  · exact hbody

theorem inside_disableRadioLocked (h : Upheld M) : M.Inside (.app n) (disableRadioLocked b) := by
  have hbody : M.Inside (.app n) (disableRadioBody b) :=
    .bind (h.inside_only (report_only _)) fun _ => .bind (h.disable n) fun _ =>
      h.inside_only (reportStatus_only antRadioEnabledStatus_only)
  unfold disableRadioLocked
  split
  · refine .bind (h.inside_only antRadioEnabledStatus_only) fun current => ?_
    split
    · exact hbody
    · exact .ret _
  · exact hbody

theorem inside_hardResetLocked (h : Upheld M) : M.Inside (.app n) (hardResetLocked b) := by
  simp only [hardResetLocked, Prog.op_bind, Prog.ret_bind]
  refine h.inside_op rfl fun _ => .bind (h.inside_only (report_only _)) fun _ =>
    h.inside_op rfl fun _ => .bind (h.disable n) fun _ => .bind (h.enable _) fun ret => ?_
  split
  · exact .bind (h.inside_only (report_only _)) fun _ => h.inside_op rfl fun _ => .ret _
  · exact .bind (h.inside_only (report_only _)) fun _ => h.inside_op rfl fun _ => .ret _

theorem outside_antEnableRadio (h : Upheld M) : M.Outside (.app n) (antEnableRadio b) :=
  h.outside_op rfl fun _ => h.outside_lock (h.inside_enableRadioLocked.releases fun _ =>
    h.releases_unlock fun _ => h.outside_op rfl fun _ => .ret _)

theorem outside_antDisableRadio (h : Upheld M) : M.Outside (.app n) (antDisableRadio b) :=
  h.outside_op rfl fun _ => h.outside_lock (h.inside_disableRadioLocked.releases fun _ =>
    h.releases_unlock fun _ => h.outside_op rfl fun _ => .ret _)

theorem outside_antRadioHardReset (h : Upheld M) : M.Outside (.app n) (antRadioHardReset b) := by
  refine h.outside_op rfl fun _ => ?_
  split
  · exact h.outside_op rfl fun _ => .ret _
  · exact h.outside_lock (h.inside_hardResetLocked.releases fun _ =>
      h.releases_unlock fun _ => h.outside_op rfl fun _ => .ret _)

theorem releases_stop (h : Upheld M) (prog : Cmd Unit)
    (hprog : prog.Only (passiveOp · = true) fun _ => True) {α : Type} {f : Int → Cmd α}
    (hf : ∀ iRet, M.Releases (.rx n) M.inv (f iRet)) :
    M.Releases (.rx n) M.inv
      (.op .clearRxThread fun _ => prog >>= fun _ => antDisable b >>= f) := by
  have hstop := Monitor.Inside.releases (h.stop n hprog) hf
  rw [Prog.op_bind] at hstop
  simpa only [Prog.bind_assoc] using hstop

theorem releases_doResetLocked (h : Upheld M) :
    M.Releases (.rx n) M.inv (doResetLocked b 0) :=
  h.releases_stop (.ret ()) trivial fun _ => (h.enable _).releases fun _ =>
    .op (h.inner _ _ rfl) fun _ => (h.inside_only (report_only _)).releases fun _ =>
      h.releases_unlock fun _ => .ret _

theorem outside_doReset (h : Upheld M) : M.Outside (.rx n) (doReset b) := by
  simp only [doReset, Prog.op_bind, Prog.ret_bind]
  exact h.outside_op rfl fun _ => h.outside_op rfl fun _ =>
    .bind (h.outside_only (report_only _)) fun _ => h.outside_op rfl fun _ =>
      h.outside_lock (h.releases_doResetLocked.bind fun _ =>
        h.outside_op rfl fun _ => .ret _)

theorem releases_crashCleanUp (h : Upheld M) :
    M.Releases (.rx n) M.inv (crashCleanUp b 0) :=
  h.releases_stop (reportStatus (return .disabling)) (report_only _) fun _ =>
    (h.inside_only (reportStatus_only antRadioEnabledStatus_only)).releases fun _ =>
      h.releases_unlock fun _ => .ret _

theorem outside_rxClose (h : Upheld M) : M.Outside (.rx n) (rxClose b) := by
  simp only [rxClose, Prog.op_bind, Prog.ret_bind]
  refine .lock (congrFun h.lockAct_eq _) (fun r hr => ?_) fun r hr => ?_ <;>
    rw [h.lockAnswer_eq] at hr
  · obtain ⟨rfl, -⟩ | ⟨-, hgot⟩ := hr
    · exact h.releases_crashCleanUp.bind fun _ => h.outside_op rfl fun _ => .ret _
    · cases hgot
  · obtain ⟨-, hgot⟩ | ⟨rfl, -⟩ := hr
    · cases hgot
    · exact h.outside_op rfl fun _ => .ret _

/-- Every block respects the monitor, and names labels of its own kind of thread. -/
theorem checked (h : Upheld M) : M.Checked := by
  have hdone : ∀ {t : Tid} {prog : Cmd (Option Label)}, M.Outside t prog →
      prog.Returns (fun a => ∀ l, a = some l → hasRole t l) →
      M.Sat t (M.Done t) none prog := by
    intro t prog hprog hret
    refine (hprog.returns _ t hret).mono _ t fun a v hv => ⟨hv.1, fun l hl => ?_⟩
    rw [h.role_eq]
    exact hv.2 l hl
  have hend : ∀ {t : Tid} {α : Type} {prog : Cmd α}, M.Outside t prog →
      M.Sat t (M.Done t) none (prog >>= fun _ => (.ret none : Cmd (Option Label))) := by
    intro t α prog hprog
    exact hdone (hprog.bind fun _ => .ret _) (Prog.returns_bind _ fun _ => by simp)
  intro t l hrole
  rw [h.role_eq] at hrole
  cases t with
  | app n =>
      cases l with
      | enableRadio => exact hend h.outside_antEnableRadio
      | disableRadio => exact hend h.outside_antDisableRadio
      | hardReset => exact hend h.outside_antRadioHardReset
      | rxStart | rxLoop | rxClose | doReset => exact hrole.elim
  | rx n =>
      cases l with
      | rxStart =>
          refine hdone (h.outside_only rxStart_only) (rxStart_only.returns.mono fun a ha l hl => ?_)
          cases ha.symm.trans hl
          trivial
      | rxLoop =>
          refine hdone (.only rxLoop_only h.outer) (rxLoop_only.returns.mono fun a ha l hl => ?_)
          subst hl
          obtain hl | hl | hl := ha <;> cases hl <;> trivial
      | rxClose =>
          refine hdone h.outside_rxClose fun r => ?_
          exact Prog.returns_bind _ fun _ => Prog.returns_bind _ fun _ => by simp
      | doReset =>
          refine hdone (h.outside_doReset.bind fun _ => h.outside_op rfl fun _ => .ret _) ?_
          exact Prog.returns_bind _ fun _ => by simp
      | enableRadio | disableRadio | hardReset => exact hrole.elim

/-- No call has been made: nobody holds the lock, and no thread exists. -/
theorem start (h : Upheld M) {stateCallback rxCallback : Bool}
    (hinit : M.inv (M.guarded (Shared.init stateCallback rxCallback))) :
    M.Holds (initConfig stateCallback rxCallback) := by
  refine ⟨fun _ => hinit, fun t ht => ?_, fun t th hth => ?_, fun t th hth => ?_⟩
  · rw [h.owner_eq] at ht
    cases ht
  · cases hth
  · cases hth

end Upheld

/-- An invariant that is kept by `ant_enable`, by `ant_disable` and by everything
around them. -/
structure Steady {π : Type} (G : Guarding π) (b : Build) : Prop where
  outer : ∀ o, outerOp o = true → (G.monitor b).HarmlessOut o
  inner : ∀ t o, innerOp o = true → (G.monitor b).HarmlessIn t o
  enable : ∀ t, (G.monitor b).Inside t (antEnable b)
  disable : ∀ t, (G.monitor b).Inside t (antDisable b)

namespace Steady

variable {b : Build} {π : Type} {G : Guarding π}

theorem upheld (h : Steady G b) : Upheld (G.monitor b) where
  owner_eq := rfl
  lockAct_eq := rfl
  lockAnswer_eq := rfl
  role_eq := rfl
  outer o ho := by
    refine h.outer o (ho.elim outer_of_passive fun hkeep => ?_)
    cases o <;> first | rfl | cases hkeep
  inner t o ho := h.inner t o (by rw [innerOp, outer_of_passive ho]; rfl)
  unlock _ p hp := G.check_of_inv p hp
  enable := h.enable
  disable n := h.disable (.app n)
  stop n _ hprog := by
    refine inside_stop (h.inner _ .clearRxThread rfl) (fun o ho => h.inner _ o ?_) (h.disable _)
      hprog
    rw [innerOp, outer_of_passive ho]
    rfl

theorem holds (h : Steady G b) {c : ThreadConfig} {stateCallback rxCallback : Bool}
    (hinit : G.inv (G.guarded (Shared.init stateCallback rxCallback)))
    (hreach : (machine b).Reachable (initConfig stateCallback rxCallback) c) :
    (G.monitor b).Holds c :=
  Monitor.holds_path h.upheld.checked
    (fun x mv _ => Monitor.allowed_of_forall (fun _ _ _ _ => trivial) x mv)
    (h.upheld.start hinit) hreach

/-- The check holds in every state of every run. -/
theorem reachable (h : Steady G b) {c : ThreadConfig} {stateCallback rxCallback : Bool}
    (hinit : G.inv (G.guarded (Shared.init stateCallback rxCallback)))
    (hreach : (machine b).Reachable (initConfig stateCallback rxCallback) c) :
    G.check (G.guarded c.shared) ∧
      (c.shared.stEnabledStatusLock = none → G.inv (G.guarded c.shared)) := by
  have hholds := h.holds hinit hreach
  refine ⟨?_, hholds.free⟩
  cases howner : (G.monitor b).owner c.shared with
  | none => exact G.check_of_inv _ (hholds.free howner)
  | some t =>
      obtain ⟨_, _, _, -, hcheck⟩ := hholds.checked howner
      exact hcheck

end Steady
end AntHal
