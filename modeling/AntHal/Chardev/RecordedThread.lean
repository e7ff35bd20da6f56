import AntHal.Chardev.Operations

/-!
What the state lock means for the recorded receive thread.

The channels are opened and closed, and a thread is created, only while no
receive thread can be running: none is recorded, or the recorded one has been
joined. The application forgets a recorded thread behind its join. All of this
needs the shutdown signal to get through, since `ant_disable` gives up the thread
if the write fails.
-/

namespace AntHal

open Concurrency

/-- The recorded thread, the descriptors, and whether it has been joined. -/
structure Record where
  stRxThread : Nat
  iFd : AntChannelType → Int
  joined : Bool

def Shared.record (s : Shared) : Record :=
  ⟨s.stRxThread, s.iFd, decide (.joined s.stRxThread ∈ s.events)⟩

namespace Record

/-- No recorded thread can be running. -/
def Idle (p : Record) : Prop := p.stRxThread = 0 ∨ p.joined = true

/-- A recorded thread has all its channels. -/
def Kept (b : Build) (p : Record) : Prop :=
  p.stRxThread ≠ 0 → ∀ ch ∈ b.channels, p.iFd ch ≠ -1

end Record

/-- What opens or closes a channel. -/
def workOp : Op → Bool
  | .setFd _ _ | .openDevice _ | .closeDevice _ => true
  | o => vendorOp o

/-- What an operation answers about the record, and does to it. -/
def recordReact : (o : Op) → Record → o.Res → Record → Prop
  | .getRxThread, p, r, p' => r = p.stRxThread ∧ p' = p
  | .clearRxThread, p, _, p' => p'.stRxThread = 0 ∧ p'.iFd = p.iFd
  | .getFd ch, p, r, p' => r = p.iFd ch ∧ p' = p
  | .setFd ch fd, p, _, p' => p' = { p with iFd := Function.update p.iFd ch fd }
  | .eventfdWrite, p, r, p' => 0 ≤ r ∧ p' = p
  | .pthreadCreate, p, r, p' => (r = 0 ∧ p'.stRxThread ≠ 0 ∧ p'.iFd = p.iFd) ∨ (0 < r ∧ p' = p)
  | .pthreadJoin h, p, r, p' =>
    r = 0 ∧ p' = { p with joined := p.joined || decide (h = p.stRxThread) }
  | _, p, _, p' => p' = p

/-- Channels and threads are made and unmade while no thread is running. -/
structure RecordCheck (t : Tid) (o : Op) (p : Record) : Prop where
  work : workOp o = true → p.Idle
  create : o = .pthreadCreate → p.stRxThread = 0
  clear : o = .clearRxThread → t.isApp = true → p.Idle

/-- The steps of a run in which the shutdown signal gets through. -/
def signalWritten (env : Env) : Op → Bool
  | .eventfdWrite => env.eventfdWrite
  | _ => true

theorem Shared.record_log (s : Shared) {e : Event} (h : ∀ n, e ≠ .joined n) :
    (s.log e).record = s.record := by
  have hmem : Event.joined s.stRxThread ∈ s.events ++ [e] ↔
      Event.joined s.stRxThread ∈ s.events := by
    simp only [List.mem_append, List.mem_singleton, or_iff_left_iff_imp]
    exact fun heq => absurd heq.symm (h _)
  exact congrArg (Record.mk s.stRxThread s.iFd) (decide_eq_decide.mpr hmem)

theorem record_plain (b : Build) (t : Tid) (env : Env) (s : Shared) {o : Op}
    (hact : lockAct o = .plain) (hallow : signalWritten env o = true) :
    (effect b t env o s).2.stEnabledStatusLock = s.stEnabledStatusLock ∧
      recordReact o s.record (effect b t env o s).1 (effect b t env o s).2.record := by
  cases o <;> simp only [lockAct, reduceCtorEq] at hact
  case clearRxThread => exact ⟨rfl, rfl, rfl⟩
  case setFd ch fd => exact ⟨rfl,
    by simp only [effect, recordReact, Shared.record, Shared.setFd_iFd]; rfl⟩
  case eventfdWrite =>
    have hok : env.eventfdWrite = true := hallow
    simp only [effect, hok, if_true]
    exact ⟨rfl, by decide, Shared.record_log s (by simp)⟩
  case pthreadCreate =>
    simp only [effect]
    split
    · exact ⟨rfl, .inl ⟨rfl, Nat.succ_ne_zero _, rfl⟩⟩
    · rename_i herr
      exact ⟨rfl, .inr ⟨Int.natCast_pos.mpr (Nat.pos_of_ne_zero herr), rfl⟩⟩
  case pthreadJoin h =>
    refine ⟨rfl, rfl, congrArg (Record.mk s.stRxThread s.iFd) (Bool.eq_iff_iff.mpr ?_)⟩
    change decide (Event.joined s.stRxThread ∈ s.events ++ [Event.joined h]) = true ↔
      (decide (Event.joined s.stRxThread ∈ s.events) || decide (h = s.stRxThread)) = true
    simp only [Bool.or_eq_true, decide_eq_true_eq, List.mem_append, List.mem_singleton,
      Event.joined.injEq]
    exact or_congr Iff.rfl eq_comm
  case openDevice | keepAliveCreate =>
    simp only [effect]
    split
    · exact ⟨rfl, Shared.record_log _ (by simp)⟩
    · exact ⟨rfl, rfl⟩
  case readChannelMsg ch =>
    refine ⟨rfl, ?_⟩
    have hiFd : (effect b t env (.readChannelMsg ch) s).2.iFd = s.iFd := readChannelMsg_iFd ch s
    simp only [recordReact, Shared.record, hiFd]
    simp [effect, Shared.log]
  case funcStart | funcEnd | stateCallback | closeDevice | vendorInit | powerCtrl | vendorCleanup |
      pthreadDetach =>
    exact ⟨rfl, Shared.record_log _ (by simp)⟩
  all_goals
    first
      | exact ⟨rfl, rfl⟩
      | exact ⟨rfl, rfl, rfl⟩

/-- The lock that guards the record, in the runs in which the signal gets
through. Nobody works on the channels without it. -/
def recordLock (b : Build) : Monitor (machine b) Record where
  owner := Shared.stEnabledStatusLock
  guarded := Shared.record
  inv := Record.Kept b
  rely p p' := p' = p
  rely_refl _ := rfl
  rely_trans h h' := h'.trans h
  inv_rely h hs := (congrArg (Record.Kept b) hs).mpr h
  lockAct := lockAct
  lockAnswer := lockAnswer
  react inside o p r p' := (workOp o = true → inside = true) → recordReact o p r p'
  check := RecordCheck
  allow _ env o _ := signalWritten env o = true
  role := hasRole
  role_entry := @hasRole_entry b
  role_spawn := @hasRole_spawn b
  lock_spec _ _ _ _ _ hact hready _ := lock_effect (fun _ _ => rfl) b hact hready
  unlock_spec _ _ _ _ hact := unlock_effect (fun _ _ => rfl) b hact
  plain_spec t env s _ hact hallow :=
    (record_plain b t env s hact hallow).imp_right fun hreact _ _ _ => hreact

section recorded
variable {b : Build} {t : Tid} {p : Record} {α : Type} {I : Record → Prop}

theorem record_stable (I : Record → Prop) : (recordLock b).Stable I :=
  Monitor.Exact.stable (fun _ _ hs => hs) I

/-- What leaves the record alone, and needs nothing. -/
def leavesRecord : Op → Bool
  | .mutexLock | .mutexTrylock | .mutexUnlock | .clearRxThread | .pthreadCreate | .pthreadJoin _ =>
    false
  | o => !workOp o

theorem leavesRecord_of_passive {o : Op} (h : passiveOp o = true) : leavesRecord o = true := by
  cases o <;> first | rfl | cases h

theorem leavesRecord_plain {o : Op} (ho : leavesRecord o = true) :
    lockAct o = .plain ∧ (∀ p, RecordCheck t o p) ∧
      ∀ inside p r p', (recordLock b).react inside o p r p' → p' = p := by
  have hwork : workOp o = false := by
    cases o <;> first | rfl | cases ho
  have hreact : ∀ p r p', recordReact o p r p' → p' = p := by
    cases o with
    | mutexLock | mutexTrylock | mutexUnlock | clearRxThread | pthreadCreate | pthreadJoin |
    setFd =>
        cases ho
    | getRxThread | getFd | eventfdWrite => exact fun _ _ _ h => h.2
    | _ => exact fun _ _ _ h => h
  have hact : lockAct o = .plain := by
    cases o <;> first | rfl | cases ho
  refine ⟨hact, fun p => ⟨by simp [hwork], ?_, ?_⟩,
    fun inside p r p' hr => hreact p r p' (hr (by simp [hwork]))⟩
  · rintro rfl
    cases ho
  · rintro rfl
    cases ho

theorem record_harmlessIn {o : Op} (ho : leavesRecord o = true) :
    (recordLock b).HarmlessIn t o := by
  obtain ⟨hact, hcheck, hreact⟩ := leavesRecord_plain (b := b) (t := t) ho
  exact Monitor.harmlessIn_of_eq hact (fun p _ => hcheck p) (hreact true)

theorem inside_record_op {o : Op} {k : o.Res → Cmd α} (ho : leavesRecord o = true)
    (hk : ∀ r, (recordLock b).Inside t (k r)) : (recordLock b).Inside t (.op o k) :=
  .op (record_harmlessIn ho) hk

theorem inside_record_only {prog : Cmd α} {Q : α → Prop}
    (h : prog.Only (passiveOp · = true) Q) : (recordLock b).Inside t prog :=
  .only h fun _ ho => record_harmlessIn (leavesRecord_of_passive ho)

theorem triple_record_getRxThread {k : Nat → Cmd α} {J : α → Record → Prop}
    (hk : ∀ h, (recordLock b).Triple t (fun p => I p ∧ p.stRxThread = h) (k h) J) :
    (recordLock b).Triple t I (.op .getRxThread k) J := by
  refine .op (record_stable I) rfl
    (fun p hp => ⟨(leavesRecord_plain (b := b) rfl).2.1 p, fun r p' hr => ?_⟩) hk
  obtain ⟨rfl, rfl⟩ := hr (by simp [workOp, vendorOp])
  exact ⟨hp, rfl⟩

end recorded

section channels
variable {b : Build} {t : Tid}

/-- What works on a channel is done while no thread is running. -/
theorem work_check {o : Op} {p : Record} (ho : channelOp o = true) (hidle : p.Idle) :
    RecordCheck t o p := by
  refine ⟨fun _ => hidle, ?_, ?_⟩
  · rintro rfl
    cases ho
  · rintro rfl
    cases ho

/-- A channel operation touches the descriptors only. -/
theorem channel_reacts {o : Op} {p p' : Record} {r : o.Res} (ho : channelOp o = true)
    (hr : (recordLock b).react true o p r p') :
    p'.stRxThread = p.stRxThread ∧ p'.joined = p.joined := by
  have hreact : recordReact o p r p' := hr fun _ => rfl
  cases o with
  | getFd ch => rw [hreact.2]; exact ⟨rfl, rfl⟩
  | setFd ch fd =>
      obtain rfl := hreact
      exact ⟨rfl, rfl⟩
  | openDevice | closeDevice | dlopen | dlsym | getVendorInterface | clearVendorInterface |
    vendorInit | powerCtrl | userialOpen | userialClose | vendorCleanup =>
      rw [show p' = p from hreact]
      exact ⟨rfl, rfl⟩
  | _ => cases ho

theorem triple_disableChannels (chs : List AntChannelType) :
    (recordLock b).Triple t Record.Idle (disableChannels b chs) fun _ => Record.Idle := by
  refine (Monitor.Triple.only (record_stable _) (disableChannels_only chs) fun o ho => ⟨?_,
    fun p hp => ⟨work_check ho hp, fun r p' hr => ?_⟩⟩).mono (fun _ hp => hp) fun _ _ hp => hp.2
  · cases o <;> first | rfl | cases ho
  · obtain ⟨hthread, hjoined⟩ := channel_reacts ho hr
    exact hp.imp hthread.trans hjoined.trans

/-- The channels of the list are open, and a recorded thread has all its own. -/
structure Opened (b : Build) (chs : List AntChannelType) (p : Record) : Prop where
  kept : p.Kept b
  isOpen : ∀ ch ∈ chs, p.iFd ch ≠ -1

/-- A closed channel shows that no thread is recorded. -/
theorem Opened.closed {chs : List AntChannelType} {p : Record} (h : Opened b chs p)
    {ch : AntChannelType} (hch : ch ∈ b.channels) (hfd : p.iFd ch = -1) : p.stRxThread = 0 := by
  by_contra hthread
  exact h.kept hthread ch hch hfd

theorem triple_record_openTransport (ch : AntChannelType) {I : Record → Prop}
    (hI : ∀ p, I p → p.stRxThread = 0) :
    (recordLock b).Triple t I (openTransport b ch) fun _ => I := by
  refine .unchanged_only (record_stable I) (openTransport_only ch) fun o ho => ?_
  have hact : lockAct o = .plain := by cases o <;> first | rfl | cases ho
  refine ⟨hact, fun p hp => ⟨fun _ => .inl (hI p hp), ?_, ?_⟩, fun p r p' hr => ?_⟩
  · rintro rfl
    cases ho
  · rintro rfl
    cases ho
  · have hreact : recordReact o p r p' := hr fun _ => rfl
    cases o with
    | setFd | clearRxThread | pthreadCreate | pthreadJoin => cases ho
    | getRxThread | getFd | eventfdWrite => exact hreact.2
    | _ => exact hreact

/-- A channel is opened only if no thread is recorded. -/
theorem triple_record_antEnableChannel (chs : List AntChannelType) {ch : AntChannelType}
    (hch : ch ∈ b.channels) :
    (recordLock b).Triple t (Opened b chs) (antEnableChannel b ch) fun iRet p =>
      if iRet < 0 then p.Kept b else Opened b (ch :: chs) p := by
  refine triple_antEnableChannel (·.iFd ch) rfl (fun _ => record_stable _)
    (fun p _ => ⟨(leavesRecord_plain (b := b) rfl).2.1 p, fun r p' hr =>
      hr (by simp [workOp, vendorOp])⟩)
    (triple_record_openTransport ch fun p hp => hp.1.closed hch hp.2)
    (fun iFd p hp hclosed => ⟨work_check rfl (.inl (hp.closed hch hclosed)), fun r p' hr => ?_⟩)
    (fun p hp => hp.kept) fun p hp hopen => ⟨hp.kept, List.forall_mem_cons.mpr ⟨hopen, hp.isOpen⟩⟩
  obtain rfl := hr fun _ => rfl
  exact ⟨fun hthread => absurd (hp.closed hch hclosed) hthread,
    fun ch' hch' => update_open hclosed (hp.isOpen ch' hch') iFd⟩

theorem triple_record_enableChannels :
    (recordLock b).Triple t (Record.Kept b) (enableChannels b b.channels) fun enabled p =>
      if enabled then Opened b b.channels p else p.Kept b := by
  refine (triple_enableChannels (fun _ => record_stable _) (record_stable _)
    (fun chs ch hch => triple_record_antEnableChannel chs hch) []).mono
    (fun _ hp => ⟨hp, by simp⟩) fun enabled p hp => ?_
  cases enabled with
  | false => exact hp
  | true => exact ⟨hp.kept, fun ch hch => hp.isOpen ch (by simpa using hch)⟩

end channels

section sections
variable {b : Build} {t : Tid}

/-- A thread is created behind the opens, while none is recorded. -/
theorem inside_antEnable_record : (recordLock b).Inside t (antEnable b) := by
  have hout {I : Record → Prop} (hI : ∀ p, I p → p.Kept b) (iRet : Int) :
      (recordLock b).Triple t I (antEnableOut b iRet) fun _ => Record.Kept b :=
    (inside_record_only (antEnableOut_only iRet)).mono hI fun _ _ hp => hp
  have hcheck {I : Record → Prop} (hI : ∀ p, I p → p.Kept b) :
      (recordLock b).Triple t I (antEnableCheck b) fun _ => Record.Kept b :=
    (inside_record_only antEnableCheck_only).mono hI fun _ _ hp => hp
  simp only [antEnable, Prog.op_bind, Prog.ret_bind]
  refine inside_record_op rfl fun _ => inside_record_op rfl fun result =>
    .ite (fun _ => hout (fun _ hp => hp) _) fun _ => inside_record_op rfl fun _ => ?_
  refine triple_enabled triple_record_enableChannels (hout (fun _ hp => hp) _) ?_
  refine triple_record_getRxThread fun h => .ite (fun hnone => ?_)
    fun _ => hcheck fun p hp => hp.1.kept
  refine .op (K := fun _ => Record.Kept b) (record_stable _) rfl
    (fun p hp => ⟨⟨by simp [workOp, vendorOp], fun _ => hp.2.trans hnone, by simp⟩,
      fun r p' hr => ?_⟩) fun ret => .ite (fun _ => hout (fun _ hp => hp) _)
        fun _ => hcheck fun _ hp => hp
  obtain ⟨-, -, hfd⟩ | ⟨-, rfl⟩ := hr (by simp [workOp, vendorOp])
  · intro _
    rw [hfd]
    exact hp.1.isOpen
  · exact hp.1.kept

/-- The channels are closed, and the thread is forgotten, behind the join. -/
theorem inside_antDisable_record : (recordLock b).Inside t (antDisable b) := by
  have hout (iRet : Int) : (recordLock b).Triple t Record.Idle (antDisableOut iRet)
      fun _ => Record.Kept b := by
    simp only [antDisableOut, Prog.op_bind, Prog.ret_bind]
    refine .op (K := fun _ => Record.Kept b) (record_stable _) rfl
      (fun p hp => ⟨⟨by simp [workOp, vendorOp], by simp, fun _ _ => hp⟩, fun r p' hr => ?_⟩)
      fun _ => inside_record_op rfl fun _ => Monitor.Inside.ret _
    obtain ⟨hzero, -⟩ := hr (by simp [workOp, vendorOp])
    exact fun hthread => absurd hzero hthread
  have hclose : (recordLock b).Triple t Record.Idle
      (disableChannels b b.channels >>= fun _ => antDisableOut 0) fun _ => Record.Kept b :=
    .bind (triple_disableChannels _) fun _ => hout 0
  simp only [antDisable, Prog.op_bind, Prog.ret_bind]
  refine inside_record_op rfl fun _ => inside_record_op rfl fun _ =>
    triple_record_getRxThread fun h => .ite (fun hthread => ?_) fun hnone =>
      hclose.mono (fun p hp => .inl (hp.2.trans (not_not.mp hnone))) fun _ _ hp => hp
  refine .op (K := fun r p => 0 ≤ r ∧ p.stRxThread = h) (record_stable _) rfl
    (fun p hp => ⟨(leavesRecord_plain (b := b) rfl).2.1 p, fun r p' hr => ?_⟩) fun written =>
      .ite (fun hneg => ?_) fun _ => triple_record_getRxThread fun h' => ?_
  · obtain ⟨hwritten, rfl⟩ := hr (by simp [workOp, vendorOp])
    exact ⟨hwritten, hp.2⟩
  · exact (hout _).mono (fun p hp => absurd hp.1 (Int.not_le.mpr hneg)) fun _ _ hp => hp
  · refine .op (K := fun _ => Record.Idle) (record_stable _) rfl
      (fun p hp => ⟨⟨by simp [workOp, vendorOp], by simp, by simp⟩, fun r p' hr => ?_⟩)
      fun joined => .ite (fun _ => hout _) fun _ => hclose
    obtain ⟨-, rfl⟩ := hr (by simp [workOp, vendorOp])
    exact .inr (by simp [hp.2])

theorem record_upheld : Upheld (recordLock b) where
  owner_eq := rfl
  lockAct_eq := rfl
  lockAnswer_eq := rfl
  role_eq := rfl
  outer o ho := by
    have hleaves : leavesRecord o = true := ho.elim leavesRecord_of_passive fun hkeep => by
      cases o <;> first | rfl | cases hkeep
    obtain ⟨hact, -, hreact⟩ := leavesRecord_plain (b := b) (t := .rx 0) hleaves
    exact ⟨hact, hreact false⟩
  inner _ _ ho := record_harmlessIn (leavesRecord_of_passive ho)
  unlock t p _ := ⟨by simp [workOp, vendorOp], by simp, by simp⟩
  enable _ := inside_antEnable_record
  disable _ := inside_antDisable_record
  stop h _ hprog := by
    have hclear : (recordLock b).HarmlessIn (.rx h) .clearRxThread := by
      refine ⟨rfl, fun p hp => ⟨⟨by simp [workOp, vendorOp], by simp, ?_⟩, fun r p' hr => ?_⟩⟩
      · intro _ happ
        cases happ
      · obtain ⟨hzero, -⟩ := hr (by simp [workOp, vendorOp])
        exact fun hthread => absurd hzero hthread
    exact inside_stop hclear (fun _ ho => record_harmlessIn (leavesRecord_of_passive ho))
      inside_antDisable_record hprog

end sections

section runs
variable {b : Build} {stateCallback rxCallback : Bool} {c : ThreadConfig}

/-- A step in which a shutdown signal gets through, if one is written. -/
def signalGetsThrough (c : ThreadConfig) : Move Label Tid Env → Bool
  | .start _ _ => true
  | .act t env => ((c.pool t).bind Thread.head?).all (signalWritten env)

theorem recordLock_allowed {mv : Move Label Tid Env} (h : signalGetsThrough c mv = true) :
    (recordLock b).Allowed c mv := by
  cases mv with
  | start t l => trivial
  | act t env =>
      intro o ho
      rw [signalGetsThrough, ho] at h
      exact h

theorem recordLock_holds
    (h : (machine b).Path (signalGetsThrough · · = true) (initConfig stateCallback rxCallback) c) :
    (recordLock b).Holds c :=
  Monitor.holds_path record_upheld.checked (fun _ _ => recordLock_allowed)
    (record_upheld.start fun hthread => absurd rfl hthread) h

end runs
end AntHal
