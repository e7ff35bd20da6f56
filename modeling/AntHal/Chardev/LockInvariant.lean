import AntHal.Chardev.ReceiveRefinement
import AntHal.Chardev.Sections

/-!
What stEnabledStatusLock protects.

The lock guards the recorded receive thread and the descriptors. While it is
free, a recorded thread means that every channel is open, and no shutdown signal
waits for its join. Only application threads join, and what they join is the
recorded thread, after they have signalled it.
-/

namespace AntHal

open Concurrency

/-- The part of the state that only the holder of the lock writes. -/
structure Guarded where
  stRxThread : Nat
  iFd : AntChannelType → Int
  signalled : Bool

def Shared.guarded (s : Shared) : Guarded := ⟨s.stRxThread, s.iFd, s.signalled⟩

def Tid.isApp : Tid → Bool
  | .app _ => true
  | .rx _ => false

/-- What an operation answers about the guarded part, and does to it. -/
def reacts : (o : Op) → Guarded → o.Res → Guarded → Prop
  | .getRxThread, p, r, p' => r = p.stRxThread ∧ p' = p
  | .clearRxThread, p, _, p' => p' = { p with stRxThread := 0 }
  | .getFd ch, p, r, p' => r = p.iFd ch ∧ p' = p
  | .setFd ch fd, p, _, p' => p' = { p with iFd := Function.update p.iFd ch fd }
  | .pthreadCreate, p, r, p' =>
    (r = 0 ∧ ∃ h, p' = { p with stRxThread := h + 1 }) ∨ (0 < r ∧ p' = p)
  | .eventfdWrite, p, r, p' =>
    (0 ≤ r ∧ p' = { p with signalled := true }) ∨ (r < 0 ∧ p' = p)
  | .pthreadJoin _, p, _, p' => p' = { p with signalled := false }
  | _, p, _, p' => p' = p

/-- A join waits for the recorded thread, is made by the application only, and
follows a shutdown signal. -/
def joinsRecorded (t : Tid) : (o : Op) → Guarded → Prop
  | .pthreadJoin h, p => h = p.stRxThread ∧ h ≠ 0 ∧ t.isApp = true ∧ p.signalled = true
  | _, _ => True

/-- While the lock is free, a recorded thread has all its channels and nobody
has signalled it. -/
structure Resting (b : Build) (p : Guarded) : Prop where
  open_of_thread : p.stRxThread ≠ 0 → ∀ ch ∈ b.channels, p.iFd ch ≠ -1
  quiet : p.signalled = false

theorem readChannelMsg_iFd {b : Build} {t : Tid} {env : Env} (ch : AntChannelType)
    (s : Shared) : (effect b t env (.readChannelMsg ch) s).2.iFd = s.iFd := by
  obtain ⟨v, hv⟩ := readChannelMsg_info b.hci ⟨env.read, env.beyond, fun _ => 0⟩ (s.rx ch)
    (s.astChannels ch)
  funext ch'
  simp only [effect, Shared.iFd, Shared.log, hv]
  by_cases h : ch' = ch
  · subst h
    simp
  · rw [Function.update_of_ne h]

/-- Only the operations on the lock change who holds it; the others react as said. -/
theorem effect_reacts (b : Build) (t : Tid) (env : Env) (s : Shared) {o : Op}
    (hact : lockAct o = .plain) :
    (effect b t env o s).2.stEnabledStatusLock = s.stEnabledStatusLock ∧
      reacts o s.guarded (effect b t env o s).1 (effect b t env o s).2.guarded := by
  simp only [Shared.guarded]
  cases o <;> simp only [lockAct, reduceCtorEq] at hact
  case setFd ch fd =>
    exact ⟨rfl, by simp [effect, reacts]; rfl⟩
  case openDevice ch =>
    simp only [effect, reacts]
    split <;> exact ⟨rfl, by simp [Event.signal?]⟩
  case eventfdWrite =>
    simp only [effect, reacts]
    split <;> exact ⟨rfl, by simp [Event.signal?]⟩
  case pthreadCreate =>
    simp only [effect]
    split
    · exact ⟨rfl, .inl ⟨rfl, env.handle, by simp [Event.signal?]; exact ⟨rfl, rfl⟩⟩⟩
    · rename_i h
      exact ⟨rfl, .inr ⟨Int.natCast_pos.mpr (Nat.pos_of_ne_zero h), rfl⟩⟩
  case keepAliveCreate =>
    simp only [effect, reacts]
    split <;> exact ⟨rfl, by simp [Event.signal?]⟩
  case readChannelMsg ch =>
    refine ⟨rfl, ?_⟩
    simp only [reacts, readChannelMsg_iFd]
    simp [effect, Event.signal?]
    rfl
  all_goals
    first
      | exact ⟨rfl, rfl⟩
      | exact ⟨rfl, rfl, rfl⟩
      | exact ⟨rfl, by simp [effect, reacts, Event.signal?]⟩

def stateLock (b : Build) : Monitor (machine b) Guarded where
  owner s := s.stEnabledStatusLock
  guarded := Shared.guarded
  inv := Resting b
  rely p q := q = p
  rely_refl _ := rfl
  rely_trans h h' := h'.trans h
  inv_rely hp h := h ▸ hp
  lockAct := lockAct
  lockAnswer := lockAnswer
  react _ := reacts
  check := joinsRecorded
  allow _ _ _ _ := True
  role := hasRole
  role_entry := @hasRole_entry b
  role_spawn := @hasRole_spawn b
  lock_spec _ _ _ _ _ hact hready _ := lock_effect (fun _ _ => rfl) b hact hready
  unlock_spec _ _ _ _ hact := unlock_effect (fun _ _ => rfl) b hact
  plain_spec t env s _ hact _ :=
    ⟨(effect_reacts b t env s hact).1, fun _ _ => (effect_reacts b t env s hact).2⟩

theorem state_stable {b : Build} (I : Guarded → Prop) : (stateLock b).Stable I :=
  Monitor.Exact.stable (fun _ _ hs => hs) I

/-- It is about all runs. -/
theorem stateLock_allowed {b : Build} (c : ThreadConfig) (mv : Move Label Tid Env) :
    (stateLock b).Allowed c mv :=
  Monitor.allowed_of_forall (fun _ _ _ _ => trivial) c mv

section functions
variable {b : Build} {t : Tid} {α : Type}

/-- Operations that leave the guarded part alone. -/
def quiet : Op → Bool
  | .mutexLock | .mutexTrylock | .mutexUnlock | .clearRxThread | .setFd _ _ | .eventfdWrite
  | .pthreadCreate | .pthreadJoin _ => false
  | _ => true

theorem quiet_plain {o : Op} (h : quiet o = true) :
    lockAct o = .plain ∧ (∀ t p, joinsRecorded t o p) ∧ ∀ p r p', reacts o p r p' → p' = p := by
  cases o with
  | mutexLock | mutexTrylock | mutexUnlock | clearRxThread | setFd | eventfdWrite | pthreadCreate
  | pthreadJoin => cases h
  | getRxThread | getFd => exact ⟨rfl, fun _ _ => trivial, fun _ _ _ hr => hr.2⟩
  | _ => exact ⟨rfl, fun _ _ => trivial, fun _ _ _ hr => hr⟩

theorem quiet_of_passive {o : Op} (h : passiveOp o = true) : quiet o = true := by
  cases o <;> first | rfl | cases h

section rules
variable {I : Guarded → Prop} {J : α → Guarded → Prop}

/-- What is done by the owner, who knows the guarded part. -/
theorem locked_op {o : Op} {k : o.Res → Cmd α} {K : o.Res → Guarded → Prop}
    (hact : lockAct o = .plain)
    (ho : ∀ p, I p → joinsRecorded t o p ∧ ∀ r p', reacts o p r p' → K r p')
    (hk : ∀ r, (stateLock b).Triple t (K r) (k r) J) : (stateLock b).Triple t I (.op o k) J :=
  .op (state_stable I) hact ho hk

theorem locked_ret {a : α} (h : ∀ p, I p → J a p) :
    (stateLock b).Triple t I (.ret a : Cmd α) J :=
  .ret (state_stable I) h

theorem locked_quiet {o : Op} {k : o.Res → Cmd α} (h : quiet o = true)
    (hk : ∀ r, (stateLock b).Triple t I (k r) J) : (stateLock b).Triple t I (.op o k) J := by
  obtain ⟨hact, hcheck, hreact⟩ := quiet_plain h
  exact .unchanged (state_stable I) hact (fun p _ => hcheck t p) hreact hk

theorem locked_only {Q : α → Prop} {prog : Cmd α} (h : prog.Only (quiet · = true) Q) :
    (stateLock b).Triple t I prog fun _ => I := by
  refine .unchanged_only (state_stable I) h fun o ho => ?_
  obtain ⟨hact, hcheck, hreact⟩ := quiet_plain ho
  exact ⟨hact, fun p _ => hcheck t p, hreact⟩

theorem locked_passive {Q : α → Prop} {prog : Cmd α} (h : prog.Only (passiveOp · = true) Q) :
    (stateLock b).Triple t I prog fun _ => I :=
  locked_only (h.mono (fun _ => quiet_of_passive) fun _ ha => ha)

theorem locked_getRxThread {k : Nat → Cmd α}
    (hk : ∀ h, (stateLock b).Triple t (fun p => I p ∧ p.stRxThread = h) (k h) J) :
    (stateLock b).Triple t I (.op .getRxThread k) J := by
  refine locked_op rfl (fun p hp => ⟨trivial, ?_⟩) hk
  rintro r _ ⟨rfl, rfl⟩
  exact ⟨hp, rfl⟩

end rules

/-- The lock is at rest, and these channels are open. -/
structure RestingOpen (b : Build) (opened : List AntChannelType) (p : Guarded) : Prop where
  resting : Resting b p
  isOpen : ∀ ch ∈ opened, p.iFd ch ≠ -1

/-- A descriptor for a closed channel. -/
theorem RestingOpen.setFd {opened : List AntChannelType} {p : Guarded} {ch : AntChannelType}
    (h : RestingOpen b opened p) (hclosed : p.iFd ch = -1) (fd : Int) :
    RestingOpen b opened { p with iFd := Function.update p.iFd ch fd } := by
  exact ⟨⟨fun hthread ch' hch => update_open hclosed (h.resting.open_of_thread hthread ch' hch) fd,
    h.resting.quiet⟩, fun ch' hch => update_open hclosed (h.isOpen ch' hch) fd⟩

theorem openTransport_quiet (ch : AntChannelType) :
    (openTransport b ch).Only (quiet · = true) fun _ => True :=
  (openTransport_only ch).mono (fun o ho => by cases o <;> first | rfl | cases ho)
    fun _ ha => ha

/-- A channel that is enabled is open, and no open channel is lost. -/
theorem antEnableChannel_opens (opened : List AntChannelType) (ch : AntChannelType) :
    (stateLock b).Triple t (RestingOpen b opened) (antEnableChannel b ch) fun iRet p =>
      if iRet < 0 then Resting b p else RestingOpen b (ch :: opened) p := by
  refine triple_antEnableChannel (·.iFd ch) rfl (fun _ => state_stable _)
    (fun p _ => ⟨trivial, fun _ _ hr => hr⟩) (locked_only (openTransport_quiet ch))
    (fun iFd p hp hclosed => ⟨trivial, ?_⟩) (fun p hp => hp.resting)
    fun p hp hopen => ⟨hp.resting, List.forall_mem_cons.mpr ⟨hopen, hp.isOpen⟩⟩
  rintro r _ rfl
  exact hp.setFd hclosed iFd

theorem enableChannels_open :
    (stateLock b).Triple t (Resting b) (enableChannels b b.channels) fun enabled p =>
      if enabled then RestingOpen b b.channels p else Resting b p := by
  refine (triple_enableChannels (fun _ => state_stable _) (state_stable _)
    (fun opened ch _ => antEnableChannel_opens opened ch) []).mono
    (fun _ hp => ⟨hp, by simp⟩) fun enabled p hp => ?_
  cases enabled with
  | false => exact hp
  | true => exact ⟨hp.resting, fun ch hch => hp.isOpen ch (by simpa using hch)⟩

/-- `ant_enable` keeps the invariant: a thread is created behind the last open. -/
theorem inside_antEnable_state : (stateLock b).Inside t (antEnable b) := by
  simp only [antEnable, Prog.op_bind, Prog.ret_bind]
  have hout (iRet : Int) : (stateLock b).Inside t (antEnableOut b iRet) :=
    locked_passive (antEnableOut_only iRet)
  have hcheck : (stateLock b).Inside t (antEnableCheck b) := locked_passive antEnableCheck_only
  refine locked_quiet rfl fun _ => locked_quiet rfl fun _ => .ite (fun _ => hout _) fun _ =>
    locked_quiet rfl fun _ => triple_enabled enableChannels_open (hout _) ?_
  have hopen : (stateLock b).Triple t (RestingOpen b b.channels) (antEnableCheck b)
      fun _ => Resting b := hcheck.mono (fun _ hp => hp.resting) fun _ _ hp => hp
  refine locked_quiet rfl fun thread => .ite (fun _ => ?_) fun _ => hopen
  refine locked_op (K := fun _ => Resting b) rfl (fun p hp => ⟨trivial, fun r p' hr => ?_⟩)
    fun ret => .ite (fun _ => hout _) fun _ => hcheck
  obtain ⟨-, h, rfl⟩ | ⟨-, rfl⟩ := hr
  · exact ⟨fun _ => hp.isOpen, hp.resting.quiet⟩
  · exact hp.resting

/-- No thread is recorded and none is signalled, as `ant_disable` leaves it. -/
structure Stopped (p : Guarded) : Prop where
  stRxThread : p.stRxThread = 0
  quiet : p.signalled = false

theorem Stopped.resting {p : Guarded} (h : Stopped p) : Resting b p :=
  ⟨fun hthread => absurd h.stRxThread hthread, h.quiet⟩

theorem antDisableOut_stops (iRet : Int) :
    (stateLock b).Triple t (fun p => p.signalled = false) (antDisableOut iRet)
      fun _ => Stopped := by
  simp only [antDisableOut, Prog.op_bind, Prog.ret_bind]
  refine locked_op (K := fun _ => Stopped) rfl (fun p hp => ⟨trivial, ?_⟩) fun _ =>
    locked_quiet rfl fun _ => locked_ret fun _ hp => hp
  rintro r _ rfl
  exact ⟨rfl, hp⟩

theorem disableChannels_signalled :
    (stateLock b).Triple t (fun p => p.signalled = false)
      (disableChannels b b.channels) fun _ p => p.signalled = false := by
  refine (Monitor.Triple.only (state_stable _) (disableChannels_only _) fun o ho => ?_).mono
    (fun _ hp => hp) fun _ _ hp => hp.2
  by_cases hquiet : quiet o = true
  · obtain ⟨hact, hcheck, hreact⟩ := quiet_plain hquiet
    refine ⟨hact, fun p hp => ⟨hcheck t p, fun r p' hr => ?_⟩⟩
    rw [hreact p r p' hr]
    exact hp
  · cases o with
    | setFd ch fd =>
        refine ⟨rfl, fun p hp => ⟨trivial, ?_⟩⟩
        rintro r _ rfl
        exact hp
    | _ => first | exact absurd rfl hquiet | cases ho

/-- `ant_disable` forgets the recorded thread, however far it gets. -/
theorem antDisable_stops :
    (stateLock b).Triple t (fun p => (p.stRxThread = 0 ∨ t.isApp = true) ∧ p.signalled = false)
      (antDisable b) fun _ => Stopped := by
  simp only [antDisable, Prog.op_bind, Prog.ret_bind]
  have hclose : (stateLock b).Triple t (fun p => p.signalled = false)
      (disableChannels b b.channels >>= fun _ => antDisableOut 0) fun _ => Stopped :=
    .bind disableChannels_signalled fun _ => antDisableOut_stops 0
  refine locked_quiet rfl fun _ => locked_quiet rfl fun _ => locked_getRxThread fun thread =>
    .ite (fun hthread => ?_) fun _ => hclose.mono (fun _ hp => hp.1.2) fun _ _ hp => hp
  -- The signal is written for a recorded thread, which the application may join.
  refine locked_op (K := fun written p => (p.stRxThread ≠ 0 ∧ t.isApp = true) ∧
      if written < 0 then p.signalled = false else p.signalled = true) rfl
    (fun p hp => ⟨trivial, fun r p' hr => ?_⟩) fun written => .ite (fun hneg => ?_) fun hpos => ?_
  · have hne : p.stRxThread ≠ 0 := hp.2.symm ▸ hthread
    refine ⟨?_, ?_⟩
    · obtain ⟨-, rfl⟩ | ⟨-, rfl⟩ := hr <;> exact ⟨hne, hp.1.1.resolve_left hne⟩
    · obtain ⟨hr, rfl⟩ | ⟨hr, rfl⟩ := hr
      · rw [if_neg (Int.not_lt.mpr hr)]
      · rw [if_pos hr]
        exact hp.1.2
  · refine (antDisableOut_stops _).mono (fun p hp => ?_) fun _ _ hp => hp
    simpa [hneg] using hp.2
  · refine locked_getRxThread fun h => locked_op (K := fun _ p => p.signalled = false) rfl
      (fun p hp => ⟨?_, ?_⟩) fun joined => .ite (fun _ => antDisableOut_stops _) fun _ => hclose
    · obtain ⟨⟨⟨hne, happ⟩, hsignal⟩, rfl⟩ := hp
      rw [if_neg hpos] at hsignal
      exact ⟨rfl, hne, happ, hsignal⟩
    · rintro r _ rfl
      rfl

/-- Everything around `ant_enable` and `ant_disable` leaves the guarded part alone. -/
theorem state_upheld : Upheld (stateLock b) where
  owner_eq := rfl
  lockAct_eq := rfl
  lockAnswer_eq := rfl
  role_eq := rfl
  outer o ho := by
    have hquiet : quiet o = true := ho.elim quiet_of_passive fun hkeep => by
      cases o <;> first | rfl | cases hkeep
    obtain ⟨hact, -, hreact⟩ := quiet_plain hquiet
    exact ⟨hact, hreact⟩
  inner t o ho := by
    obtain ⟨hact, hcheck, hreact⟩ := quiet_plain (quiet_of_passive ho)
    exact Monitor.harmlessIn_of_eq hact (fun p _ => hcheck t p) hreact
  unlock _ _ _ := trivial
  enable _ := inside_antEnable_state
  disable n := antDisable_stops.mono (fun _ hp => ⟨.inr rfl, hp.quiet⟩) fun _ _ hp => hp.resting
  stop h prog hprog := by
    have hdisable : (stateLock b).Triple (.rx h) Stopped (antDisable b) fun _ => Resting b :=
      antDisable_stops.mono (fun _ hp => ⟨.inl hp.stRxThread, hp.quiet⟩)
        fun _ _ hp => hp.resting
    refine locked_op (K := fun _ => Stopped) rfl (fun p hp => ⟨trivial, ?_⟩) fun _ =>
      .bind (locked_passive hprog) fun _ => hdisable
    rintro r _ rfl
    exact ⟨rfl, hp.quiet⟩

/-- In every run the state lock is respected and its invariant holds. -/
theorem stateLock_holds {stateCallback rxCallback : Bool} {c : ThreadConfig}
    (h : (machine b).Reachable (initConfig stateCallback rxCallback) c) :
    (stateLock b).Holds c :=
  Monitor.holds_path state_upheld.checked (fun _ _ _ => stateLock_allowed _ _)
    (state_upheld.start ⟨fun hthread => absurd rfl hthread, rfl⟩) h

end functions
end AntHal
