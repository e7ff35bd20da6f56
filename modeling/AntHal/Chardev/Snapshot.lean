import AntHal.Chardev.LockInvariant
import AntHal.Chardev.Radio

/-!
Status snapshots taken in the middle of an operation.

A recorded thread whose run flag is set has all its channels, in every state of
every run. The receive thread may clear the flag without the lock, which can
only help; the closing of channels under a recorded thread happens behind such
a store of the lock's holder, and nobody else sets the flag again.
-/

namespace AntHal

open Concurrency

/-- The state that the status is computed from, without the reset flag. -/
structure Snapshot where
  stRxThread : Nat
  iFd : AntChannelType → Int
  ucRunThread : Bool

def Shared.snapshot (s : Shared) : Snapshot := ⟨s.stRxThread, s.iFd, s.ucRunThread⟩

namespace Snapshot

variable (b : Build) (p q : Snapshot)

def AllOpen : Prop := ∀ ch ∈ b.channels, p.iFd ch ≠ -1

/-- The thread and the descriptors are the same. -/
structure Same : Prop where
  stRxThread : q.stRxThread = p.stRxThread
  iFd : q.iFd = p.iFd

/-- The threads without the lock may clear the run flag. -/
structure Cleared : Prop extends Same p q where
  ucRunThread : q.ucRunThread = true → p.ucRunThread = true

/-- While the lock is free, a recorded thread has all its channels. -/
def Owned : Prop := p.stRxThread ≠ 0 → p.AllOpen b

/-- The law of every state. -/
def Consistent : Prop := p.ucRunThread = true → p.Owned b

variable {b p q}

theorem Owned.same (h : p.Owned b) (hs : Same p q) : q.Owned b := by
  intro hthread ch hch
  rw [hs.iFd]
  exact h (hs.stRxThread ▸ hthread) ch hch

theorem Same.trans {r : Snapshot} (h : Same p q) (h' : Same q r) : Same p r :=
  ⟨h'.stRxThread.trans h.stRxThread, h'.iFd.trans h.iFd⟩

end Snapshot

/-- What an operation answers about the snapshot, and does to it. -/
def snapshotReacts : (o : Op) → Snapshot → o.Res → Snapshot → Prop
  | .getRxThread, p, r, p' => r = p.stRxThread ∧ p' = p
  | .clearRxThread, p, _, p' => p' = { p with stRxThread := 0 }
  | .getFd ch, p, r, p' => r = p.iFd ch ∧ p' = p
  | .setFd ch fd, p, _, p' => p' = { p with iFd := Function.update p.iFd ch fd }
  | .setRunThread v, p, _, p' => p' = { p with ucRunThread := v }
  | .pthreadCreate, p, _, p' => p' = p ∨ ∃ h, p' = { p with stRxThread := h + 1 }
  | _, p, _, p' => p' = p

/-- A plain operation reacts as stated, and leaves the lock. -/
theorem snapshot_plain (b : Build) (t : Tid) (env : Env) (s : Shared) {o : Op}
    (hact : lockAct o = .plain) :
    (effect b t env o s).2.stEnabledStatusLock = s.stEnabledStatusLock ∧
      snapshotReacts o s.snapshot (effect b t env o s).1 (effect b t env o s).2.snapshot := by
  cases o <;> simp only [lockAct, reduceCtorEq] at hact
  case setFd ch fd => exact ⟨rfl, by simp [effect, snapshotReacts, Shared.snapshot]⟩
  case openDevice | eventfdWrite | keepAliveCreate =>
    simp only [effect, snapshotReacts]
    split <;> exact ⟨rfl, rfl⟩
  case pthreadCreate =>
    simp only [effect, snapshotReacts]
    split
    · exact ⟨rfl, .inr ⟨env.handle, rfl⟩⟩
    · exact ⟨rfl, .inl rfl⟩
  case readChannelMsg ch =>
    refine ⟨rfl, ?_⟩
    simp only [snapshotReacts, Shared.snapshot, readChannelMsg_iFd]
    rfl
  all_goals
    first
      | exact ⟨rfl, rfl⟩
      | exact ⟨rfl, rfl, rfl⟩

def snapshotGuard (b : Build) : Guarding Snapshot where
  guarded := Shared.snapshot
  guarded_lock _ _ := rfl
  inv := Snapshot.Owned b
  rely := Snapshot.Cleared
  rely_refl _ := ⟨⟨rfl, rfl⟩, id⟩
  rely_trans h h' := ⟨h.toSame.trans h'.toSame, fun hq => h.ucRunThread (h'.ucRunThread hq)⟩
  inv_rely h hs := h.same hs.toSame
  react := snapshotReacts
  check := Snapshot.Consistent b
  check_of_inv _ h _ := h
  plain := snapshot_plain

abbrev snapshotLock (b : Build) : Monitor (machine b) Snapshot :=
  (snapshotGuard b).monitor b

namespace Snapshot

variable {b : Build} {t : Tid} {p q : Snapshot}

/-- The channels of the list are open, and those of a recorded thread. -/
structure HasOpen (b : Build) (chs : List AntChannelType) (p : Snapshot) : Prop where
  owned : p.Owned b
  isOpen : ∀ ch ∈ chs, p.iFd ch ≠ -1

theorem Consistent.owned (h : p.Owned b) : p.Consistent b := fun _ => h

theorem Consistent.stopped (h : p.ucRunThread = false) : p.Consistent b := by
  intro hrun
  rw [h] at hrun
  cases hrun

theorem stable_of_same {I : Snapshot → Prop} (h : ∀ p q, Same p q → I p → I q) :
    (snapshotLock b).Stable I :=
  fun p q hp hs => h p q hs.toSame hp

theorem stable_stopped : (snapshotLock b).Stable (·.ucRunThread = false) := by
  intro p q hp hs
  rw [Bool.eq_false_iff]
  intro hq
  rw [hs.ucRunThread hq] at hp
  cases hp

theorem HasOpen.same {chs : List AntChannelType} (hs : Same p q) (h : p.HasOpen b chs) :
    q.HasOpen b chs := by
  refine ⟨h.owned.same hs, fun ch hch => ?_⟩
  rw [hs.iFd]
  exact h.isOpen ch hch

/-- A closed channel may get any descriptor: no thread is recorded beside it. -/
theorem HasOpen.setFd {chs : List AntChannelType} {ch : AntChannelType} (h : p.HasOpen b chs)
    (hch : p.iFd ch = -1) (fd : Int) :
    HasOpen b chs { p with iFd := Function.update p.iFd ch fd } := by
  exact ⟨fun hthread ch' hch' => update_open hch (h.owned hthread ch' hch') fd,
    fun ch' hch' => update_open hch (h.isOpen ch' hch') fd⟩

/-- The operations around the opens leave the snapshot, up to the run flag. -/
theorem opening_reacts {o : Op} {r : o.Res} (ho : openingOp o = true)
    (h : snapshotReacts o p r q) : Same p q ∧ (q.ucRunThread = true → p.ucRunThread = true) := by
  cases o with
  | setRunThread v =>
      cases v with
      | true => cases ho
      | false =>
          subst h
          exact ⟨⟨rfl, rfl⟩, by simp⟩
  | getRxThread | getFd =>
      obtain ⟨-, rfl⟩ := h
      exact ⟨⟨rfl, rfl⟩, id⟩
  | clearRxThread | setFd | pthreadCreate => cases ho
  | _ =>
      subst h
      exact ⟨⟨rfl, rfl⟩, id⟩

/-- While the radio is being stopped nobody raises the run flag. -/
theorem stopping_reacts {o : Op} {r : o.Res} (ho : stoppingOp o = true)
    (h : snapshotReacts o p r q) (hp : p.ucRunThread = false) : q.ucRunThread = false := by
  cases o with
  | setRunThread v =>
      cases v with
      | true => cases ho
      | false =>
          subst h
          rfl
  | getRxThread | getFd =>
      obtain ⟨-, rfl⟩ := h
      exact hp
  | clearRxThread | pthreadCreate => cases ho
  | _ =>
      subst h
      exact hp

theorem opening_plain {o : Op} (h : openingOp o = true) : lockAct o = .plain := by
  cases o <;> first | rfl | cases h

theorem stopping_plain {o : Op} (h : stoppingOp o = true) : lockAct o = .plain := by
  cases o <;> first | rfl | cases h

theorem opening_of_outer {o : Op} (h : outerOp o = true) : openingOp o = true := by
  cases o <;> first | rfl | cases h | exact h

/-- An assertion about the thread and the descriptors is kept around the opens. -/
theorem triple_opening {α : Type} {prog : Cmd α} {I : Snapshot → Prop}
    (h : prog.Only (openingOp · = true) fun _ => True)
    (hI : ∀ p q, Same p q → I p → I q) (howned : ∀ p, I p → p.Owned b) :
    (snapshotLock b).Triple t I prog fun _ => I := by
  refine (Monitor.Triple.only (stable_of_same hI) h fun o ho => ⟨opening_plain ho,
    fun p hp => ⟨.owned (howned p hp), fun r q hr => ?_⟩⟩).mono (fun _ hp => hp)
    fun _ _ hp => hp.2
  exact hI p q (opening_reacts ho hr).1 hp

theorem triple_stopping {α : Type} {prog : Cmd α}
    (h : prog.Only (stoppingOp · = true) fun _ => True) :
    (snapshotLock b).Triple t (·.ucRunThread = false) prog fun _ p => p.ucRunThread = false := by
  refine (Monitor.Triple.only stable_stopped h fun o ho => ⟨stopping_plain ho,
    fun p hp => ⟨.stopped hp, fun r q hr => stopping_reacts ho hr hp⟩⟩).mono (fun _ hp => hp)
    fun _ _ hp => hp.2

/-- Opening a channel loses no other one, and succeeds only with a descriptor. -/
theorem antEnableChannel_hasOpen (chs : List AntChannelType) (ch : AntChannelType) :
    (snapshotLock b).Triple t (HasOpen b chs) (antEnableChannel b ch) fun iRet p =>
      if iRet < 0 then p.Owned b else p.HasOpen b (ch :: chs) := by
  have hsame (fd : Int) : ∀ p q, Same p q → p.HasOpen b chs ∧ p.iFd ch = fd →
      q.HasOpen b chs ∧ q.iFd ch = fd :=
    fun p q hs h => ⟨h.1.same hs, hs.iFd ▸ h.2⟩
  refine triple_antEnableChannel (·.iFd ch) rfl (fun fd => stable_of_same (hsame fd))
    (fun p hp => ⟨.owned hp.owned, fun _ _ hr => hr⟩)
    (triple_opening (openTransport_only ch) (hsame (-1)) fun p hp => hp.1.owned)
    (fun iFd p hp hclosed => ⟨.owned hp.owned, ?_⟩) (fun p hp => hp.owned)
    fun p hp hopen => ⟨hp.owned, List.forall_mem_cons.mpr ⟨hopen, hp.isOpen⟩⟩
  rintro r q rfl
  exact hp.setFd hclosed iFd

theorem enableChannels_allOpen :
    (snapshotLock b).Triple t (Owned b) (enableChannels b b.channels) fun enabled p =>
      if enabled then p.AllOpen b else p.Owned b := by
  refine (triple_enableChannels (fun _ => stable_of_same fun _ _ => .same) Monitor.stable_inv
    (fun chs ch _ => antEnableChannel_hasOpen chs ch) []).mono (fun _ hp => ⟨hp, by simp⟩)
    fun enabled p hp => ?_
  cases enabled with
  | false => exact hp
  | true => exact fun ch hch => hp.isOpen ch (by simpa using hch)

theorem harmlessIn {o : Op} (ho : innerOp o = true) : (snapshotLock b).HarmlessIn t o := by
  rw [innerOp, Bool.or_eq_true, decide_eq_true_eq] at ho
  obtain ho | rfl := ho
  · have hopen := opening_of_outer ho
    exact ⟨opening_plain hopen, fun p hp => ⟨.owned hp, fun r q hr =>
      hp.same (opening_reacts hopen hr).1⟩⟩
  · refine ⟨rfl, fun p hp => ⟨.owned hp, ?_⟩⟩
    rintro r q rfl hthread
    exact absurd rfl hthread

theorem harmlessOut {o : Op} (ho : outerOp o = true) : (snapshotLock b).HarmlessOut o := by
  have hopen := opening_of_outer ho
  refine ⟨opening_plain hopen, fun p r q hr => ?_⟩
  obtain ⟨hsame, hrun⟩ := opening_reacts hopen hr
  exact ⟨hsame, hrun⟩

theorem harmless_only {α : Type} {prog : Cmd α} {Q : α → Prop}
    (h : prog.Only (passiveOp · = true) Q) : (snapshotLock b).Inside t prog :=
  .only h fun o ho => harmlessIn (by rw [innerOp, outer_of_passive ho]; rfl)

/-- `ant_enable` raises the run flag before the opens, and records a thread
behind the last of them. -/
theorem inside_antEnable : (snapshotLock b).Inside t (antEnable b) := by
  have hout {iRet : Int} {I : Snapshot → Prop} (hI : ∀ p, I p → p.Owned b) :
      (snapshotLock b).Triple t I (antEnableOut b iRet) fun _ => Owned b :=
    (harmless_only (antEnableOut_only iRet)).mono hI fun _ _ hp => hp
  have hcheck {I : Snapshot → Prop} (hI : ∀ p, I p → p.Owned b) :
      (snapshotLock b).Triple t I (antEnableCheck b) fun _ => Owned b :=
    (harmless_only antEnableCheck_only).mono hI fun _ _ hp => hp
  have hstart : (snapshotLock b).HarmlessIn t (.funcStart .antEnable) :=
    ⟨rfl, fun p hp => ⟨.owned hp, fun r q hr => hr ▸ hp⟩⟩
  simp only [antEnable, Prog.op_bind, Prog.ret_bind]
  refine .op hstart fun _ => .op (harmlessIn rfl) fun result =>
    .ite (fun _ => hout fun _ hp => hp) fun _ => ?_
  refine Monitor.Inside.op ⟨rfl, fun p hp => ⟨.owned hp, ?_⟩⟩ fun _ =>
    triple_enabled enableChannels_allOpen (hout fun _ hp => hp) ?_
  · rintro r q rfl
    exact hp
  · have hsame : ∀ p q, Same p q → p.AllOpen b → q.AllOpen b := by
      intro p q hs hp ch hch
      rw [hs.iFd]
      exact hp ch hch
    have hstable : (snapshotLock b).Stable (AllOpen b) := stable_of_same hsame
    refine .op hstable rfl (fun p hp => ⟨.owned fun _ => hp, ?_⟩) fun h =>
      .ite (fun _ => ?_) fun _ => hcheck (I := AllOpen b) fun p hp _ => hp
    · rintro r q ⟨-, rfl⟩
      exact hp
    · refine .op hstable rfl (fun p hp => ⟨.owned fun _ => hp, ?_⟩) fun ret =>
        .ite (fun _ => hout (I := AllOpen b) fun p hp _ => hp) fun _ => hcheck fun p hp _ => hp
      rintro r q (rfl | ⟨h, rfl⟩)
      · exact hp
      · exact hp

/-- `ant_disable` takes the run flag down first; until the thread is forgotten
nobody can raise it again. -/
theorem inside_antDisable : (snapshotLock b).Inside t (antDisable b) := by
  have hout (iRet : Int) :
      (snapshotLock b).Triple t (·.ucRunThread = false) (antDisableOut iRet) fun _ => Owned b := by
    simp only [antDisableOut, Prog.op_bind, Prog.ret_bind]
    refine .op stable_stopped rfl (fun p hp => ⟨.stopped hp, ?_⟩) fun _ =>
      .op (K := fun _ => Owned b) Monitor.stable_inv rfl (fun p hp => ⟨.owned hp, ?_⟩) fun _ =>
        .ret Monitor.stable_inv fun p hp => hp
    · rintro r q rfl hthread
      exact absurd rfl hthread
    · rintro r q rfl
      exact hp
  have hclose : (snapshotLock b).Triple t (·.ucRunThread = false)
      (disableChannels b b.channels >>= fun _ => antDisableOut 0) fun _ => Owned b :=
    .bind (triple_stopping
      ((disableChannels_only _).mono (fun _ => stopping_of_channel) fun _ ha => ha)) fun _ => hout 0
  have hop {o : Op} {k : o.Res → Cmd Int} (ho : stoppingOp o = true)
      (hk : ∀ r, (snapshotLock b).Triple t (·.ucRunThread = false) (k r) fun _ => Owned b) :
      (snapshotLock b).Triple t (·.ucRunThread = false) (.op o k) fun _ => Owned b :=
    .op stable_stopped (stopping_plain ho) (fun p hp => ⟨.stopped hp, fun r q hr =>
      stopping_reacts ho hr hp⟩) hk
  simp only [antDisable, Prog.op_bind, Prog.ret_bind]
  refine .op (harmlessIn rfl) fun _ => Monitor.Triple.op Monitor.stable_inv rfl
    (fun p hp => ⟨.owned hp, ?_⟩) fun _ => hop rfl fun h => .ite (fun _ => ?_) fun _ => hclose
  · rintro r q rfl
    rfl
  · exact hop rfl fun w => .ite (fun _ => hout _) fun _ => hop rfl fun h => hop rfl fun j =>
      .ite (fun _ => hout _) fun _ => hclose

theorem steady (b : Build) : Steady (snapshotGuard b) b where
  outer _ ho := harmlessOut ho
  inner _ _ ho := harmlessIn ho
  enable _ := inside_antEnable
  disable _ := inside_antDisable

end Snapshot

section snapshots
variable {b : Build} {stateCallback rxCallback : Bool} {c : ThreadConfig}

theorem computeStatus_eq_unknown {n : Nat} {thread run : Bool}
    (h : computeStatus b n thread run = .unknown) :
    run = true ∧ thread = true ∧ n ≠ b.channels.length := by
  unfold computeStatus at h
  cases run <;> cases thread <;> grind

/-- The status law: in every state of every run, also in the middle of an
operation, a recorded thread with its run flag has all its channels. -/
theorem radioEnabledStatus_consistent
    (h : (machine b).Reachable (initConfig stateCallback rxCallback) c) :
    (c.shared.stRxThread ≠ 0 → c.shared.ucRunThread = true →
        ∀ ch ∈ b.channels, c.shared.iFd ch ≠ -1) ∧
      radioEnabledStatus b c.shared ≠ .unknown ∧
      (c.shared.ucChipResetting = false → c.shared.stRxThread ≠ 0 →
        c.shared.ucRunThread = true → radioEnabledStatus b c.shared = .enabled) := by
  have hopen : c.shared.stRxThread ≠ 0 → c.shared.ucRunThread = true →
      ∀ ch ∈ b.channels, c.shared.iFd ch ≠ -1 :=
    fun hthread hrun =>
      ((Snapshot.steady b).reachable (fun hthread => absurd rfl hthread) h).1 hrun hthread
  refine ⟨hopen, fun hunknown => ?_, fun hreset hthread hrun => ?_⟩
  · rw [radioEnabledStatus_eq, Radio.status] at hunknown
    split at hunknown
    · cases hunknown
    · obtain ⟨hrun, hthread, hfiles⟩ := computeStatus_eq_unknown hunknown
      rw [bne_iff_ne] at hthread
      exact hfiles (Radio.openFiles_eq_length_iff.mpr (hopen hthread hrun))
  · rw [radioEnabledStatus_eq, Radio.status_eq_enabled_iff]
    exact ⟨hreset, hrun, hthread, hopen hthread hrun⟩

/-- Between the creation of the receive thread and the end of `ant_enable`. -/
theorem radioEnabledStatus_consistent_enabling :
    ∃ c : ThreadConfig, c.shared.stEnabledStatusLock.isSome = true ∧
      radioEnabledStatus .smd c.shared = .enabled := by
  obtain ⟨c, hpath, hc⟩ := Machine.exec_any (machine .smd) (fun _ _ => true)
    (.start (.app 0) .enableRadio :: List.replicate 22 (.act (.app 0) {})) (initConfig true true)
    (fun c => c.shared.stEnabledStatusLock.isSome && !c.shared.ucChipResetting &&
      c.shared.stRxThread != 0 && c.shared.ucRunThread) (by decide)
  simp only [Bool.and_eq_true, Bool.not_eq_true', bne_iff_ne] at hc
  obtain ⟨⟨⟨hlocked, hreset⟩, hthread⟩, hrun⟩ := hc
  exact ⟨c, hlocked, (radioEnabledStatus_consistent hpath.reachable).2.2 hreset hthread hrun⟩

end snapshots
end AntHal
