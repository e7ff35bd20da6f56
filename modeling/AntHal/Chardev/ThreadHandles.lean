import AntHal.Concurrency.Carrier
import AntHal.Chardev.LockInvariant

/-!
The handles of the threads that the back ends create.

The handle of the receive thread is recorded in stRxThread, under the state lock,
until `ant_disable` joins it; the handle of a keepalive thread is detached by the
operation behind its creation. Handles are lost where stRxThread is cleared
without a join, and made up where the creation of a keepalive thread fails.
-/

namespace AntHal

open Concurrency

section ledgers

/-- The receive threads: created, and joined. -/
def Event.rxHandle? : Event → Option (Ledger.Entry Nat)
  | .created h => some (.acquire h)
  | .joined h => some (.release h)
  | _ => none

/-- The keepalive threads: created, and detached. -/
def Event.keepAliveHandle? : Event → Option (Ledger.Entry Nat)
  | .keepAliveCreated h => some (.acquire h)
  | .detached h => some (.release h)
  | _ => none

/-- Every handle that pthread_create has produced, and every one that
pthread_join or pthread_detach was applied to. -/
def Event.handle? : Event → Option (Ledger.Entry Nat)
  | .created h | .keepAliveCreated h => some (.acquire h)
  | .joined h | .detached h => some (.release h)
  | _ => none

theorem Event.handle?_eq (e : Event) : e.handle? = e.rxHandle?.or e.keepAliveHandle? := by
  cases e <;> rfl

theorem Event.handle?_apart (e : Event) : e.rxHandle? = none ∨ e.keepAliveHandle? = none := by
  cases e <;> first | exact .inl rfl | exact .inr rfl

namespace Shared

variable (s : Shared)

def rxHandles : List (Ledger.Entry Nat) := s.events.filterMap Event.rxHandle?

def keepAliveHandles : List (Ledger.Entry Nat) := s.events.filterMap Event.keepAliveHandle?

def handles : List (Ledger.Entry Nat) := s.events.filterMap Event.handle?

theorem out_handles {rx keepAlive : Multiset Nat} (hrx : Ledger.out s.rxHandles = some rx)
    (hkeep : Ledger.out s.keepAliveHandles = some keepAlive) :
    Ledger.out s.handles = some (rx + keepAlive) := by
  rw [handles, funext Event.handle?_eq]
  exact Ledger.out_or Event.handle?_apart hrx hkeep

end Shared
end ledgers

/-- The recorded handle, and the receive threads that have not been joined. -/
structure Handles where
  stRxThread : Nat
  out : Option (Multiset Nat)

def Shared.rxThreads (s : Shared) : Handles := ⟨s.stRxThread, Ledger.out s.rxHandles⟩

/-- The steps that the lock below is about: a signal gets through, and only a
joined thread is taken out of stRxThread. -/
def handleAllowed (env : Env) (s : Shared) : Op → Prop
  | .eventfdWrite => env.eventfdWrite = true
  | .clearRxThread => s.stRxThread = 0 ∨ Ledger.out s.rxHandles = some 0
  | _ => True

/-- What an operation answers about the handles, and does to them. -/
def handlesReact : (o : Op) → Handles → o.Res → Handles → Prop
  | .getRxThread, p, r, p' => r = p.stRxThread ∧ p' = p
  | .clearRxThread, p, _, p' =>
      (p.stRxThread = 0 ∨ p.out = some 0) ∧ p' = { p with stRxThread := 0 }
  | .eventfdWrite, p, r, p' => 0 ≤ r ∧ p' = p
  | .pthreadCreate, p, r, p' =>
    (∃ h, p' = ⟨h + 1, p.out.bind (Ledger.enter · (.acquire (h + 1)))⟩) ∨ (0 < r ∧ p' = p)
  | .pthreadJoin h, p, _, p' => p' = { p with out := p.out.bind (Ledger.enter · (.release h)) }
  | _, p, _, p' => p' = p

theorem Shared.rxThreads_log (s : Shared) {e : Event} (h : e.rxHandle? = none) :
    (s.log e).rxThreads = s.rxThreads := by
  simp [rxThreads, rxHandles, log, h]

theorem Shared.rxThreads_entry (s : Shared) {e : Event} {entry : Ledger.Entry Nat}
    (h : e.rxHandle? = some entry) :
    (s.log e).rxThreads = ⟨s.stRxThread, (Ledger.out s.rxHandles).bind (Ledger.enter · entry)⟩ := by
  simp [rxThreads, rxHandles, log, h]

/-- A plain operation reacts as stated, and leaves the lock. -/
theorem handles_plain (b : Build) (t : Tid) (env : Env) (s : Shared) {o : Op}
    (hact : lockAct o = .plain) (hallow : handleAllowed env s o) :
    (effect b t env o s).2.stEnabledStatusLock = s.stEnabledStatusLock ∧
      handlesReact o s.rxThreads (effect b t env o s).1 (effect b t env o s).2.rxThreads := by
  cases o <;> simp only [lockAct, reduceCtorEq] at hact
  case clearRxThread => exact ⟨rfl, hallow, rfl⟩
  case eventfdWrite =>
    have hok : env.eventfdWrite = true := hallow
    simp only [effect, hok, if_true]
    exact ⟨rfl, by decide, Shared.rxThreads_log s rfl⟩
  case pthreadCreate =>
    simp only [effect]
    split
    · exact ⟨rfl, .inl ⟨env.handle, Shared.rxThreads_entry _ rfl⟩⟩
    · rename_i herr
      exact ⟨rfl, .inr ⟨Int.natCast_pos.mpr (Nat.pos_of_ne_zero herr), rfl⟩⟩
  case pthreadJoin h => exact ⟨rfl, Shared.rxThreads_entry s rfl⟩
  case openDevice | keepAliveCreate =>
    simp only [effect]
    split
    · exact ⟨rfl, Shared.rxThreads_log _ rfl⟩
    · exact ⟨rfl, rfl⟩
  case funcStart | funcEnd | stateCallback | closeDevice | vendorInit | powerCtrl | vendorCleanup |
      pthreadDetach | readChannelMsg =>
    exact ⟨rfl, Shared.rxThreads_log _ rfl⟩
  all_goals
    first
      | exact ⟨rfl, rfl⟩
      | exact ⟨rfl, rfl, rfl⟩

/-- While the lock is free, the recorded thread is the one that is not joined. -/
def Booked (p : Handles) : Prop :=
  p.out = some (if p.stRxThread = 0 then 0 else {p.stRxThread})

/-- Only the recorded thread can still be joined; and the application clears the
handle when nothing is left to join. -/
def handlesCheck (t : Tid) (o : Op) (p : Handles) : Prop :=
  (∃ values, p.out = some values ∧ values ≤ {p.stRxThread}) ∧
    (o = .clearRxThread → t.isApp = true → p.stRxThread = 0 ∨ p.out = some 0)

/-- The lock that guards the handle, in the runs in which it is not lost. -/
def handleLock (b : Build) : Monitor (machine b) Handles where
  owner := Shared.stEnabledStatusLock
  guarded := Shared.rxThreads
  inv := Booked
  rely p p' := p' = p
  rely_refl _ := rfl
  rely_trans h h' := h'.trans h
  inv_rely h hs := (congrArg Booked hs).mpr h
  lockAct := lockAct
  lockAnswer := lockAnswer
  react _ := handlesReact
  check := handlesCheck
  allow _ env o s := handleAllowed env s o
  role := hasRole
  role_entry := @hasRole_entry b
  role_spawn := @hasRole_spawn b
  lock_spec _ _ _ _ _ hact hready _ := lock_effect (fun _ _ => rfl) b hact hready
  unlock_spec _ _ _ _ hact := unlock_effect (fun _ _ => rfl) b hact
  plain_spec t env s _ hact hallow :=
    (handles_plain b t env s hact hallow).imp_right fun hreact _ _ => hreact

section recorded
variable {b : Build} {t : Tid} {p : Handles}

/-- What is neither a lock call nor done to a receive thread. -/
def leavesHandles : Op → Bool
  | .mutexLock | .mutexTrylock | .mutexUnlock | .clearRxThread | .pthreadCreate | .pthreadJoin _ =>
    false
  | _ => true

theorem leavesHandles_of_passive {o : Op} (h : passiveOp o = true) : leavesHandles o = true := by
  cases o <;> first | rfl | cases h

theorem leavesHandles_of_channel {o : Op} (h : channelOp o = true) : leavesHandles o = true := by
  cases o <;> first | rfl | cases h

theorem leavesHandles_plain {o : Op} (ho : leavesHandles o = true) :
    lockAct o = .plain ∧ o ≠ .clearRxThread ∧ ∀ p r p', handlesReact o p r p' → p' = p := by
  cases o with
  | mutexLock | mutexTrylock | mutexUnlock | clearRxThread | pthreadCreate | pthreadJoin => cases ho
  | getRxThread | eventfdWrite => exact ⟨rfl, by simp, fun _ _ _ h => h.2⟩
  | _ => exact ⟨rfl, by simp, fun _ _ _ h => h⟩

theorem Booked.bounded (h : Booked p) :
    ∃ values, p.out = some values ∧ values ≤ {p.stRxThread} := by
  refine ⟨_, h, ?_⟩
  split
  · exact Multiset.zero_le _
  · exact le_rfl

theorem Booked.check (h : Booked p) {o : Op} (ho : o ≠ .clearRxThread) :
    handlesCheck t o p :=
  ⟨h.bounded, fun hclear => absurd hclear ho⟩

/-- Nothing is left to join: the handle may be cleared. -/
theorem handlesCheck_joined (h : p.out = some 0) {o : Op} : handlesCheck t o p :=
  ⟨⟨0, h, Multiset.zero_le _⟩, fun _ _ => .inr h⟩

theorem Booked.joined (h : Booked p) (hnone : p.stRxThread = 0) : p.out = some 0 := by
  rw [h, if_pos hnone]

theorem booked_cleared (h : p.out = some 0) : Booked { p with stRxThread := 0 } := by
  rw [Booked, if_pos rfl]
  exact h

theorem handles_stable (I : Handles → Prop) : (handleLock b).Stable I :=
  Monitor.Exact.stable (fun _ _ hs => hs) I

theorem handles_harmlessIn {o : Op} (ho : leavesHandles o = true) :
    (handleLock b).HarmlessIn t o := by
  obtain ⟨hact, hclear, hreact⟩ := leavesHandles_plain ho
  exact Monitor.harmlessIn_of_eq hact (fun p hp => Booked.check hp hclear) hreact

theorem inside_handles_op {α : Type} {o : Op} {k : o.Res → Cmd α} (ho : leavesHandles o = true)
    (hk : ∀ r, (handleLock b).Inside t (k r)) : (handleLock b).Inside t (.op o k) :=
  .op (handles_harmlessIn ho) hk

theorem inside_handles_only {α : Type} {prog : Cmd α} {Q : α → Prop}
    (h : prog.Only (passiveOp · = true) Q) : (handleLock b).Inside t prog :=
  .only h fun _ ho => handles_harmlessIn (leavesHandles_of_passive ho)

/-- The recorded handle is read under the lock. -/
theorem triple_getRxThread {α : Type} {k : Nat → Cmd α} {J : α → Handles → Prop}
    (hk : ∀ h, (handleLock b).Triple t (fun p => Booked p ∧ p.stRxThread = h) (k h) J) :
    (handleLock b).Triple t Booked (.op .getRxThread k) J := by
  refine .op (handles_stable _) rfl (fun p hp => ⟨hp.check (by simp), ?_⟩) hk
  rintro r _ ⟨rfl, rfl⟩
  exact ⟨hp, rfl⟩

/-- A thread is created only while none is recorded. -/
theorem inside_antEnable_handles : (handleLock b).Inside t (antEnable b) := by
  have hout (iRet : Int) : (handleLock b).Inside t (antEnableOut b iRet) :=
    inside_handles_only (antEnableOut_only iRet)
  have hcheck : (handleLock b).Inside t (antEnableCheck b) :=
    inside_handles_only antEnableCheck_only
  have hchannels : (handleLock b).Inside t (enableChannels b b.channels) :=
    .only (enableChannels_only _) fun _ ho => handles_harmlessIn (leavesHandles_of_channel ho)
  simp only [antEnable, Prog.op_bind, Prog.ret_bind]
  refine inside_handles_op rfl fun _ => inside_handles_op rfl fun _ => .ite (fun _ => hout _)
    fun _ => inside_handles_op rfl fun _ => .bind hchannels fun _ => .ite (fun _ => hout _)
      fun _ => triple_getRxThread fun h => .ite (fun hnone => ?_)
        fun _ => hcheck.mono (fun p hp => hp.1) fun _ _ hp => hp
  refine .op (K := fun _ => Booked) (handles_stable _) rfl
    (fun p hp => ⟨hp.1.check (by simp), ?_⟩) fun _ =>
      Monitor.Triple.ite (fun _ => hout _) fun _ => hcheck
  rintro r _ (⟨h', rfl⟩ | ⟨-, rfl⟩)
  · rw [Booked, hp.1.joined (hp.2.trans hnone), if_neg (Nat.succ_ne_zero h')]
    rfl
  · exact hp.1

/-- The handle is cleared when the thread has been joined. -/
theorem inside_antDisable_handles : (handleLock b).Inside t (antDisable b) := by
  have hout (iRet : Int) :
      (handleLock b).Triple t (·.out = some 0) (antDisableOut iRet) fun _ => Booked := by
    simp only [antDisableOut, Prog.op_bind, Prog.ret_bind]
    refine .op (K := fun _ => Booked) (handles_stable _) rfl
      (fun p hp => ⟨handlesCheck_joined hp, ?_⟩) fun _ =>
        inside_handles_op rfl fun _ => Monitor.Inside.ret _
    rintro r _ ⟨-, rfl⟩
    exact booked_cleared hp
  have hclose : (handleLock b).Triple t (·.out = some 0)
      (disableChannels b b.channels >>= fun _ => antDisableOut 0) fun _ => Booked := by
    refine .bind (Monitor.Triple.only (handles_stable _) (disableChannels_only _) fun o ho => ?_)
      fun _ => (hout 0).mono (fun p hp => hp.2) fun _ _ hp => hp
    obtain ⟨hact, -, hreact⟩ := leavesHandles_plain (leavesHandles_of_channel ho)
    refine ⟨hact, fun p hp => ⟨handlesCheck_joined hp, fun r p' hr => ?_⟩⟩
    rw [hreact p r p' hr]
    exact hp
  simp only [antDisable, Prog.op_bind, Prog.ret_bind]
  refine inside_handles_op rfl fun _ => inside_handles_op rfl fun _ =>
    triple_getRxThread fun h => .ite (fun hthread => ?_) fun hnone =>
      hclose.mono (fun p hp => hp.1.joined (hp.2.trans (not_not.mp hnone))) fun _ _ hp => hp
  refine .op (K := fun r p => 0 ≤ r ∧ Booked p ∧ p.stRxThread = h) (handles_stable _) rfl
    (fun p hp => ⟨hp.1.check (by simp), ?_⟩) fun written => .ite (fun hneg => ?_) fun _ => ?_
  · rintro r _ ⟨hwritten, rfl⟩
    exact ⟨hwritten, hp⟩
  · exact (hout _).mono (fun p hp => absurd hp.1 (Int.not_le.mpr hneg)) fun _ _ hp => hp
  refine .op (K := fun r p => Booked p ∧ p.stRxThread = r ∧ r ≠ 0) (handles_stable _) rfl
    (fun p hp => ⟨hp.2.1.check (by simp), ?_⟩) fun j =>
      .op (K := fun _ p => p.out = some 0) (handles_stable _) rfl
        (fun p hp => ⟨hp.1.check (by simp), ?_⟩) fun joined =>
          .ite (fun _ => hout _) fun _ => hclose
  · rintro r _ ⟨rfl, rfl⟩
    exact ⟨hp.2.1, rfl, hp.2.2.symm ▸ hthread⟩
  · rintro r _ rfl
    obtain ⟨hp, rfl, hne⟩ := hp
    rw [hp, if_neg hne, Option.bind_some, Ledger.enter, if_pos (Multiset.mem_singleton_self _),
      Multiset.erase_singleton]

theorem handles_upheld : Upheld (handleLock b) where
  owner_eq := rfl
  lockAct_eq := rfl
  lockAnswer_eq := rfl
  role_eq := rfl
  outer o ho := by
    have hleaves : leavesHandles o = true := ho.elim leavesHandles_of_passive fun hkeep => by
      cases o <;> first | rfl | cases hkeep
    obtain ⟨hact, -, hreact⟩ := leavesHandles_plain hleaves
    exact ⟨hact, hreact⟩
  inner _ _ ho := handles_harmlessIn (leavesHandles_of_passive ho)
  unlock _ _ hp := Booked.check hp (by simp)
  enable _ := inside_antEnable_handles
  disable _ := inside_antDisable_handles
  stop h _ hprog := by
    have hclear : (handleLock b).HarmlessIn (.rx h) .clearRxThread := by
      refine ⟨rfl, fun p hp => ⟨⟨Booked.bounded hp, fun _ happ => ?_⟩, ?_⟩⟩
      · cases happ
      · rintro r _ ⟨hnone | hjoined, rfl⟩
        · exact booked_cleared (Booked.joined hp hnone)
        · exact booked_cleared hjoined
    exact inside_stop hclear (fun _ ho => handles_harmlessIn (leavesHandles_of_passive ho))
      inside_antDisable_handles hprog

end recorded

section keepAlive

theorem Shared.keepAlive_log (s : Shared) {e : Event} (h : e.keepAliveHandle? = none) :
    (s.log e).keepAliveHandles = s.keepAliveHandles := by
  simp [keepAliveHandles, log, h]

theorem Shared.keepAlive_entry (s : Shared) {e : Event} {entry : Ledger.Entry Nat}
    (h : e.keepAliveHandle? = some entry) :
    Ledger.out (s.log e).keepAliveHandles =
      (Ledger.out s.keepAliveHandles).bind (Ledger.enter · entry) := by
  simp [keepAliveHandles, log, h]

/-- Everything else leaves the keepalive threads alone. -/
theorem keepAliveHandles_effect (b : Build) (t : Tid) (env : Env) {o : Op} (s : Shared)
    (ho : keepAliveOp o = false) :
    (effect b t env o s).2.keepAliveHandles = s.keepAliveHandles := by
  cases o with
  | keepAliveCreate | pthreadDetach => cases ho
  | mutexTrylock | openDevice | eventfdWrite | pthreadCreate =>
      simp only [effect]
      split <;> first | exact Shared.keepAlive_log _ rfl | rfl
  | _ => first | rfl | exact Shared.keepAlive_log _ rfl

/-- The receive thread carries the handle of a keepalive thread from its
creation to the detach behind it. -/
def keepAliveCarrier (b : Build) : Carrier (machine b) Nat where
  takes
    | .keepAliveCreate, thread => some thread
    | _, _ => none
  gives
    | .pthreadDetach thread => some thread
    | _ => none
  book s := Ledger.out s.keepAliveHandles
  allow _ env o _ := o = .keepAliveCreate → env.keepAliveCreate = 0
  book_gives {t env o s a} _ hgives := by
    cases o <;> cases hgives
    exact ⟨rfl, Shared.keepAlive_entry s rfl⟩
  book_takes {t env o s a} hallow htakes := by
    cases o <;> simp only [reduceCtorEq] at htakes
    have hok := hallow rfl
    simp only [machine, effect, hok, if_true] at htakes ⊢
    cases htakes
    exact Shared.keepAlive_entry s rfl
  book_kept {t env o s} _ hgives htakes := by
    refine congrArg Ledger.out (keepAliveHandles_effect b t env s ?_)
    cases o with
    | keepAliveCreate => exact absurd htakes (Option.some_ne_none _)
    | pthreadDetach => cases hgives
    | _ => rfl

section hands
variable {b : Build}

theorem hands_passive {α : Type} {prog : Cmd α} {Q : α → Prop}
    (h : prog.Only (passiveOp · = true) Q) : (keepAliveCarrier b).Hands none prog :=
  Carrier.hands_only h fun o ho => by
    have hkeep := keepAlive_of_passive ho
    cases o with
    | keepAliveCreate | pthreadDetach => cases hkeep
    | _ => exact ⟨rfl, fun _ => rfl⟩

theorem hands_channel {α : Type} {prog : Cmd α} {Q : α → Prop}
    (h : prog.Only (channelOp · = true) Q) : (keepAliveCarrier b).Hands none prog :=
  Carrier.hands_only h fun o ho => by
    cases o with
    | keepAliveCreate | pthreadDetach => cases ho
    | _ => exact ⟨rfl, fun _ => rfl⟩

theorem hands_antEnable : (keepAliveCarrier b).Hands none (antEnable b) := by
  have hout (iRet : Int) : (keepAliveCarrier b).Hands none (antEnableOut b iRet) :=
    hands_passive (antEnableOut_only iRet)
  have hcheck : (keepAliveCarrier b).Hands none (antEnableCheck b) :=
    hands_passive antEnableCheck_only
  simp only [antEnable, Prog.op_bind, Prog.ret_bind]
  exact ⟨rfl, fun _ => ⟨rfl, fun _ => Carrier.hands_ite (fun _ => hout _) fun _ => ⟨rfl, fun _ =>
    (hands_channel (enableChannels_only _)).bind fun _ => Carrier.hands_ite (fun _ => hout _)
      fun _ => ⟨rfl, fun _ => Carrier.hands_ite
        (fun _ => ⟨rfl, fun _ => Carrier.hands_ite (fun _ => hout _) fun _ => hcheck⟩)
        fun _ => hcheck⟩⟩⟩⟩

theorem hands_antDisable : (keepAliveCarrier b).Hands none (antDisable b) := by
  have hout (iRet : Int) : (keepAliveCarrier b).Hands none (antDisableOut iRet) :=
    ⟨rfl, fun _ => ⟨rfl, fun _ => rfl⟩⟩
  have hclose : (keepAliveCarrier b).Hands none
      (disableChannels b b.channels >>= fun _ => antDisableOut 0) :=
    (hands_channel (disableChannels_only _)).bind fun _ => hout 0
  simp only [antDisable, Prog.op_bind, Prog.ret_bind]
  exact ⟨rfl, fun _ => ⟨rfl, fun _ => ⟨rfl, fun _ => Carrier.hands_ite
    (fun _ => ⟨rfl, fun _ => Carrier.hands_ite (fun _ => hout _) fun _ => ⟨rfl, fun _ => ⟨rfl,
      fun _ => Carrier.hands_ite (fun _ => hout _) fun _ => hclose⟩⟩⟩)
    fun _ => hclose⟩⟩⟩

theorem hands_report (status : RadioStatus) :
    (keepAliveCarrier b).Hands none (reportStatus (return status)) :=
  hands_passive (report_only status)

theorem hands_reportEnabled :
    (keepAliveCarrier b).Hands none (reportStatus (antRadioEnabledStatus b)) :=
  hands_passive (reportStatus_only antRadioEnabledStatus_only)

theorem hands_enableRadioLocked : (keepAliveCarrier b).Hands none (enableRadioLocked b) := by
  have hbody : (keepAliveCarrier b).Hands none (enableRadioBody b) :=
    (hands_report _).bind fun _ => hands_antEnable.bind fun _ => Carrier.hands_ite
      (fun _ => hands_antDisable.bind fun _ => hands_reportEnabled.bind fun _ => rfl)
      fun _ => (hands_report _).bind fun _ => rfl
  unfold enableRadioLocked
  split
  · exact (hands_passive antRadioEnabledStatus_only).bind fun _ =>
      Carrier.hands_ite (fun _ => hbody) fun _ => rfl
  · exact hbody

theorem hands_disableRadioLocked : (keepAliveCarrier b).Hands none (disableRadioLocked b) := by
  have hbody : (keepAliveCarrier b).Hands none (disableRadioBody b) :=
    (hands_report _).bind fun _ => hands_antDisable.bind fun _ => hands_reportEnabled
  unfold disableRadioLocked
  split
  · exact (hands_passive antRadioEnabledStatus_only).bind fun _ =>
      Carrier.hands_ite (fun _ => hbody) fun _ => rfl
  · exact hbody

theorem hands_hardResetLocked : (keepAliveCarrier b).Hands none (hardResetLocked b) := by
  simp only [hardResetLocked, Prog.op_bind, Prog.ret_bind]
  exact ⟨rfl, fun _ => (hands_report _).bind fun _ => ⟨rfl, fun _ => hands_antDisable.bind fun _ =>
    hands_antEnable.bind fun _ => Carrier.hands_ite
      (fun _ => (hands_report _).bind fun _ => ⟨rfl, fun _ => rfl⟩)
      fun _ => (hands_report _).bind fun _ => ⟨rfl, fun _ => rfl⟩⟩⟩

theorem hands_doReset : (keepAliveCarrier b).Hands none (doReset b) := by
  have hlocked (iMutexLockResult : Int) :
      (keepAliveCarrier b).Hands none (doResetLocked b iMutexLockResult) :=
    Carrier.hands_ite (fun _ => ⟨rfl, fun _ => ⟨rfl, fun _ => rfl⟩⟩) fun _ => ⟨rfl, fun _ =>
      hands_antDisable.bind fun _ => hands_antEnable.bind fun _ => ⟨rfl, fun _ =>
        (hands_report _).bind fun _ => ⟨rfl, fun _ => rfl⟩⟩⟩
  simp only [doReset, Prog.op_bind, Prog.ret_bind]
  exact ⟨rfl, fun _ => ⟨rfl, fun _ => (hands_report _).bind fun _ => ⟨rfl, fun _ => ⟨rfl, fun _ =>
    (hlocked _).bind fun _ => ⟨rfl, fun _ => rfl⟩⟩⟩⟩⟩

theorem hands_rxClose : (keepAliveCarrier b).Hands none (rxClose b) := by
  have hcrash (iMutexLockResult : Int) :
      (keepAliveCarrier b).Hands none (crashCleanUp b iMutexLockResult) :=
    Carrier.hands_ite (fun _ => ⟨rfl, fun _ => (hands_report _).bind fun _ =>
      hands_antDisable.bind fun _ => hands_reportEnabled.bind fun _ => ⟨rfl, fun _ => rfl⟩⟩)
      fun _ => rfl
  simp only [rxClose, Prog.op_bind, Prog.ret_bind]
  exact ⟨rfl, fun _ => (hcrash _).bind fun _ => ⟨rfl, fun _ => rfl⟩⟩

/-- The detach is the next operation after the creation. -/
theorem hands_rxLoop : (keepAliveCarrier b).Hands none (rxLoop b) := by
  simp only [rxLoop, Prog.op_bind, Prog.ret_bind]
  exact ⟨rfl, fun _ => Carrier.hands_ite (fun _ => rfl) fun _ => ⟨rfl, fun _ => ⟨rfl, fun result =>
    Carrier.hands_ite (fun _ => ⟨rfl, fun _ => Carrier.hands_ite
      (fun _ => ⟨rfl, fun _ => ⟨rfl, fun thread => ⟨rfl, fun _ => rfl⟩⟩⟩) fun _ => rfl⟩)
      fun _ => Carrier.hands_ite (fun _ => rfl) fun _ =>
        (hands_passive (handleChannels_only _ _)).bind fun _ => Carrier.hands_ite (fun _ => rfl)
          fun _ => (hands_passive (handleShutdown_only _)).bind fun _ => rfl⟩⟩⟩

theorem keepAlive_checked : (keepAliveCarrier b).Checked := by
  intro l
  cases l with
  | enableRadio =>
      refine Carrier.Hands.bind ⟨rfl, fun _ => ⟨rfl, fun _ => Carrier.hands_ite (fun _ => ?_)
        fun _ => hands_enableRadioLocked.bind fun _ => ?_⟩⟩ fun _ => rfl
      · exact ⟨rfl, fun _ => rfl⟩
      · exact ⟨rfl, fun _ => ⟨rfl, fun _ => rfl⟩⟩
  | disableRadio =>
      refine Carrier.Hands.bind ⟨rfl, fun _ => ⟨rfl, fun _ => Carrier.hands_ite (fun _ => ?_)
        fun _ => hands_disableRadioLocked.bind fun _ => ?_⟩⟩ fun _ => rfl
      · exact ⟨rfl, fun _ => rfl⟩
      · exact ⟨rfl, fun _ => ⟨rfl, fun _ => rfl⟩⟩
  | hardReset =>
      refine Carrier.Hands.bind ⟨rfl, fun _ => Carrier.hands_ite (fun _ => ⟨rfl, fun _ => rfl⟩)
        fun _ => ⟨rfl, fun _ => Carrier.hands_ite (fun _ => ?_)
          fun _ => hands_hardResetLocked.bind fun _ => ?_⟩⟩ fun _ => rfl
      · exact ⟨rfl, fun _ => rfl⟩
      · exact ⟨rfl, fun _ => ⟨rfl, fun _ => rfl⟩⟩
  | rxStart => exact hands_passive rxStart_only
  | rxLoop => exact hands_rxLoop
  | rxClose => exact hands_rxClose
  | doReset => exact hands_doReset.bind fun _ => ⟨rfl, fun _ => rfl⟩

end hands
end keepAlive

section runs
variable {b : Build} {stateCallback rxCallback : Bool} {c d : ThreadConfig}

/-- The shutdown signal is written, a receive thread does not clear its own
handle, and the creation of a keepalive thread succeeds. -/
def keepsHandle (t : Tid) (env : Env) (s : Shared) : Op → Bool
  | .eventfdWrite => env.eventfdWrite
  | .clearRxThread => t.isApp || decide (s.stRxThread = 0)
  | .keepAliveCreate => decide (env.keepAliveCreate = 0)
  | _ => true

/-- A step in which no handle is lost or made up. -/
def handleKept (c : ThreadConfig) : Move Label Tid Env → Bool
  | .start _ _ => true
  | .act t env => ((c.pool t).bind Thread.head?).all (keepsHandle t env c.shared)

theorem handleKept_act {t : Tid} {env : Env} {o : Op} (h : handleKept c (.act t env) = true)
    (ho : (c.pool t).bind Thread.head? = some o) : keepsHandle t env c.shared o = true := by
  rw [handleKept, ho] at h
  exact h

/-- The application clears the handle inside the lock, behind the join. -/
theorem handleLock_allowed (hholds : (handleLock b).Holds c) {mv : Move Label Tid Env}
    (h : handleKept c mv = true) : (handleLock b).Allowed c mv := by
  cases mv with
  | start t l => trivial
  | act t env =>
      intro o ho
      have hkept := handleKept_act h ho
      cases o with
      | eventfdWrite => exact hkept
      | clearRxThread =>
          obtain happ | hnone := (Bool.or_eq_true _ _).mp hkept
          · obtain ⟨th, hth, hhead⟩ := Option.bind_eq_some_iff.mp ho
            obtain ⟨k, hk⟩ := Thread.code_of_head hhead
            obtain ⟨-, hcheck⟩ := hholds.inside (l := th.label) (k := k) (by rw [hth, ← hk]) rfl
              ⟨1, some 0⟩ ⟨0, some 0⟩ () ⟨.inr rfl, rfl⟩ (by simp [handleLock])
            exact hcheck.2 rfl happ
          · exact .inl (of_decide_eq_true hnone)
      | _ => trivial

theorem keepAlive_allowed {mv : Move Label Tid Env} (h : handleKept c mv = true) :
    (keepAliveCarrier b).Allowed c mv := by
  cases mv with
  | start t l => trivial
  | act t env =>
      rintro o ho rfl
      exact of_decide_eq_true (handleKept_act h ho)

/-- In every state of such a run, the receive thread that has not been joined is
the recorded one, if there is one. -/
theorem rxHandles_out
    (h : (machine b).Path (handleKept · · = true) (initConfig stateCallback rxCallback) c) :
    ∃ values, Ledger.out c.shared.rxHandles = some values ∧ values ≤ {c.shared.stRxThread} := by
  have hholds : (handleLock b).Holds c :=
    h.invariant (fun _ _ _ hx hC hs => Monitor.holds_step handles_upheld.checked hx
      (handleLock_allowed hx hC) hs) (handles_upheld.start rfl)
  cases howner : (handleLock b).owner c.shared with
  | none => exact Booked.bounded (hholds.free howner)
  | some t =>
      obtain ⟨_, _, _, -, hcheck⟩ := hholds.checked howner
      exact hcheck.1

/-- The keepalive threads that have not been detached are those that a thread
is about to detach. -/
theorem keepAliveHandles_out
    (h : (machine b).Path (handleKept · · = true) (initConfig stateCallback rxCallback) c) :
    ∃ hands : Multiset (Tid × Nat), hands.Nodup ∧
      (∀ t thread, (t, thread) ∈ hands →
        (c.pool t).bind Thread.head? = some (.pthreadDetach thread)) ∧
      Ledger.out c.shared.keepAliveHandles = some (hands.map Prod.snd) := by
  obtain ⟨hands, hnodup, hmem, hbook⟩ := (Carrier.holds_path keepAlive_checked
    (fun _ _ => keepAlive_allowed) (fun _ => rfl) rfl h).book
  refine ⟨hands, hnodup, fun t thread hin => ?_, hbook⟩
  obtain ⟨o, ho, hgives⟩ := Option.bind_eq_some_iff.mp ((hmem t thread).mp hin)
  cases o <;> cases hgives
  exact ho

/-- Thread handles are accounted for: join and detach are applied only to
handles that were created, once for each creation; a handle that is left is the
recorded one, or a thread is about to detach it; and a receive thread that has
terminated has been joined or is recorded. -/
structure HandlesAccounted (c : ThreadConfig) : Prop where
  out : ∃ (recorded : Multiset Nat) (hands : Multiset (Tid × Nat)),
    Ledger.out c.shared.handles = some (recorded + hands.map Prod.snd) ∧
      recorded ≤ {c.shared.stRxThread} ∧ hands.Nodup ∧
        ∀ t thread, (t, thread) ∈ hands →
          (c.pool t).bind Thread.head? = some (.pthreadDetach thread)
  joined : ∀ thread th, c.pool (.rx thread) = some th → th.terminated = true →
    .joined thread ∈ c.shared.events ∨ .detached thread ∈ c.shared.events ∨
      c.shared.stRxThread = thread

/-- Every run in which no handle is lost or made up accounts for all of them. -/
theorem handles_accounted
    (h : (machine b).Path (handleKept · · = true) (initConfig stateCallback rxCallback) c) :
    HandlesAccounted c := by
  obtain ⟨values, hrx, hle⟩ := rxHandles_out h
  obtain ⟨hands, hnodup, hmem, hkeep⟩ := keepAliveHandles_out h
  refine ⟨⟨values, hands, c.shared.out_handles hrx hkeep, hle, hnodup, hmem⟩, ?_⟩
  intro thread th hth _
  have hcreated : .acquire thread ∈ c.shared.rxHandles :=
    List.mem_filterMap.mpr ⟨_, created_of_pool h.reachable hth, rfl⟩
  have hcount := Ledger.count_acquire hrx thread
  have hpos := List.count_pos_iff.mpr hcreated
  by_cases hjoined : .release thread ∈ c.shared.rxHandles
  · obtain ⟨e, he, hentry⟩ := List.mem_filterMap.mp hjoined
    cases e <;> cases hentry
    exact .inl he
  · rw [List.count_eq_zero.mpr hjoined, Nat.zero_add] at hcount
    have hin : thread ∈ values := Multiset.count_pos.mp (by omega)
    exact .inr (.inr (Multiset.mem_singleton.mp (Multiset.mem_of_le hle hin)).symm)

/-- An enable, a keepalive thread, and a disable that joins the receive thread. -/
theorem handles_accounted_disabled :
    ∃ c : ThreadConfig, .joined 1 ∈ c.shared.events ∧ .detached 5 ∈ c.shared.events ∧
      HandlesAccounted c := by
  obtain ⟨c, hpath, hc⟩ := Machine.exec_any (machine .smd) handleKept
    (enabling ++ List.replicate 11 (.act (.rx 1) { handle := 4 }) ++
      .start (.app 1) .disableRadio :: List.replicate 14 (.act (.app 1) {}) ++
      List.replicate 3 (.act (.rx 1) {}) ++ List.replicate 18 (.act (.app 1) {}))
    (initConfig true true)
    (fun c => decide (.joined 1 ∈ c.shared.events) && decide (.detached 5 ∈ c.shared.events))
    (by decide)
  simp only [Bool.and_eq_true, decide_eq_true_eq] at hc
  exact ⟨c, hc.1, hc.2, handles_accounted hpath⟩

/-- A poll error: the thread clears its own handle, resets the radio and ends,
and nobody can join it any more. -/
theorem handles_reset_lost :
    ¬ ∀ (b : Build) (stateCallback rxCallback : Bool) (c : ThreadConfig),
      (machine b).Reachable (initConfig stateCallback rxCallback) c → HandlesAccounted c := by
  intro hall
  obtain ⟨c, hpath, hc⟩ := Machine.exec_any (machine .smd) (fun _ _ => true)
    (enabling ++ List.replicate 47
      (.act (.rx 1) { handle := 1, poll := ⟨-1, fun _ => 0, 0⟩ }))
    (initConfig true true)
    (fun c => (c.pool (.rx 1)).any Thread.terminated && decide (c.shared.stRxThread = 2) &&
      decide (.joined 1 ∉ c.shared.events) && decide (.detached 1 ∉ c.shared.events)) (by decide)
  simp only [Bool.and_eq_true, decide_eq_true_eq, Option.any_eq_true] at hc
  obtain ⟨⟨⟨⟨th, hth, hend⟩, hrecorded⟩, hjoined⟩, hdetached⟩ := hc
  obtain hin | hin | hin := (hall .smd true true c hpath.reachable).joined 1 th hth hend
  · exact hjoined hin
  · exact hdetached hin
  · cases hrecorded.symm.trans hin

end runs
end AntHal
