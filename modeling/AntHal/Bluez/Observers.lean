import AntHal.Concurrency.Cooperative
import AntHal.Bluez.LockInvariant

/-!
Do the observers of the status end up with the true one?

Not every store of `radio_status` is reported, and the clean-up of a crash
reports DISABLING without storing it. In a sequential run the last report agrees
with the status whenever everybody rests, unless the clean-up finds the status
as it already was, or a call of `ant_enable_radio` gives up behind its silent
ENABLING.
-/

namespace AntHal.Bluez

open Concurrency

section property

def reportedStatus : Event → Option RadioStatus
  | .stateCallback status => some status
  | _ => none

def lastReported (events : List Event) : Option RadioStatus :=
  (events.filterMap reportedStatus).getLast?

/-- What the observers have been told last is the status. -/
def Synced (s : Shared) : Prop :=
  ∀ status, lastReported s.events = some status → status = s.radioStatus

def Label.sends : Label → Bool
  | .txMessage _ => true
  | _ => false

def Label.guardsLoop : Label → Bool
  | .rxLoop _ => true
  | _ => false

/-- A thread rests where it waits: for enableLock, for the receive thread, for a
socket, a sender also for txLock. The receive thread rests before it checks the
status, and before its clean-up. -/
def rests (l : Label) : Op → Bool
  | .mutexLock .enableLock | .mutexTrylock | .pthreadJoin _ | .poll _ | .read _ => true
  | .mutexLock .txLock => l.sends
  | .funcStart _ => l.guardsLoop
  | _ => false

structure Observed where
  status : RadioStatus
  last : Option RadioStatus
  callback : Bool
  thread : Nat

def observe (s : Shared) : Observed where
  status := s.radioStatus
  last := lastReported s.events
  callback := s.pfStateCallback
  thread := s.thread

/-- A callback is set, and it has been told the status, if anything. -/
def Observed.Agrees (v : Observed) : Prop :=
  v.callback = true ∧ ∀ status, v.last = some status → status = v.status

/-- The clean-up of a crash finds a status that is not the stored one, and
`ant_enable_radio` gets txLock when observers know of another status than ENABLING. -/
def allows : Label → Op → Env → Observed → Prop
  | .rxClose _, .antIsEnabled, env, v => chipStatus env.antIsEnabled ≠ v.status
  | .enableRadio, .mutexLock .txLock, env, v =>
    env.mutex ≠ 0 → v.status = .enabling → v.last = none
  | _, _, _, _ => True

/-- What an operation answers, and does to what matters to the observers. -/
def observes (l : Label) : (o : Op) → Observed → o.Res → Observed → Prop
  | .getRadioStatus, v, r, v' | .returnRadioStatus, v, r, v' => r = v.status ∧ v' = v
  | .setRadioStatus status, v, _, v' => v' = { v with status := status }
  | .getStateCallback, v, r, v' => r = v.callback ∧ v' = v
  | .stateCallback status, v, _, v' => v' = { v with last := some status }
  | .antIsEnabled, v, r, v' =>
    (∀ rxSocket, l = .rxClose rxSocket → chipStatus r ≠ v.status) ∧ v' = v
  | .mutexLock .txLock, v, r, v' =>
    (l = .enableRadio → r ≠ 0 → v.status = .enabling → v.last = none) ∧ v' = v
  | .getThread, v, r, v' => r = v.thread ∧ v' = v
  | .clearThread, v, _, v' => v' = { v with thread := 0 }
  | .pthreadCreate, v, _, v' => ∃ h, v' = { v with thread := h }
  | _, v, _, v' => v' = v

end property

theorem observe_log {s : Shared} {e : Event} (h : reportedStatus e = none) :
    observe (s.log e) = observe s := by
  simp [observe, lastReported, Shared.log, h]

theorem observe_stateCallback (s : Shared) (status : RadioStatus) :
    observe (s.log (.stateCallback status)) = { observe s with last := some status } := by
  simp [observe, lastReported, Shared.log, reportedStatus]

theorem observes_effect {l : Label} {o : Op} {env : Env} (t : Tid) (s : Shared)
    (h : allows l o env (observe s)) :
    observes l o (observe s) (effect t env o s).1 (observe (effect t env o s).2) := by
  cases o with
  | mutexLock lock =>
      cases lock with
      | enableLock =>
          simp only [observes, effect]
          split <;> rfl
      | txLock =>
          simp only [observes, effect]
          split
          · exact ⟨fun _ hr => absurd rfl hr, rfl⟩
          · refine ⟨?_, rfl⟩
            rintro rfl
            exact h
  | antIsEnabled =>
      refine ⟨?_, rfl⟩
      rintro rxSocket rfl
      exact h
  | mutexTrylock =>
      simp only [observes, effect]
      repeat' split
      all_goals rfl
  | pthreadCreate =>
      simp only [observes, effect]
      split
      · exact ⟨_, observe_log rfl⟩
      · exact ⟨s.thread, rfl⟩
  | read =>
      simp only [observes, effect]
      split <;> rfl
  | writev =>
      simp only [observes, effect]
      split
      · exact observe_log rfl
      · rfl
  | stateCallback status => exact observe_stateCallback s status
  | funcStart | funcEnd | rxCallback | antEnable | antDisable | pthreadJoin =>
      exact observe_log rfl
  | unlockReturn => exact observe_log rfl
  | getRadioStatus | returnRadioStatus | getStateCallback | getThread => exact ⟨rfl, rfl⟩
  | _ => rfl

/-- Reporting the status, as a check of the programs by themselves. -/
def reporting (b : Build) : Cooperation (machine b) Observed where
  view := observe
  inv := Observed.Agrees
  rests := rests
  allow := allows
  react := observes
  react_spec t _ s _ _ h := observes_effect t s h

section rules
variable {b : Build} {l : Label} {v : Observed} {α β : Type} {Q : α → Observed → Prop}

/-- The program, from what the observers know, ends with `Q`. -/
abbrev Reports (b : Build) (l : Label) (Q : α → Observed → Prop) (v : Observed) (p : Cmd α) :
    Prop :=
  (reporting b).Safe l Q v p

theorem Observed.Agrees.keep (h : v.Agrees) (thread : Nat) :
    Observed.Agrees { v with thread := thread } := h

theorem agrees_reported {status : RadioStatus} {thread : Nat} :
    Observed.Agrees ⟨status, some status, true, thread⟩ :=
  ⟨rfl, fun _ h => (Option.some.inj h).symm⟩

theorem reports_same {o : Op} {k : o.Res → Cmd α} (hrest : rests l o = false)
    (hsame : ∀ r v', observes l o v r v' → v' = v) (hk : ∀ r, Reports b l Q v (k r)) :
    Reports b l Q v (.op o k) := by
  refine (Cooperation.safe_op hrest).mpr fun r v' hr => ?_
  rw [hsame r v' hr]
  exact hk r

theorem reports_getRadioStatus {k : RadioStatus → Cmd α} (hk : Reports b l Q v (k v.status)) :
    Reports b l Q v (.op .getRadioStatus k) := by
  refine (Cooperation.safe_op rfl).mpr fun r v' hr => ?_
  obtain ⟨rfl, rfl⟩ := hr
  exact hk

theorem reports_returnRadioStatus {k : RadioStatus → Cmd α}
    (hk : Reports b l Q v (k v.status)) : Reports b l Q v (.op .returnRadioStatus k) := by
  refine (Cooperation.safe_op rfl).mpr fun r v' hr => ?_
  obtain ⟨rfl, rfl⟩ := hr
  exact hk

theorem reports_setRadioStatus {status : RadioStatus} {k : Unit → Cmd α}
    (hk : Reports b l Q { v with status := status } (k ())) :
    Reports b l Q v (.op (.setRadioStatus status) k) := by
  refine (Cooperation.safe_op rfl).mpr fun r v' hr => ?_
  rw [show v' = _ from hr]
  exact hk

theorem reports_getThread {k : Nat → Cmd α} (hk : Reports b l Q v (k v.thread)) :
    Reports b l Q v (.op .getThread k) := by
  refine (Cooperation.safe_op rfl).mpr fun r v' hr => ?_
  obtain ⟨rfl, rfl⟩ := hr
  exact hk

/-- Thread `b` waits, and goes on with whatever the others have left. -/
theorem reports_rest {o : Op} {k : o.Res → Cmd α} (hrest : rests l o = true)
    (hsame : ∀ v r v', observes l o v r v' → v' = v) (hv : v.Agrees)
    (hk : ∀ v', v'.Agrees → ∀ r, Reports b l Q v' (k r)) : Reports b l Q v (.op o k) := by
  refine (Cooperation.safe_rest hrest).mpr ⟨hv, fun v' hv' r v'' hr => ?_⟩
  rw [hsame v' r v'' hr]
  exact hk v' hv' r

theorem reports_transfers {P : α → Prop} {p : Cmd α} (h : p.Only Transfers P) (hv : v.Agrees) :
    Reports b l (fun a v' => P a ∧ v'.Agrees) v p := by
  refine Cooperation.safe_of_only h (fun o ho v r v' hv hr => ?_) hv
  have hsame : v' = v := by
    cases o with
    | mutexLock lock =>
        cases lock with
        | enableLock => cases ho
        | txLock => exact hr.2
    | _ => first | exact hr | cases ho
  rw [hsame]
  exact hv

end rules

section functions
variable {b : Build} {l : Label} {v : Observed}

theorem chipStatus_ne_enabling (enabled : Int) : chipStatus enabled ≠ .enabling := by
  unfold chipStatus
  split
  · nofun
  · split <;> nofun

theorem reportRadioStatus_reports {Q : Unit → Observed → Prop} (hcallback : v.callback = true)
    (hQ : Q () { v with last := some v.status }) : Reports b l Q v reportRadioStatus := by
  simp only [reportRadioStatus, Prog.op_bind, Prog.ret_bind]
  refine (Cooperation.safe_op rfl).mpr fun set v' hr => ?_
  obtain ⟨rfl, rfl⟩ := hr
  rw [if_pos hcallback]
  refine reports_getRadioStatus ((Cooperation.safe_op rfl).mpr fun _ v' hr => ?_)
  rw [show v' = _ from hr]
  exact hQ

/-- The chip's status is stored, and reported if it is not the stored one. So
the observers know it, if they knew the stored one or it is another one. -/
theorem refreshRadioStatus_reports (hcallback : v.callback = true)
    (hsame : ∀ enabled, (∀ rxSocket, l = .rxClose rxSocket → chipStatus enabled ≠ v.status) →
      chipStatus enabled = v.status → v.Agrees) :
    Reports b l (fun _ v' => v'.Agrees) v refreshRadioStatus := by
  simp only [refreshRadioStatus, Prog.op_bind, Prog.ret_bind]
  refine reports_getRadioStatus ((Cooperation.safe_op rfl).mpr fun enabled v' hr => ?_)
  obtain ⟨hcloses, rfl⟩ := hr
  refine reports_setRadioStatus (reports_getRadioStatus ?_)
  by_cases hchanged : v'.status = chipStatus enabled
  · have hagrees := hsame enabled hcloses hchanged.symm
    rw [if_neg (not_not.mpr hchanged)]
    refine ⟨hagrees.1, fun status hstatus => ?_⟩
    exact (hagrees.2 status hstatus).trans hchanged
  · rw [if_pos hchanged]
    refine reportRadioStatus_reports hcallback ?_
    rw [hcallback]
    exact agrees_reported

theorem joinThread_reports (hv : v.Agrees) :
    Reports b l (fun _ v' => v'.Agrees ∧ v'.thread = 0) v joinThread := by
  simp only [joinThread, Prog.op_bind, Prog.ret_bind, Prog.pure_eq]
  refine reports_getThread ?_
  split
  · refine reports_getThread (reports_rest rfl (fun _ _ _ h => h) hv fun v' hv' _ => ?_)
    refine (Cooperation.safe_op rfl).mpr fun _ v'' hr => ?_
    rw [show v'' = _ from hr]
    exact ⟨hv', rfl⟩
  · rename_i hthread
    exact ⟨hv, not_not.mp hthread⟩

theorem announce_reports {status : RadioStatus} (hcallback : v.callback = true) :
    Reports b l (fun _ v' => v'.Agrees ∧ v'.status = status ∧ v'.thread = v.thread) v
      (setRadioStatus status >>= fun _ => reportRadioStatus) := by
  refine reports_setRadioStatus (reportRadioStatus_reports hcallback ?_)
  rw [hcallback]
  exact ⟨agrees_reported, rfl, rfl⟩

variable (hb : b.useExternalPowerLibrary = true)
include hb

theorem withPowerLibrary_eq (p : Cmd Unit) : withPowerLibrary b p = p := if_pos hb

theorem getAndSetRadioStatus_reports (hl : l.guardsLoop = false) (hcallback : v.callback = true)
    (hsame : ∀ enabled, (∀ rxSocket, l = .rxClose rxSocket → chipStatus enabled ≠ v.status) →
      chipStatus enabled = v.status → v.Agrees) :
    Reports b l (fun status v' => v'.Agrees ∧ status = v'.status) v (getAndSetRadioStatus b) := by
  simp only [getAndSetRadioStatus, Prog.op_bind, Prog.ret_bind, withPowerLibrary_eq hb]
  refine reports_same hl (fun _ _ h => h) fun _ => ?_
  refine (refreshRadioStatus_reports hcallback hsame).bind fun _ v' hv' => ?_
  exact reports_returnRadioStatus ⟨hv', rfl⟩

theorem getAndSetRadioStatus_agrees (hv : v.Agrees) :
    Reports b l (fun status v' => v'.Agrees ∧ status = v'.status) v (getAndSetRadioStatus b) := by
  cases hl : l.guardsLoop with
  | false => exact getAndSetRadioStatus_reports hb hl hv.1 fun _ _ _ => hv
  | true =>
      simp only [getAndSetRadioStatus, Prog.op_bind, Prog.ret_bind, withPowerLibrary_eq hb]
      refine reports_rest hl (fun _ _ _ h => h) hv fun v' hv' _ => ?_
      refine (refreshRadioStatus_reports hv'.1 fun _ _ _ => hv').bind fun _ v' hv' => ?_
      exact reports_returnRadioStatus ⟨hv', rfl⟩

/-- What `ant_enable_radio` knows before it powers the chip on: a radio that is
not enabled has no receive thread. -/
def Observed.Powering (v : Observed) : Prop :=
  v.Agrees ∧ (v.status = .enabled ∨ v.status = .enabling ∧ v.thread = 0)

theorem beginEnabling_reports (hv : v.Agrees) :
    Reports b l (fun _ v' => v'.Powering) v (beginEnabling b v.status) := by
  unfold beginEnabling
  split
  · refine (joinThread_reports hv).bind fun _ v' hv' => ?_
    rw [withPowerLibrary_eq hb]
    refine Cooperation.Safe.mono (announce_reports hv'.1.1) fun _ v'' h => ?_
    exact ⟨h.1, .inr ⟨h.2.1, h.2.2.trans hv'.2⟩⟩
  · rename_i henabled
    exact ⟨hv, .inl (not_not.mp henabled)⟩

theorem enabledWithThread_reports (hv : v.Agrees) :
    Reports b l (fun _ v' => v'.Agrees) v (enabledWithThread b) := by
  simp only [enabledWithThread, hb, if_true, Prog.op_bind, Prog.ret_bind, Prog.pure_eq]
  refine reports_getRadioStatus ?_
  split
  · exact Cooperation.Safe.mono (announce_reports hv.1) fun _ _ h => h.1
  · exact hv

theorem connectThread_reports (result : Int) (hv : v.Powering) :
    Reports b l (fun _ v' => v'.Agrees) v (connectThread b result) := by
  obtain ⟨hagrees, hstatus⟩ := hv
  simp only [connectThread, Prog.op_bind, Prog.ret_bind, Prog.pure_eq]
  split
  · refine reports_getThread ?_
    split
    · rename_i hthread
      -- The sanity assign of the source changes nothing: the radio is enabled.
      have henabled : v.status = .enabled := hstatus.resolve_right fun h => hthread h.2
      refine reports_setRadioStatus ?_
      rw [← henabled]
      exact hagrees
    · refine (Cooperation.safe_op rfl).mpr fun ret v' hr => ?_
      obtain ⟨h, rfl⟩ := hr
      split
      · exact hagrees
      · exact (enabledWithThread_reports hb (hagrees.keep h)).bind fun _ _ h => h
  · exact hagrees

theorem enableCleanUp_reports (ret : AntStatus) (hv : v.Agrees) :
    Reports b l (fun _ v' => v'.Agrees) v (enableCleanUp b ret) := by
  unfold enableCleanUp
  split
  · rw [withPowerLibrary_eq hb]
    refine reports_same rfl (fun _ _ h => h) fun _ => ?_
    exact (getAndSetRadioStatus_agrees hb hv).bind fun _ _ h => h.1
  · exact hv

/-- Behind `markEnabling` the observers know the status, or it is a silent ENABLING. -/
def Observed.Marked (v : Observed) : Prop :=
  v.callback = true ∧ (v.Agrees ∨ v.status = .enabling)

omit hb in
theorem markEnabling_reports (hv : v.Agrees) :
    Reports b l (fun _ v' => v'.Marked) v markEnabling := by
  simp only [markEnabling, Prog.op_bind, Prog.ret_bind, Prog.pure_eq]
  refine reports_getRadioStatus ?_
  split
  · exact reports_setRadioStatus ⟨hv.1, .inr rfl⟩
  · exact ⟨hv.1, .inl hv⟩

theorem enableRadioLocked_reports (hv : v.Marked) :
    Reports b .enableRadio (fun _ v' => v'.Agrees) v (enableRadioLocked b) := by
  have hrefresh := getAndSetRadioStatus_reports (l := .enableRadio) hb rfl hv.1
    fun enabled _ hsame => hv.2.resolve_right fun henabling =>
      chipStatus_ne_enabling enabled (hsame.trans henabling)
  refine hrefresh.bind fun status v₁ ⟨hv₁, hstatus⟩ => ?_
  rw [hstatus]
  refine (beginEnabling_reports hb hv₁).bind fun _ v₂ hv₂ => ?_
  refine Cooperation.Safe.bind (P := fun _ v' => v'.Powering) ?_ fun result v₃ hv₃ => ?_
  · rw [powerOn, if_pos hb]
    exact reports_same rfl (fun _ _ h => h) fun _ => hv₂
  · refine (connectThread_reports hb result hv₃).bind fun ret v₄ hv₄ => ?_
    exact (enableCleanUp_reports hb ret hv₄).bind fun _ _ h => h

theorem disableRadioLocked_reports (hv : v.Agrees) :
    Reports b .disableRadio (fun _ v' => v'.Agrees) v (disableRadioLocked b) := by
  refine Cooperation.Safe.bind (P := fun _ v' => v'.Agrees) ?_ fun _ v₁ hv₁ => ?_
  · rw [beginDisabling, if_pos hb]
    refine (getAndSetRadioStatus_agrees hb hv).bind fun status v₁ hv₁ => ?_
    refine Cooperation.Safe.bind (P := fun _ v' => v'.Agrees) ?_ fun _ v₂ hv₂ => ?_
    · unfold announceDisabling
      split
      · exact (announce_reports hv₁.1.1).mono fun _ _ h => h.1
      · exact hv₁.1
    · exact reports_same rfl (fun _ _ h => h) fun _ => hv₂
  · refine (joinThread_reports hv₁).bind fun _ v₂ hv₂ => ?_
    exact (getAndSetRadioStatus_agrees hb hv₂.1).bind fun _ _ h => h.1

omit hb in
/-- A call with enableLock: the observers know the status if txLock is refused,
and behind what is done with it. -/
theorem underTxLock_reports {f : Func} {locked : Cmd AntStatus} (hl : l.sends = false)
    (hrefused : ∀ r, r ≠ 0 → observes l (.mutexLock .txLock) v r v → v.Agrees)
    (hlocked : Reports b l (fun _ v' => v'.Agrees) v locked) :
    Reports b l (fun _ v' => v'.Agrees) v (underTxLock f locked) := by
  simp only [underTxLock, Prog.op_bind, Prog.ret_bind, Prog.pure_eq]
  refine (Cooperation.safe_op hl).mpr fun r v' hr => ?_
  obtain rfl : v' = v := hr.2
  split
  · rename_i hr0
    exact reports_same rfl (fun _ _ h => h) fun _ => hrefused r hr0 hr
  · refine hlocked.bind fun ret v₁ hv₁ => ?_
    refine reports_same rfl (fun _ _ h => h) fun _ => ?_
    exact reports_same rfl (fun _ _ h => h) fun _ => hv₁

theorem antEnableRadio_reports (hv : v.Agrees) :
    Reports b .enableRadio (fun _ v' => v'.Agrees) v (antEnableRadio b) := by
  simp only [antEnableRadio, Prog.op_bind, Prog.ret_bind, Prog.pure_eq]
  refine reports_same rfl (fun _ _ h => h) fun _ => ?_
  refine reports_rest rfl (fun _ _ _ h => h) hv fun v₁ hv₁ lockResult => ?_
  split
  · exact reports_same rfl (fun _ _ h => h) fun _ => hv₁
  · refine (markEnabling_reports hv₁).bind fun _ v₂ hv₂ => ?_
    refine underTxLock_reports rfl (fun r hr hlock => ?_) (enableRadioLocked_reports hb hv₂)
    obtain ⟨hcallback, hagrees | henabling⟩ := hv₂
    · exact hagrees
    · refine ⟨hcallback, fun status hstatus => ?_⟩
      rw [hlock.1 rfl hr henabling] at hstatus
      cases hstatus

theorem antDisableRadio_reports (hv : v.Agrees) :
    Reports b .disableRadio (fun _ v' => v'.Agrees) v (antDisableRadio b) := by
  simp only [antDisableRadio, Prog.op_bind, Prog.ret_bind, Prog.pure_eq]
  refine reports_same rfl (fun _ _ h => h) fun _ => ?_
  refine reports_rest rfl (fun _ _ _ h => h) hv fun v₁ hv₁ lockResult => ?_
  split
  · exact reports_same rfl (fun _ _ h => h) fun _ => hv₁
  · exact underTxLock_reports rfl (fun _ _ _ => hv₁) (disableRadioLocked_reports hb hv₁)

theorem refreshUnlessInTransition_reports (hv : v.Agrees) :
    Reports b l (fun _ v' => v'.Agrees) v (refreshUnlessInTransition b) := by
  simp only [refreshUnlessInTransition, Prog.op_bind, Prog.ret_bind, Prog.pure_eq]
  refine reports_getRadioStatus ?_
  split
  · refine reports_getRadioStatus ?_
    split
    · exact (getAndSetRadioStatus_agrees hb hv).bind fun _ _ h => h.1
    · exact hv
  · exact hv

theorem antRadioEnabledStatus_reports (hv : v.Agrees) :
    Reports b .radioEnabledStatus (fun _ v' => v'.Agrees) v (antRadioEnabledStatus b) := by
  simp only [antRadioEnabledStatus, Prog.op_bind, Prog.ret_bind, Prog.pure_eq]
  refine reports_same rfl (fun _ _ h => h) fun _ => ?_
  refine (refreshUnlessInTransition_reports hb hv).bind fun _ v₁ hv₁ => ?_
  exact reports_getRadioStatus (reports_same rfl (fun _ _ h => h) fun _ => hv₁)

theorem antTxMessage_reports (pucMesg : List UInt8) (hv : v.Agrees) :
    Reports b (.txMessage pucMesg) (fun _ v' => v'.Agrees) v (antTxMessage b pucMesg) := by
  simp only [antTxMessage, Prog.op_bind, Prog.ret_bind, Prog.pure_eq]
  refine reports_same rfl (fun _ _ h => h) fun _ => ?_
  refine reports_rest rfl (fun _ _ _ h => h.2) hv fun v₁ hv₁ lockResult => ?_
  split
  · exact reports_same rfl (fun _ _ h => h) fun _ => hv₁
  · refine (getAndSetRadioStatus_agrees hb hv₁).bind fun status v₂ hv₂ => ?_
    exact (reports_transfers (beginSending_transfers pucMesg status) hv₂.1).mono fun _ _ h => h.2

/-- The clean-up of a crash reports DISABLING on its way to another status. -/
theorem rxClose_reports (rxSocket : Int) (hv : v.Agrees) :
    Reports b (.rxClose rxSocket) (fun _ v' => v'.Agrees) v (rxClose b rxSocket) := by
  simp only [rxClose, Prog.op_bind, Prog.ret_bind, Prog.pure_eq]
  refine reports_rest rfl (fun _ _ _ h => h) hv fun v₁ hv₁ result => ?_
  refine Cooperation.Safe.bind (P := fun _ v' => v'.Agrees) ?_ fun _ v₂ hv₂ =>
    reports_same rfl (fun _ _ h => h) fun _ => hv₂
  unfold crashCleanUp
  split
  · refine Cooperation.Safe.bind (P := fun _ v' => v'.Agrees) ?_ fun _ v₂ hv₂ => ?_
    · simp only [crashDisable, reportDisabling, hb, if_true, Prog.op_bind, Prog.ret_bind,
        Prog.pure_eq]
      refine (Cooperation.safe_op rfl).mpr fun set v' hr => ?_
      obtain ⟨rfl, rfl⟩ := hr
      rw [if_pos hv₁.1]
      refine (Cooperation.safe_op rfl).mpr fun _ v₂ hr => ?_
      rw [show v₂ = _ from hr]
      refine reports_same rfl (fun _ _ h => h) fun _ => ?_
      have hrefresh := getAndSetRadioStatus_reports (l := .rxClose rxSocket)
        (v := { v' with last := some .disabling }) hb rfl hv₁.1
        fun enabled hcloses hsame => absurd hsame (hcloses rxSocket rfl)
      exact hrefresh.bind fun _ _ h => h.1
    · refine (Cooperation.safe_op rfl).mpr fun _ v₃ hr => ?_
      rw [show v₃ = _ from hr]
      exact reports_same rfl (fun _ _ h => h) fun _ => hv₂.keep 0
  · exact hv₁

/-- Every block brings the observers back to the status. -/
theorem reporting_checked : (reporting b).Checked := by
  have hend : ∀ {l : Label} {v : Observed} {α : Type} {p : Cmd α},
      Reports b l (fun _ v' => v'.Agrees) v p →
      Reports b l (fun _ v' => v'.Agrees) v (p >>= fun _ => (.ret none : Cmd (Option Label))) :=
    fun h => h.bind fun _ _ h => h
  have htransfers : ∀ {l : Label} {v : Observed} {P : Option Label → Prop}
      {p : Cmd (Option Label)}, p.Only Transfers P → v.Agrees →
      Reports b l (fun _ v' => v'.Agrees) v p :=
    fun h hv => (reports_transfers h hv).mono fun _ _ h => h.2
  intro l v hv
  cases l with
  | enableRadio => exact hend (antEnableRadio_reports hb hv)
  | disableRadio => exact hend (antDisableRadio_reports hb hv)
  | radioEnabledStatus => exact hend (antRadioEnabledStatus_reports hb hv)
  | txMessage pucMesg => exact antTxMessage_reports hb pucMesg hv
  | txWrite tx => exact htransfers (txWrite_transfers tx) hv
  | txWait tx => exact htransfers (txWait_transfers tx) hv
  | txRead tx => exact htransfers (txRead_transfers tx) hv
  | txClose tx => exact htransfers (txClose_transfers tx) hv
  | rxStart => exact htransfers rxStart_transfers hv
  | rxLoop rxSocket =>
      refine (getAndSetRadioStatus_agrees hb hv).bind fun status v' h => ?_
      split <;> exact h.1
  | rxPoll rxSocket => exact htransfers (rxPoll_transfers rxSocket) hv
  | rxRead rxSocket => exact htransfers (rxRead_transfers rxSocket) hv
  | rxClose rxSocket => exact rxClose_reports hb rxSocket hv

end functions

section runs
variable {b : Build} {c d : ThreadConfig} {t : Tid} {rxCallback : Bool}

theorem reporting_calm_init : (reporting b).Calm (initConfig true rxCallback) :=
  ⟨⟨rfl, nofun⟩, fun _ _ hth => nomatch hth⟩

/-- When a turn of a sequential run brings a call or a receive thread to its end,
the observers know the status. -/
theorem observers_synced (hb : b.useExternalPowerLibrary = true)
    (h : (machine b).Sequential rests (reporting b).Allows (initConfig true rxCallback) c)
    (hturn : (machine b).Turn (reporting b).Allows t c d)
    (hdone : (d.pool t).any Thread.terminated = true) : Synced d.shared := by
  have hchecked := reporting_checked hb
  have hinit : (reporting b).Calm (initConfig true rxCallback) := reporting_calm_init
  have hcalm : (reporting b).Calm c := Cooperation.calm_sequential hchecked hinit h
  have hrests : (d.pool t).all (Thread.resting rests) = true := by
    obtain ⟨th, hth, hended⟩ := Option.any_eq_true _ _ |>.mp hdone
    simp [hth, Thread.resting_of_terminated hended]
  exact ((Cooperation.inTurn_path hchecked (hcalm.inTurn t) hturn).calm hrests).inv.2

/-- No lock fails, and no clean-up of a crash asks the chip. -/
def orderly (c : ThreadConfig) : Move Label Tid Env → Bool
  | .start _ _ => true
  | .act t env =>
    decide (env.mutex = 0) &&
      match c.pool t with
      | some ⟨.rxClose _, .op o _⟩ => decide (o ≠ .antIsEnabled)
      | _ => true

theorem allows_of_orderly {mv : Move Label Tid Env} (h : orderly c mv = true) :
    (reporting b).Allows c mv := by
  cases mv with
  | start t l => trivial
  | act t env =>
      intro l o k hth
      simp only [orderly, hth, Bool.and_eq_true, decide_eq_true_eq] at h
      obtain ⟨hmutex, hclose⟩ := h
      show allows l o env (observe c.shared)
      unfold allows
      split
      · simp at hclose
      · exact fun hfails => absurd hmutex hfails
      · trivial

/-- A chip that is off is enabled, and its receive thread gets to its loop. -/
def enabledTurns : List (Tid × List (Move Label Tid Env)) :=
  [(.app 0, .start (.app 0) .enableRadio ::
      List.replicate 29 (.act (.app 0) { antIsEnabled := 0 })),
    (.rx 1, List.replicate 3 (.act (.rx 1) {}))]

/-- The radio is disabled: the call waits for the receive thread, which finds the
chip off. -/
def disabledTurns : List (Tid × List (Move Label Tid Env)) :=
  enabledTurns ++
    [(.app 1, .start (.app 1) .disableRadio :: List.replicate 16 (.act (.app 1) {})),
      (.rx 1, List.replicate 11 (.act (.rx 1) { antIsEnabled := 0 }))]

theorem observers_synced_disabled :
    ∃ d : ThreadConfig, lastReported d.shared.events = some .disabled ∧ Synced d.shared := by
  let b : Build := ⟨.wl12xx, true⟩
  obtain ⟨c, hpath, hc⟩ := Machine.play_any (machine b) rests orderly disabledTurns
    (initConfig true true) (fun c => ((machine b).exec
      (fun x mv => orderly x mv && mv.thread = .app 1)
      (List.replicate 10 (.act (.app 1) { antIsEnabled := 0 })) c).any
        fun (d : ThreadConfig) => (d.pool (.app 1)).any Thread.terminated &&
          decide (lastReported d.shared.events = some .disabled)) (by decide)
  obtain ⟨d, hd, hend⟩ := Option.any_eq_true _ _ |>.mp hc
  rw [Bool.and_eq_true, decide_eq_true_eq] at hend
  have hallows : ∀ x mv, orderly x mv = true → (reporting b).Allows x mv :=
    fun _ _ h => allows_of_orderly h
  refine ⟨d, hend.2, observers_synced (b := b) rfl (hpath.mono hallows) ?_ hend.1⟩
  exact (Machine.exec_turn hd).mono fun x mv h => ⟨hallows x mv h.1, h.2⟩

/-- The chip goes down, the guard of the loop finds and reports that, and the
clean-up behind the loop reports DISABLING and finds nothing new. -/
theorem observers_notSynced :
    ¬ ∀ (b : Build) (rxCallback : Bool) (c d : ThreadConfig) (t : Tid),
      b.useExternalPowerLibrary = true →
      (machine b).Sequential rests (fun _ _ => True) (initConfig true rxCallback) c →
      (machine b).Turn (fun _ _ => True) t c d →
      (d.pool t).any Thread.terminated = true → Synced d.shared := by
  intro h
  let b : Build := ⟨.wl12xx, true⟩
  obtain ⟨c, hpath, hc⟩ := Machine.play_any (machine b) rests (fun _ _ => true) enabledTurns
    (initConfig true true) (fun c => ((machine b).exec (fun _ mv => true && mv.thread = .rx 1)
      (List.replicate 22 (.act (.rx 1) { antIsEnabled := 0 })) c).any
        fun (d : ThreadConfig) =>
          (d.pool (.rx 1)).any Thread.terminated && decide (d.shared.radioStatus = .disabled) &&
          decide (lastReported d.shared.events = some .disabling)) (by decide)
  obtain ⟨d, hd, hend⟩ := Option.any_eq_true _ _ |>.mp hc
  simp only [Bool.and_eq_true, decide_eq_true_eq] at hend
  obtain ⟨⟨hdone, hstatus⟩, hlast⟩ := hend
  have hsynced := h b true c d (.rx 1) rfl (hpath.mono fun _ _ _ => trivial)
    ((Machine.exec_turn hd).mono fun _ _ h => ⟨trivial, h.2⟩) hdone _ hlast
  rw [hstatus] at hsynced
  cases hsynced

end runs

end AntHal.Bluez
