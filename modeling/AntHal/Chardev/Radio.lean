import AntHal.Chardev.ReceiveThread

/-!
The radio as its callers see it.

`Radio` keeps of the shared state what the status is computed from, and the
statuses passed to the state callback. With no other thread stepping, each
lifecycle function is a function on it.
-/

namespace AntHal

open Concurrency

structure Radio where
  stRxThread : Nat
  ucRunThread : Bool
  ucChipResetting : Bool
  iFd : AntChannelType → Int
  gFnStateCallback : Bool
  /-- The statuses passed to the state callback, in order. -/
  reported : List RadioStatus

def Event.reported? : Event → Option RadioStatus
  | .stateCallback s => some s
  | _ => none

def Shared.radio (s : Shared) : Radio where
  stRxThread := s.stRxThread
  ucRunThread := s.ucRunThread
  ucChipResetting := s.ucChipResetting
  iFd := s.iFd
  gFnStateCallback := s.gFnStateCallback
  reported := s.events.filterMap Event.reported?

namespace Radio

variable (b : Build) (env : Env) (r : Radio)

def openFiles : Nat := b.channels.countP fun ch => decide (r.iFd ch ≠ -1)

def status : RadioStatus :=
  if r.ucChipResetting then .resetting
  else computeStatus b (r.openFiles b) (r.stRxThread != 0) r.ucRunThread

/-- Pass a status to the callback, if one is set. -/
def report (s : RadioStatus) : Radio :=
  if r.gFnStateCallback then { r with reported := r.reported ++ [s] } else r

/-- Marking the radio as resetting, with the status told at the start. -/
def resetting : Radio := ({ r with ucChipResetting := true } : Radio).report .resetting

def closeAll : Radio := { r with iFd := fun ch => if ch ∈ b.channels then -1 else r.iFd ch }

/-- A recorded thread that cannot be told to stop keeps its channels open. -/
def disable : Int × Radio :=
  let stopped := { r with ucRunThread := false, stRxThread := 0 }
  if r.stRxThread ≠ 0 ∧ env.eventfdWrite = false then (-1, stopped)
  else (0, stopped.closeAll b)

/-- The descriptor that a channel gets. -/
def openResult (ch : AntChannelType) : Int :=
  match b.backend with
  | .vfs =>
    match env.openDevice ch with
    | some fd => fd
    | none => -1
  | .btVendor =>
    if env.dlopen ∧ env.dlsym ∧ 0 ≤ env.powerCtrlOn ∧ env.userialOpen = 1 then env.userialFd
    else -1

/-- Open the closed channels of a list, up to the first that fails. -/
def openAll : List AntChannelType → (AntChannelType → Int) → Bool × (AntChannelType → Int)
  | [], iFd => (true, iFd)
  | ch :: chs, iFd =>
    if iFd ch = -1 then
      let opened := Function.update iFd ch (openResult b env ch)
      if openResult b env ch < 0 then (false, opened) else openAll chs opened
    else openAll chs iFd

/-- Only vfs takes the run flag back when there is no thread. -/
def enableOut : Radio :=
  if b.backend = .vfs ∧ r.stRxThread = 0 then { r with ucRunThread := false } else r

/-- Creating the thread: a positive error number counts as success. -/
def create : Radio :=
  if r.stRxThread = 0 ∧ env.pthreadCreate = 0 then
    { r with stRxThread := env.handle + 1 }
  else r

def enable : Int × Radio :=
  if env.eventfdRead = .error then (-1, r.enableOut b)
  else
    let opened := openAll b env b.channels r.iFd
    let running := { r with ucRunThread := true, iFd := opened.2 }
    if opened.1 = false then (-1, running.enableOut b)
    else
      let created := running.create env
      (if created.ucRunThread then 0 else -1, created.enableOut b)

def enableRadioBody : AntStatus × Radio :=
  let e := (r.report .enabling).enable b env
  if e.1 < 0 then
    let d := (e.2.disable b env).2
    (.failed, d.report (d.status b))
  else (.success, e.2.report .enabled)

def enableRadio : AntStatus × Radio :=
  if b.backend = .vfs ∧ r.status b = .enabled then (.success, r)
  else r.enableRadioBody b env

def disableRadio : AntStatus × Radio :=
  if b.backend = .vfs ∧ r.status b = .disabled then (.success, r)
  else
    let d := ((r.report .disabling).disable b env).2
    (.success, d.report (d.status b))

/-- Disable, enable and report, as both kinds of reset do. -/
def restart : Int × Radio :=
  let e := (r.disable b env).2.enable b env
  (e.1, { e.2.report (if e.1 ≠ 0 then .disabled else .reset) with ucChipResetting := false })

section status
variable {b : Build} {r : Radio}

theorem openFiles_eq_length_iff :
    r.openFiles b = b.channels.length ↔ ∀ ch ∈ b.channels, r.iFd ch ≠ -1 := by
  simp [openFiles, List.countP_eq_length]

theorem openFiles_eq_zero_iff : r.openFiles b = 0 ↔ ∀ ch ∈ b.channels, r.iFd ch = -1 := by
  simp [openFiles, List.countP_eq_zero]

theorem computeStatus_eq_enabled_iff (n : Nat) (thread run : Bool) :
    computeStatus b n thread run = .enabled ↔
      run = true ∧ thread = true ∧ n = b.channels.length := by
  unfold computeStatus
  cases run <;> cases thread <;> grind

theorem computeStatus_eq_disabled_iff (n : Nat) (thread run : Bool) :
    computeStatus b n thread run = .disabled ↔ run = false ∧ thread = false ∧ n = 0 := by
  unfold computeStatus
  cases run <;> cases thread <;> grind

theorem status_eq_enabled_iff :
    r.status b = .enabled ↔ r.ucChipResetting = false ∧ r.ucRunThread = true ∧
      r.stRxThread ≠ 0 ∧ ∀ ch ∈ b.channels, r.iFd ch ≠ -1 := by
  cases hreset : r.ucChipResetting
  · simp [status, hreset, computeStatus_eq_enabled_iff, openFiles_eq_length_iff]
  · simp [status, hreset]

theorem status_eq_disabled_iff :
    r.status b = .disabled ↔ r.ucChipResetting = false ∧ r.ucRunThread = false ∧
      r.stRxThread = 0 ∧ ∀ ch ∈ b.channels, r.iFd ch = -1 := by
  cases hreset : r.ucChipResetting
  · simp [status, hreset, computeStatus_eq_disabled_iff, openFiles_eq_zero_iff]
  · simp [status, hreset]

end status

end Radio

section simulation
variable {b : Build} {t : Tid} {env : Env}

/-- The program of a thread that steps alone acts on the radio as `f`. -/
abbrev ActsOn (b : Build) (t : Tid) (env : Env) {α : Type} (p : Cmd α)
    (f : Radio → α × Radio) : Prop :=
  Prog.Simulates (effect b t env) Shared.radio p f

theorem radio_log (s : Shared) (e : Event) (h : e.reported? = none) :
    (s.log e).radio = s.radio := by
  simp [Shared.radio, Shared.log, h]
  rfl

theorem funcStart_acts (f : Func) : ActsOn b t env (funcStart f) fun r => ((), r) :=
  fun s => congrArg _ (radio_log s _ rfl)

theorem funcEnd_acts (f : Func) (ret : Return) :
    ActsOn b t env (funcEnd f ret) fun r => ((), r) :=
  fun s => congrArg _ (radio_log s _ rfl)

theorem getRunThread_acts : ActsOn b t env getRunThread fun r => (r.ucRunThread, r) :=
  fun _ => rfl

theorem setRunThread_acts (v : Bool) :
    ActsOn b t env (setRunThread v) fun r => ((), { r with ucRunThread := v }) := fun _ => rfl

theorem setChipResetting_acts (v : Bool) :
    ActsOn b t env (setChipResetting v) fun r => ((), { r with ucChipResetting := v }) :=
  fun _ => rfl

theorem getRxThread_acts : ActsOn b t env getRxThread fun r => (r.stRxThread, r) :=
  fun _ => rfl

theorem clearRxThread_acts :
    ActsOn b t env clearRxThread fun r => ((), { r with stRxThread := 0 }) := fun _ => rfl

theorem getFd_acts (ch : AntChannelType) :
    ActsOn b t env (getFd ch) fun r => (r.iFd ch, r) := fun _ => rfl

theorem setFd_acts (ch : AntChannelType) (fd : Int) :
    ActsOn b t env (setFd ch fd) fun r =>
      ((), { r with iFd := Function.update r.iFd ch fd }) := by
  intro s
  simp only [Prog.run_op, Prog.run_ret, effect, Shared.radio, Shared.setFd_iFd]
  rfl

theorem eventfdWrite_acts : ActsOn b t env eventfdWrite fun r =>
    (if env.eventfdWrite then 8 else -1, r) := by
  intro s
  simp only [Prog.run_op, Prog.run_ret, effect]
  split
  · exact congrArg _ (radio_log s _ rfl)
  · rfl

theorem eventfdRead_acts : ActsOn b t env eventfdRead fun r => (env.eventfdRead, r) :=
  fun _ => rfl

theorem pthreadJoin_acts (h : Nat) : ActsOn b t env (pthreadJoin h) fun r => (0, r) :=
  fun s => congrArg _ (radio_log s _ rfl)

theorem countOpenFiles_acts (chs : List AntChannelType) :
    ActsOn b t env (countOpenFiles chs) fun r =>
      (chs.countP fun ch => decide (r.iFd ch ≠ -1), r) := by
  induction chs with
  | nil => exact Prog.simulates_ret 0
  | cons ch chs ih =>
      refine .congr (.bind (getFd_acts ch) fun iFd => .bind ih fun n =>
        Prog.simulates_ret _) fun r => ?_
      by_cases h : r.iFd ch = -1 <;> simp [h]

theorem antRadioEnabledStatus_acts :
    ActsOn b t env (antRadioEnabledStatus b) fun r => (r.status b, r) := by
  refine .congr (.bind (f := fun r => (r.ucChipResetting, r)) (fun _ => rfl) fun c =>
    .ite (Prog.simulates_ret _) (.bind (countOpenFiles_acts _) fun n =>
      .bind getRxThread_acts fun h => .bind getRunThread_acts fun run =>
        Prog.simulates_ret _)) fun r => ?_
  by_cases h : r.ucChipResetting = true
  · simp [Radio.status, h]
  · simp [Radio.status, h, Radio.openFiles]

/-- Reporting a status that is computed without changing the state. -/
theorem reportStatus_acts {status : Cmd RadioStatus} {f : Radio → RadioStatus}
    (h : ActsOn b t env status fun r => (f r, r)) :
    ActsOn b t env (reportStatus status) fun r => ((), r.report (f r)) := by
  refine .congr (.bind (f := fun r => (r.gFnStateCallback, r)) (fun _ => rfl) fun set =>
    .ite (.bind h fun s => (?_ : ActsOn b t env (stateCallback s)
      fun r => ((), { r with reported := r.reported ++ [s] }))) (Prog.simulates_ret ()))
    fun r => ?_
  · intro σ
    simp [effect, Shared.radio, Shared.log, Event.reported?]
    rfl
  · by_cases hset : r.gFnStateCallback = true
    · simp [Radio.report, hset]
    · simp [Radio.report, hset]

theorem reportStatus_ret_acts (s : RadioStatus) :
    ActsOn b t env (reportStatus (.ret s)) fun r => ((), r.report s) :=
  reportStatus_acts (f := fun _ => s) (Prog.simulates_ret s)

theorem initTransportOn_acts : ActsOn b t env initTransportOn fun r =>
    (if env.dlopen ∧ env.dlsym ∧ 0 ≤ env.powerCtrlOn ∧ env.userialOpen = 1 then env.userialFd
      else -1, r) := by
  intro s
  simp only [initTransportOn, Prog.op_bind, Prog.ret_bind, Prog.run_op, effect]
  by_cases h₁ : env.dlopen = true
  · by_cases h₂ : env.dlsym = true
    · by_cases h₃ : env.powerCtrlOn < 0
      · have : ¬ 0 ≤ env.powerCtrlOn := by omega
        simp [h₁, h₂, h₃, this, effect, Shared.radio, Shared.log, Event.reported?]
        rfl
      · have : 0 ≤ env.powerCtrlOn := by omega
        by_cases h₄ : env.userialOpen = 1
        · simp [h₁, h₂, h₃, h₄, this, effect, Shared.radio, Shared.log,
            Event.reported?]
          rfl
        · simp [h₁, h₂, h₃, h₄, effect, Shared.radio, Shared.log, Event.reported?]
          rfl
    · simp [h₁, h₂, effect, Shared.radio]
      rfl
  · simp [h₁]

theorem closeTransport_radio (ch : AntChannelType) (s : Shared) :
    ((closeTransport b ch).run (effect b t env) s).2.radio = s.radio := by
  unfold closeTransport
  split
  · exact radio_log s _ rfl
  · simp only [initTransportOff, Prog.op_bind, Prog.ret_bind, Prog.run_op, effect]
    by_cases h₁ : s.vendorInterface = true
    · by_cases h₂ : env.powerCtrlOff < 0
      · simp [h₁, h₂, effect, Shared.radio, Shared.log, Event.reported?]
        rfl
      · simp [h₁, h₂, effect, Shared.radio, Shared.log, Event.reported?]
        rfl
    · simp [h₁]

theorem openTransport_acts (ch : AntChannelType) :
    ActsOn b t env (openTransport b ch) fun r => (Radio.openResult b env ch, r) := by
  unfold openTransport Radio.openResult
  cases b.backend with
  | vfs =>
      intro s
      simp only [Prog.run_op, Prog.run_ret, effect]
      cases env.openDevice ch with
      | none => rfl
      | some fd => exact congrArg _ (radio_log s _ rfl)
  | btVendor => exact initTransportOn_acts

/-- An open of a device answers -1 if it fails; what a vendor library stores may be
any other negative number as well. -/
theorem openResult_lt_zero (hb : b.backend = .vfs) {ch : AntChannelType} :
    Radio.openResult b env ch < 0 ↔ Radio.openResult b env ch = -1 := by
  simp only [Radio.openResult, hb]
  cases env.openDevice ch <;> simp

theorem antEnableChannel_acts (ch : AntChannelType) :
    ActsOn b t env (antEnableChannel b ch) fun r =>
      if r.iFd ch = -1 then
        (if Radio.openResult b env ch < 0 then -1 else 0,
          { r with iFd := Function.update r.iFd ch (Radio.openResult b env ch) })
      else (0, r) := by
  refine .congr (.bind (getFd_acts ch) fun iFd => .ite
    (.bind (openTransport_acts ch) fun fd => .bind (setFd_acts ch fd) fun _ =>
      .bind (getFd_acts ch) fun iFd => .ite (Prog.simulates_ret _) (Prog.simulates_ret _))
    (Prog.simulates_ret _)) fun r => ?_
  by_cases h : r.iFd ch = -1
  · by_cases hneg : Radio.openResult b env ch < 0 <;> simp [h, hneg]
  · simp [h]

theorem enableChannels_acts (chs : List AntChannelType) :
    ActsOn b t env (enableChannels b chs) fun r =>
      ((Radio.openAll b env chs r.iFd).1,
        { r with iFd := (Radio.openAll b env chs r.iFd).2 }) := by
  induction chs with
  | nil => exact Prog.simulates_ret true
  | cons ch chs ih =>
      refine .congr (.bind (antEnableChannel_acts ch) fun iRet =>
        .ite (Prog.simulates_ret false) ih) fun r => ?_
      by_cases h : r.iFd ch = -1
      · by_cases hneg : Radio.openResult b env ch < 0 <;> simp [Radio.openAll, h, hneg]
      · simp [Radio.openAll, h]

theorem antDisableChannel_acts (ch : AntChannelType) :
    ActsOn b t env (antDisableChannel b ch) fun r =>
      ((), { r with iFd := Function.update r.iFd ch (-1) }) := by
  refine .congr (.bind (getFd_acts ch) fun iFd => .ite
    (.ignore (closeTransport_radio ch) (setFd_acts ch (-1))) (Prog.simulates_ret ()))
    fun r => ?_
  by_cases h : r.iFd ch = -1
  · have : Function.update r.iFd ch (-1) = r.iFd := by rw [← h, Function.update_eq_self]
    simp [h, this]
  · simp [h]

theorem disableChannels_acts (chs : List AntChannelType) :
    ActsOn b t env (disableChannels b chs) fun r =>
      ((), { r with iFd := fun ch => if ch ∈ chs then -1 else r.iFd ch }) := by
  induction chs with
  | nil => exact .congr (Prog.simulates_ret ()) fun r => by simp
  | cons ch chs ih =>
      refine .congr (.bind (antDisableChannel_acts ch) fun _ => ih) fun r => ?_
      simp only [Prod.mk.injEq, Radio.mk.injEq, true_and, and_true]
      funext ch'
      by_cases h : ch' = ch <;> simp [h]

theorem antDisableOut_acts (iRet : Int) :
    ActsOn b t env (antDisableOut iRet) fun r => (iRet, { r with stRxThread := 0 }) :=
  .bind clearRxThread_acts fun _ => .bind (funcEnd_acts _ _) fun _ => Prog.simulates_ret iRet

theorem antDisable_acts : ActsOn b t env (antDisable b) (Radio.disable b env) := by
  have hclose : ActsOn b t env (disableChannels b b.channels >>= fun _ => antDisableOut 0)
      fun r => (0, { r.closeAll b with stRxThread := 0 }) :=
    .bind (disableChannels_acts _) fun _ => antDisableOut_acts 0
  refine .congr (.bind (funcStart_acts _) fun _ => .bind (setRunThread_acts false) fun _ =>
    .bind getRxThread_acts fun h => .ite
      (.bind eventfdWrite_acts fun w => .ite (antDisableOut_acts (-1))
        (.bind getRxThread_acts fun h => .bind (pthreadJoin_acts h) fun j =>
          .ite (antDisableOut_acts (-1)) hclose)) hclose) fun r => ?_
  by_cases h : r.stRxThread = 0
  · simp [Radio.disable, Radio.closeAll, h]
  · by_cases hw : env.eventfdWrite = true <;> simp [Radio.disable, Radio.closeAll, h, hw]

theorem antEnableOut_acts (iRet : Int) :
    ActsOn b t env (antEnableOut b iRet) fun r => (iRet, r.enableOut b) := by
  have hrelease : ActsOn b t env (releaseRunFlag b) fun r => ((), r.enableOut b) := by
    unfold releaseRunFlag Radio.enableOut
    cases b.backend with
    | vfs =>
        refine .congr (.bind getRxThread_acts fun h =>
          .ite (setRunThread_acts false) (Prog.simulates_ret ())) fun r => ?_
        by_cases h : r.stRxThread = 0 <;> simp [h]
    | btVendor => exact .congr (Prog.simulates_ret ()) fun r => by simp
  exact .bind hrelease fun _ => .bind (funcEnd_acts _ _) fun _ => Prog.simulates_ret iRet

theorem antEnableCheck_acts : ActsOn b t env (antEnableCheck b) fun r =>
    (if r.ucRunThread then 0 else -1, r.enableOut b) := by
  refine .congr (.bind getRunThread_acts fun run => .ite (antEnableOut_acts (-1))
    (antEnableOut_acts 0)) fun r => ?_
  by_cases h : r.ucRunThread = true <;> simp [h]

/-- Creating the thread never looks like a failure to `ant_enable`. -/
theorem pthreadCreate_acts : ActsOn b t env pthreadCreate fun r =>
    (env.pthreadCreate, if env.pthreadCreate = 0 then
      { r with stRxThread := env.handle + 1 } else r) := by
  intro s
  simp only [Prog.run_op, Prog.run_ret, effect]
  by_cases h : env.pthreadCreate = 0
  · simp [h, Shared.radio, Shared.log, Event.reported?]
    rfl
  · simp [h]

theorem antEnable_acts : ActsOn b t env (antEnable b) (Radio.enable b env) := by
  refine .congr (.bind (funcStart_acts _) fun _ => .bind eventfdRead_acts fun result =>
    .ite (antEnableOut_acts (-1)) (.bind (setRunThread_acts true) fun _ =>
      .bind (enableChannels_acts _) fun enabled => .ite (antEnableOut_acts (-1))
        (.bind getRxThread_acts fun h => .ite
          (.bind pthreadCreate_acts fun ret => .ite (antEnableOut_acts (-1))
            antEnableCheck_acts) antEnableCheck_acts))) fun r => ?_
  by_cases hread : env.eventfdRead = .error
  · simp [Radio.enable, hread]
  · by_cases hopen : (Radio.openAll b env b.channels r.iFd).1 = true
    · by_cases h : r.stRxThread = 0
      · by_cases hc : env.pthreadCreate = 0
        · simp [Radio.enable, Radio.create, hread, hopen, h, hc]
        · have : ¬ (env.pthreadCreate : Int) < 0 := by omega
          simp [Radio.enable, Radio.create, hread, hopen, h, hc]
      · simp [Radio.enable, Radio.create, hread, hopen, h]
    · simp [Radio.enable, hread, hopen]

theorem mutexLock_acts : ActsOn b t env mutexLock fun r => (0, r) := fun _ => rfl

theorem mutexUnlock_acts : ActsOn b t env mutexUnlock fun r => ((), r) := fun _ => rfl

theorem enableRadioBody_acts :
    ActsOn b t env (enableRadioBody b) (Radio.enableRadioBody b env) :=
  .congr (.bind (reportStatus_ret_acts _) fun _ => .bind antEnable_acts fun _ =>
    .ite (.bind antDisable_acts fun _ =>
        .bind (reportStatus_acts antRadioEnabledStatus_acts) fun _ => Prog.simulates_ret _)
      (.bind (reportStatus_ret_acts _) fun _ => Prog.simulates_ret _)) fun _ => rfl

variable (b t env) in
theorem antEnableRadio_acts :
    ActsOn b t env (antEnableRadio b) (Radio.enableRadio b env) := by
  have hlocked : ActsOn b t env (enableRadioLocked b) (Radio.enableRadio b env) := by
    unfold enableRadioLocked Radio.enableRadio
    cases b.backend with
    | vfs =>
        refine .congr (.bind antRadioEnabledStatus_acts fun current =>
          .ite enableRadioBody_acts (Prog.simulates_ret _)) fun r => ?_
        by_cases h : r.status b = .enabled <;> simp [h]
    | btVendor => exact .congr enableRadioBody_acts fun r => by simp
  refine .congr (.bind (funcStart_acts _) fun _ => .bind mutexLock_acts fun ret =>
    .ite (.bind (funcEnd_acts _ _) fun _ => Prog.simulates_ret _)
      (.bind hlocked fun status => .bind mutexUnlock_acts fun _ =>
        .bind (funcEnd_acts _ _) fun _ => Prog.simulates_ret _)) fun r => ?_
  rfl

variable (b t env) in
theorem antDisableRadio_acts :
    ActsOn b t env (antDisableRadio b) (Radio.disableRadio b env) := by
  have hbody : ActsOn b t env (disableRadioBody b) fun r =>
      let d := ((r.report .disabling).disable b env).2
      ((), d.report (d.status b)) :=
    .congr (.bind (reportStatus_ret_acts _) fun _ => .bind antDisable_acts fun _ =>
      reportStatus_acts antRadioEnabledStatus_acts) fun _ => rfl
  have hlocked : ActsOn b t env (disableRadioLocked b) fun r =>
      ((), (r.disableRadio b env).2) := by
    unfold disableRadioLocked Radio.disableRadio
    cases b.backend with
    | vfs =>
        refine .congr (.bind antRadioEnabledStatus_acts fun current =>
          .ite hbody (Prog.simulates_ret _)) fun r => ?_
        by_cases h : r.status b = .disabled <;> simp [h]
    | btVendor => exact .congr hbody fun r => by simp
  refine .congr (.bind (funcStart_acts _) fun _ => .bind mutexLock_acts fun ret =>
    .ite (.bind (funcEnd_acts _ _) fun _ => Prog.simulates_ret _)
      (.bind hlocked fun _ => .bind mutexUnlock_acts fun _ =>
        .bind (funcEnd_acts _ _) fun _ => Prog.simulates_ret _)) fun r => ?_
  by_cases h : b.backend = .vfs ∧ r.status b = .disabled <;> simp [Radio.disableRadio, h]

/-- What a hard reset does under the lock. -/
theorem hardResetLocked_acts :
    ActsOn b t env (hardResetLocked b) fun r =>
      let e := r.resetting.restart b env
      (if e.1 ≠ 0 then .failed else .success, e.2) := by
  refine .congr (.bind (setChipResetting_acts true) fun _ =>
    .bind (reportStatus_ret_acts _) fun _ => .bind (f := fun r => ((), r)) (fun _ => rfl) fun _ =>
    .bind antDisable_acts fun _ => .bind antEnable_acts fun ret =>
    .ite (.bind (reportStatus_ret_acts _) fun _ => .bind (setChipResetting_acts false) fun _ =>
        Prog.simulates_ret _)
      (.bind (reportStatus_ret_acts _) fun _ => .bind (setChipResetting_acts false) fun _ =>
        Prog.simulates_ret _)) fun r => ?_
  by_cases h : (Radio.enable b env (Radio.disable b env
      (({ r with ucChipResetting := true } : Radio).report .resetting)).2).1 = 0 <;>
    simp [Radio.restart, Radio.resetting, h]

/-- What `doReset` does once it has the lock. -/
theorem doResetLocked_acts :
    ActsOn b t env (doResetLocked b 0) fun r =>
      ((), (Radio.restart b env { r with stRxThread := 0 }).2) := by
  refine .congr (.bind clearRxThread_acts fun _ => .bind antDisable_acts fun _ =>
    .bind antEnable_acts fun enableResult => .bind (setChipResetting_acts false) fun _ =>
    .bind (reportStatus_ret_acts _) fun _ => mutexUnlock_acts) fun r => ?_
  simp only [Radio.restart, Radio.report]
  split <;> rfl

theorem radioEnabledStatus_eq (b : Build) (s : Shared) :
    radioEnabledStatus b s = s.radio.status b := by
  exact antRadioEnabledStatus_acts.fst s

end simulation
end AntHal
