import AntHal.Bluez.ReceiveThread

/-!
Which operations each function of the BlueZ back end performs.

A query looks at the radio and reports it; with the power library and the receive
thread it becomes the control of the radio, which is done under the locks. A send
works on its socket.
-/

namespace AntHal.Bluez

open Concurrency

/-- What a status query and a report of it do. -/
@[local simp] def queryOp : Op → Bool
  | .funcStart _ | .funcEnd _ _ | .getRadioStatus | .returnRadioStatus | .setRadioStatus _
  | .antIsEnabled | .getStateCallback | .stateCallback _ => true
  | _ => false

/-- What is done to the radio with both locks. -/
@[local simp] def controlOp : Op → Bool
  | .getThread | .clearThread | .antEnable | .antDisable | .pthreadCreate | .pthreadJoin _ => true
  | o => queryOp o

/-- What a call does that enables or disables the radio. -/
@[local simp] def callOp : Op → Bool
  | .mutexLock _ | .mutexUnlock _ | .unlockReturn _ _ => true
  | o => controlOp o

/-- What a call does with the socket it has opened. -/
@[local simp] def transmitOp : Op → Bool
  | .mutexUnlock _ | .funcEnd _ _ | .getCmdSocket | .poll _ | .read _ | .writev _ _ | .close _
  | .time | .nanosleep => true
  | _ => false

def IsQuery (o : Op) : Prop := queryOp o = true

def IsControl (o : Op) : Prop := controlOp o = true

def IsCall (o : Op) : Prop := callOp o = true

def IsTransmit (o : Op) : Prop := transmitOp o = true

variable {b : Build} {α : Type} {p : Cmd α}

abbrev Queries (p : Cmd α) : Prop := p.Only IsQuery fun _ => True

abbrev Controls (p : Cmd α) : Prop := p.Only IsControl fun _ => True

abbrev Calls (p : Cmd α) : Prop := p.Only IsCall fun _ => True

abbrev Transmits (p : Cmd α) : Prop := p.Only IsTransmit fun _ => True

theorem Queries.controls (h : Queries p) : Controls p :=
  h.mono (fun o ho => by cases o <;> first | rfl | cases ho) fun _ _ => trivial

theorem call_of_control {o : Op} (ho : IsControl o) : IsCall o := by
  cases o <;> first | rfl | cases ho

theorem Controls.calls (h : Controls p) : Calls p :=
  h.mono (fun _ => call_of_control) fun _ _ => trivial

section querying

theorem reportRadioStatus_queries : Queries reportRadioStatus := by
  simp [reportRadioStatus, IsQuery]

theorem getAndSetRadioStatus_queries : Queries (getAndSetRadioStatus b) := by
  have hrefresh : Queries (withPowerLibrary b refreshRadioStatus) := by
    refine Prog.only_ite.mpr ⟨fun _ => ?_, fun _ => trivial⟩
    simp [refreshRadioStatus, IsQuery, reportRadioStatus_queries]
  exact (Prog.only_op _ _).mpr ⟨rfl, fun _ => hrefresh.bind fun _ _ => by simp [IsQuery]⟩

theorem antRadioEnabledStatus_queries : Queries (antRadioEnabledStatus b) := by
  have hrefresh : Queries (refreshUnlessInTransition b) := by
    simp only [refreshUnlessInTransition, Prog.op_bind, Prog.ret_bind, Prog.pure_eq, Prog.only_op,
      Prog.only_ite, Prog.only_ret, implies_true, and_true]
    exact ⟨rfl, fun _ _ => ⟨rfl, fun _ _ => getAndSetRadioStatus_queries.bind fun _ _ => trivial⟩⟩
  exact (Prog.only_op _ _).mpr ⟨rfl, fun _ => hrefresh.bind fun _ _ => by simp [IsQuery]⟩

end querying

section controlling

theorem joinThread_controls : Controls joinThread := by
  simp [joinThread, IsControl]

/-- Enabling uses the power library and the receive thread. -/
theorem enableRadioLocked_controls : Controls (enableRadioLocked b) := by
  have hbegin (status : RadioStatus) : Controls (beginEnabling b status) := by
    refine Prog.only_ite.mpr ⟨fun _ => joinThread_controls.bind fun _ _ => ?_, fun _ => trivial⟩
    exact (Prog.only_op _ _).mpr ⟨rfl, fun _ =>
      Prog.only_ite.mpr ⟨fun _ => reportRadioStatus_queries.controls, fun _ => trivial⟩⟩
  have hpower : Controls (powerOn b) := by
    simp [powerOn, IsControl]
  have hthread : Controls (enabledWithThread b) := by
    simp [enabledWithThread, IsControl, reportRadioStatus_queries.controls]
  have hconnect (result : Int) : Controls (connectThread b result) := by
    refine Prog.only_ite.mpr ⟨fun _ => ?_, fun _ => trivial⟩
    refine (Prog.only_op _ _).mpr ⟨rfl, fun thread => Prog.only_ite.mpr ⟨fun _ => ?_, fun _ => ?_⟩⟩
    · simp [IsControl]
    · exact (Prog.only_op _ _).mpr ⟨rfl, fun result =>
        Prog.only_ite.mpr ⟨fun _ => trivial, fun _ => hthread.bind fun _ _ => trivial⟩⟩
  have hclean (ret : AntStatus) : Controls (enableCleanUp b ret) := by
    refine Prog.only_ite.mpr ⟨fun _ => ?_, fun _ => trivial⟩
    have hdisable : Controls (withPowerLibrary b (antDisable >>= fun _ => .ret ())) := by
      simp [withPowerLibrary, IsControl]
    exact hdisable.bind fun _ _ => getAndSetRadioStatus_queries.controls.bind fun _ _ => trivial
  exact getAndSetRadioStatus_queries.controls.bind fun status _ => (hbegin status).bind fun _ _ =>
    hpower.bind fun result _ => (hconnect result).bind fun ret _ => (hclean ret).bind fun _ _ =>
      trivial

theorem disableRadioLocked_controls : Controls (disableRadioLocked b) := by
  have hannounce (status : RadioStatus) : Controls (announceDisabling status) := by
    refine Prog.only_ite.mpr ⟨fun _ => ?_, fun _ => trivial⟩
    exact (Prog.only_op _ _).mpr ⟨rfl, fun _ => reportRadioStatus_queries.controls⟩
  have hbegin : Controls (beginDisabling b) := by
    refine Prog.only_ite.mpr ⟨fun _ => ?_, fun _ => by simp [IsControl]⟩
    refine getAndSetRadioStatus_queries.controls.bind fun status _ => ?_
    refine (hannounce status).bind fun _ _ => ?_
    simp [IsControl]
  exact hbegin.bind fun _ _ => joinThread_controls.bind fun _ _ =>
    getAndSetRadioStatus_queries.controls.bind fun _ _ => trivial

theorem crashDisable_controls : Controls (crashDisable b) := by
  refine Prog.only_ite.mpr ⟨fun _ => ?_, fun _ => by simp [IsControl]⟩
  have hreport : Controls reportDisabling := by
    simp [reportDisabling, IsControl]
  refine hreport.bind fun _ _ => ?_
  exact (Prog.only_op _ _).mpr ⟨rfl, fun _ =>
    getAndSetRadioStatus_queries.controls.bind fun _ _ => trivial⟩

end controlling

section calling

theorem underTxLock_calls {f : Func} {locked : Cmd AntStatus} (h : Controls locked) :
    Calls (underTxLock f locked) := by
  simp only [underTxLock, Prog.op_bind, Prog.ret_bind, Prog.pure_eq, Prog.only_op, Prog.only_ite]
  refine ⟨rfl, fun _ => ⟨fun _ => ⟨rfl, fun _ => trivial⟩, fun _ => h.calls.bind fun ret _ => ?_⟩⟩
  exact (Prog.only_op _ _).mpr ⟨rfl, fun _ => (Prog.only_op _ _).mpr ⟨rfl, fun _ => trivial⟩⟩

theorem antEnableRadio_calls : Calls (antEnableRadio b) := by
  have hmark : Calls markEnabling := by
    simp [markEnabling, IsCall]
  simp only [antEnableRadio, Prog.op_bind, Prog.ret_bind, Prog.pure_eq, Prog.only_op, Prog.only_ite]
  exact ⟨rfl, fun _ => ⟨rfl, fun _ => ⟨fun _ => ⟨rfl, fun _ => trivial⟩, fun _ =>
    hmark.bind fun _ _ => underTxLock_calls enableRadioLocked_controls⟩⟩⟩

theorem antDisableRadio_calls : Calls (antDisableRadio b) := by
  simp only [antDisableRadio, Prog.op_bind, Prog.ret_bind, Prog.pure_eq, Prog.only_op,
    Prog.only_ite]
  exact ⟨rfl, fun _ => ⟨rfl, fun _ => ⟨fun _ => ⟨rfl, fun _ => trivial⟩, fun _ =>
    underTxLock_calls disableRadioLocked_controls⟩⟩⟩

/-- The clean-up of the receive thread only releases enableLock. -/
theorem crashCleanUp_unlocks (result : Int) :
    (crashCleanUp b result).Only (fun o => IsControl o ∨ o = .mutexUnlock .enableLock)
      fun _ => True := by
  refine Prog.only_ite.mpr ⟨fun _ => ?_, fun _ => trivial⟩
  refine (crashDisable_controls.mono (fun _ ho => .inl ho) fun _ h => h).bind fun _ _ => ?_
  simp [IsControl]

theorem crashCleanUp_calls (result : Int) : Calls (crashCleanUp b result) :=
  (crashCleanUp_unlocks result).mono
    (fun _ ho => ho.elim call_of_control fun heq => congrArg callOp heq) fun _ h => h

end calling

section sending

theorem txWrite_transmits (tx : Sending) : Transmits (txWrite b tx) := by
  simp [txWrite, IsTransmit]

theorem txWait_transmits (tx : Sending) : Transmits (txWait tx) := by
  simp [txWait, IsTransmit]

theorem handleCommandComplete_transmits (tx : Sending) : Transmits (handleCommandComplete tx) := by
  unfold handleCommandComplete
  split
  · trivial
  · dsimp only
    split <;> trivial
  · refine (Prog.only_op _ _).mpr ⟨rfl, fun _ => (Prog.only_op _ _).mpr ⟨rfl, fun now => ?_⟩⟩
    cases now <;> trivial
  · trivial

theorem txRead_transmits (tx : Sending) : Transmits (txRead b tx) := by
  simp only [txRead, Prog.op_bind, Prog.ret_bind, Prog.pure_eq, Prog.only_op]
  refine ⟨rfl, fun packet => ?_⟩
  cases packet with
  | again => trivial
  | error | ok => exact handleCommandComplete_transmits _

theorem txClose_transmits (tx : Sending) : Transmits (txClose tx) := by
  have hclose : Transmits (antCloseTxTransport tx.txSocket) := by
    simp [antCloseTxTransport, IsTransmit]
  exact hclose.bind fun _ _ => by simp [IsTransmit]

end sending
end AntHal.Bluez
