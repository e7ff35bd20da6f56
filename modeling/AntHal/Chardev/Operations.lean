import AntHal.Chardev.LockInvariant

/-!
Which operations each function of the character-device back ends performs.

A function either looks at the state and reports it, or it works on the radio:
its channels, its receive thread and the run flag. The locks, the reset flag and
the keepalive wait are touched at few places, outside of these.
-/

namespace AntHal

open Concurrency

/-- What a status query and a report of it do. -/
def observeOp : Op → Bool
  | .getChipResetting | .getRunThread | .getRxThread | .getFd _ | .getStateCallback
  | .stateCallback _ => true
  | _ => false

/-- What `ant_enable` does. -/
def enableOp : Op → Bool
  | .funcStart _ | .funcEnd _ _ | .setRunThread _ | .getRunThread | .eventfdRead | .getRxThread
  | .pthreadCreate => true
  | o => channelOp o

/-- What `ant_disable` does. -/
def disableOp : Op → Bool
  | .funcStart _ | .funcEnd _ _ | .setRunThread _ | .getRxThread | .eventfdWrite | .pthreadJoin _
  | .clearRxThread => true
  | o => channelOp o

def radioOp (o : Op) : Bool := enableOp o || disableOp o

/-- What is done under the lock, apart from a reset. -/
def sectionOp (o : Op) : Bool := observeOp o || radioOp o

/-- What the receive thread does in its loop. -/
def loopOp : Op → Bool
  | .funcStart _ | .getFd _ | .getRunThread | .setRunThread false | .getWaiting | .setWaiting _
  | .poll | .readChannelMsg _ | .eventfdRead | .keepAliveCreate | .pthreadDetach _ => true
  | _ => false

theorem section_of_observe {o : Op} (h : observeOp o = true) : sectionOp o = true := by
  simp [sectionOp, h]

theorem section_of_radio {o : Op} (h : radioOp o = true) : sectionOp o = true := by
  simp [sectionOp, h]

theorem section_plain {o : Op} (h : sectionOp o = true) : lockAct o = .plain := by
  cases o <;> first | rfl | cases h

theorem enable_of_channel {o : Op} (h : channelOp o = true) : enableOp o = true := by
  cases o <;> first | rfl | cases h

theorem disable_of_channel {o : Op} (h : channelOp o = true) : disableOp o = true := by
  cases o <;> first | rfl | cases h

theorem radio_of_enable {o : Op} (h : enableOp o = true) : radioOp o = true := by
  simp [radioOp, h]

theorem radio_of_disable {o : Op} (h : disableOp o = true) : radioOp o = true := by
  simp [radioOp, h]

section observing
variable {b : Build}

theorem countOpenFiles_observes (chs : List AntChannelType) :
    (countOpenFiles chs).Only (observeOp · = true) fun _ => True := by
  induction chs with
  | nil => trivial
  | cons ch chs ih =>
      rw [countOpenFiles, Prog.op_bind, Prog.only_op]
      exact ⟨rfl, fun _ => ih.bind fun _ _ => trivial⟩

theorem antRadioEnabledStatus_observes :
    (antRadioEnabledStatus b).Only (observeOp · = true) fun _ => True := by
  simp only [antRadioEnabledStatus, Prog.op_bind, Prog.ret_bind, Prog.only_op, Prog.only_ite]
  refine ⟨rfl, fun _ => ⟨fun _ => trivial, fun _ => ?_⟩⟩
  exact (countOpenFiles_observes _).bind fun _ _ => by simp [observeOp]

theorem reportStatus_observes {status : Cmd RadioStatus}
    (h : status.Only (observeOp · = true) fun _ => True) :
    (reportStatus status).Only (observeOp · = true) fun _ => True := by
  simp only [reportStatus, Prog.op_bind, Prog.ret_bind, Prog.only_op, Prog.only_ite]
  exact ⟨rfl, fun _ => ⟨fun _ => h.bind fun _ _ => by simp [observeOp], fun _ => trivial⟩⟩

theorem report_observes (status : RadioStatus) :
    (reportStatus (return status)).Only (observeOp · = true) fun _ => True :=
  reportStatus_observes trivial

end observing

section working
variable {b : Build}

theorem antEnableOut_works (iRet : Int) :
    (antEnableOut b iRet).Only (enableOp · = true) fun _ => True := by
  have hflag : (releaseRunFlag b).Only (enableOp · = true) fun _ => True := by
    unfold releaseRunFlag
    cases b.backend with
    | vfs => simp [enableOp]
    | btVendor => trivial
  exact hflag.bind fun _ _ => by simp [enableOp]

theorem antEnable_works : (antEnable b).Only (enableOp · = true) fun _ => True := by
  have hcheck : (antEnableCheck b).Only (enableOp · = true) fun _ => True := by
    simp only [antEnableCheck, Prog.op_bind, Prog.ret_bind, Prog.only_op, Prog.only_ite]
    exact ⟨rfl, fun _ => ⟨fun _ => antEnableOut_works _, fun _ => antEnableOut_works _⟩⟩
  have hchannels : (enableChannels b b.channels).Only (enableOp · = true) fun _ => True :=
    (enableChannels_only _).mono (fun _ => enable_of_channel) fun _ h => h
  simp only [antEnable, Prog.op_bind, Prog.ret_bind, Prog.only_op, Prog.only_ite]
  refine ⟨rfl, fun _ => ⟨rfl, fun _ => ⟨fun _ => antEnableOut_works _, fun _ => ⟨rfl, fun _ =>
    hchannels.bind fun _ _ => Prog.only_ite.mpr ⟨fun _ => antEnableOut_works _, fun _ => ?_⟩⟩⟩⟩⟩
  simp only [Prog.only_op, Prog.only_ite]
  exact ⟨rfl, fun _ => ⟨fun _ => ⟨rfl, fun _ => ⟨fun _ => antEnableOut_works _, fun _ => hcheck⟩⟩,
    fun _ => hcheck⟩⟩

theorem antDisable_works : (antDisable b).Only (disableOp · = true) fun _ => True := by
  have hout (iRet : Int) : (antDisableOut iRet).Only (disableOp · = true) fun _ => True := by
    simp [antDisableOut, disableOp]
  have hclose : (disableChannels b b.channels >>= fun _ => antDisableOut 0).Only
      (disableOp · = true) fun _ => True :=
    ((disableChannels_only _).mono (fun _ => disable_of_channel) fun _ h => h).bind
      fun _ _ => hout 0
  simp only [antDisable, Prog.op_bind, Prog.ret_bind, Prog.only_op, Prog.only_ite]
  exact ⟨rfl, fun _ => ⟨rfl, fun _ => ⟨rfl, fun _ => ⟨fun _ => ⟨rfl, fun _ => ⟨fun _ => hout _,
    fun _ => ⟨rfl, fun _ => ⟨rfl, fun _ => ⟨fun _ => hout _, fun _ => hclose⟩⟩⟩⟩⟩,
      fun _ => hclose⟩⟩⟩⟩

theorem report_section (status : RadioStatus) :
    (reportStatus (return status)).Only (sectionOp · = true) fun _ => True :=
  (report_observes status).mono (fun _ => section_of_observe) fun _ h => h

theorem reportEnabled_section :
    (reportStatus (antRadioEnabledStatus b)).Only (sectionOp · = true) fun _ => True :=
  (reportStatus_observes antRadioEnabledStatus_observes).mono (fun _ => section_of_observe)
    fun _ h => h

theorem antEnable_section : (antEnable b).Only (sectionOp · = true) fun _ => True :=
  antEnable_works.mono (fun _ ho => section_of_radio (radio_of_enable ho)) fun _ h => h

theorem antDisable_section : (antDisable b).Only (sectionOp · = true) fun _ => True :=
  antDisable_works.mono (fun _ ho => section_of_radio (radio_of_disable ho)) fun _ h => h

theorem enableRadioLocked_section :
    (enableRadioLocked b).Only (sectionOp · = true) fun _ => True := by
  have hbody : (enableRadioBody b).Only (sectionOp · = true) fun _ => True := by
    refine (report_section _).bind fun _ _ => antEnable_section.bind fun iRet _ =>
      Prog.only_ite.mpr ⟨fun _ => ?_, fun _ => ?_⟩
    · exact antDisable_section.bind fun _ _ => reportEnabled_section.bind fun _ _ => trivial
    · exact (report_section _).bind fun _ _ => trivial
  unfold enableRadioLocked
  cases b.backend with
  | btVendor => exact hbody
  | vfs =>
      refine (antRadioEnabledStatus_observes.mono (fun _ => section_of_observe) fun _ h => h).bind
        fun current _ => Prog.only_ite.mpr ⟨fun _ => hbody, fun _ => trivial⟩

theorem disableRadioLocked_section :
    (disableRadioLocked b).Only (sectionOp · = true) fun _ => True := by
  have hbody : (disableRadioBody b).Only (sectionOp · = true) fun _ => True :=
    (report_section _).bind fun _ _ => antDisable_section.bind fun _ _ => reportEnabled_section
  unfold disableRadioLocked
  cases b.backend with
  | btVendor => exact hbody
  | vfs =>
      refine (antRadioEnabledStatus_observes.mono (fun _ => section_of_observe) fun _ h => h).bind
        fun current _ => Prog.only_ite.mpr ⟨fun _ => hbody, fun _ => trivial⟩

end working

section looping
variable {b : Build}

theorem handleChannels_loops (revents : AntChannelType → UInt16) (chs : List AntChannelType) :
    (handleChannels b revents chs).Only (loopOp · = true) fun _ => True := by
  induction chs with
  | nil => trivial
  | cons ch chs ih =>
      simp only [handleChannels, Prog.op_bind, Prog.ret_bind, Prog.pure_eq, Prog.only_ite]
      refine ⟨fun _ => trivial, fun _ => ⟨fun _ => trivial, fun _ => ⟨fun _ => ?_, fun _ =>
        ⟨fun _ => trivial, fun _ => ⟨fun _ => trivial, fun _ => ih⟩⟩⟩⟩⟩
      simp only [Prog.only_op, Prog.only_ite]
      refine ⟨rfl, fun _ => ⟨rfl, fun _ => ⟨fun _ => ?_, fun _ => ih⟩⟩⟩
      cases b.backend with
      | vfs => trivial
      | btVendor => exact (Prog.only_op _ _).mpr ⟨rfl, fun _ => ih⟩

theorem rxStart_loops : (rxStart b).Only (loopOp · = true) (· = some .rxLoop) := by
  have hread (chs : List AntChannelType) :
      (rxStart.readFds chs).Only (loopOp · = true) fun _ => True := by
    induction chs with
    | nil => trivial
    | cons ch chs ih =>
        rw [rxStart.readFds, Prog.op_bind, Prog.only_op]
        exact ⟨rfl, fun _ => ih⟩
  simp only [rxStart, Prog.op_bind, Prog.ret_bind, Prog.only_op]
  exact ⟨rfl, fun _ => (hread _).bind fun _ _ => by simp [loopOp]⟩

theorem rxLoop_loops : (rxLoop b).Only (loopOp · = true)
    (fun l => l = some .rxLoop ∨ l = some .rxClose ∨ l = some .doReset) := by
  have hshutdown (revents : UInt16) :
      (handleShutdown revents).Only (loopOp · = true) fun _ => True := by
    simp [handleShutdown, loopOp]
  simp only [rxLoop, Prog.op_bind, Prog.ret_bind, Prog.pure_eq, Prog.only_op, Prog.only_ite]
  refine ⟨rfl, fun _ => ⟨by simp, fun _ => ⟨rfl, fun _ => ⟨rfl, fun result => ⟨fun _ =>
    ⟨rfl, fun waiting => ⟨fun _ => ⟨rfl, fun _ => ⟨rfl, fun _ => ⟨rfl, fun _ => by simp⟩⟩⟩,
      fun _ => by simp⟩⟩, fun _ => ⟨by simp, fun _ =>
        (handleChannels_loops _ _).bind fun reset _ => Prog.only_ite.mpr ⟨by simp, fun _ =>
          (hshutdown _).bind fun _ _ => by simp⟩⟩⟩⟩⟩⟩⟩

end looping

section calls
variable {b : Build}

/-- What a call without a reset does: sections, and the lock around them. -/
def callOp (o : Op) : Bool := sectionOp o || decide (lockAct o ≠ .plain)

theorem call_of_section {o : Op} (h : sectionOp o = true) : callOp o = true := by
  simp [callOp, h]

theorem only_call {α : Type} {Q : α → Prop} {p : Cmd α} (h : p.Only (sectionOp · = true) Q) :
    p.Only (callOp · = true) Q :=
  h.mono (fun _ => call_of_section) fun _ h => h

theorem antEnableRadio_calls : (antEnableRadio b).Only (callOp · = true) fun _ => True := by
  simp only [antEnableRadio, Prog.op_bind, Prog.ret_bind, Prog.pure_eq, Prog.only_op, Prog.only_ite]
  refine ⟨rfl, fun _ => ⟨rfl, fun _ => ⟨fun _ => ⟨rfl, fun _ => trivial⟩, fun _ => ?_⟩⟩⟩
  exact (only_call enableRadioLocked_section).bind fun _ _ => (Prog.only_op _ _).mpr
    ⟨rfl, fun _ => (Prog.only_op _ _).mpr ⟨rfl, fun _ => trivial⟩⟩

theorem antDisableRadio_calls : (antDisableRadio b).Only (callOp · = true) fun _ => True := by
  simp only [antDisableRadio, Prog.op_bind, Prog.ret_bind, Prog.pure_eq, Prog.only_op,
    Prog.only_ite]
  refine ⟨rfl, fun _ => ⟨rfl, fun _ => ⟨fun _ => ⟨rfl, fun _ => trivial⟩, fun _ => ?_⟩⟩⟩
  exact (only_call disableRadioLocked_section).bind fun _ _ => (Prog.only_op _ _).mpr
    ⟨rfl, fun _ => (Prog.only_op _ _).mpr ⟨rfl, fun _ => trivial⟩⟩

/-- The clean-up only tries to take the lock. -/
theorem rxClose_calls :
    (rxClose b).Only (fun o => callOp o = true ∧ o ≠ .mutexLock) (· = none) := by
  have hclean (result : Int) : (crashCleanUp b result).Only
      (fun o => callOp o = true ∧ o ≠ .mutexLock) fun _ => True := by
    have hsection {α : Type} {p : Cmd α} (h : p.Only (sectionOp · = true) fun _ => True) :
        p.Only (fun o => callOp o = true ∧ o ≠ .mutexLock) fun _ => True :=
      h.mono (fun o ho => ⟨call_of_section ho, by rintro rfl; cases ho⟩) fun _ h => h
    refine Prog.only_ite.mpr ⟨fun _ => ?_, fun _ => trivial⟩
    exact (Prog.only_op _ _).mpr ⟨⟨rfl, by simp⟩, fun _ => (hsection (report_section _)).bind
      fun _ _ => (hsection antDisable_section).bind fun _ _ =>
        (hsection reportEnabled_section).bind fun _ _ =>
          (Prog.only_op _ _).mpr ⟨⟨rfl, by simp⟩, fun _ => trivial⟩⟩
  simp only [rxClose, Prog.op_bind, Prog.ret_bind, Prog.only_op]
  refine ⟨⟨rfl, by simp⟩, fun _ => (hclean _).bind fun _ _ => ?_⟩
  exact (Prog.only_op _ _).mpr ⟨⟨rfl, by simp⟩, fun _ => rfl⟩

end calls
end AntHal
