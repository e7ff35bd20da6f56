import AntHal.Chardev.RoundTrip
import AntHal.Chardev.FlowControl

/-!
What a successful `ant_tx_message` has written.

Both send routines compare the answer of `write` with the length that they are
given, an ANT_U8. The length of the packet is computed in that type too, so it
is the true one only where it fits.
-/

namespace AntHal

def antTxMessageFlowcontrolNone (iResult : Int) (ucMessageLength : UInt8) : AntStatus :=
  if iResult < 0 then .failed
  else if iResult ≠ ucMessageLength.toNat then .failed
  else .success

/-- What a send meets: the state and the answers at its section, and at each of
its wake-ups the answer of the wait and the state. In between the other threads
have changed the state in any way. -/
structure SendRun where
  n : Nat
  env : FlowEnv
  start : FlowShared
  wakes : List (Int × FlowShared)

/-- The loop at pthread_cond_timedwait, none while it goes on. -/
def wakeSections (d : HciDefines) (n : Nat) : List (Int × FlowShared) → Option AntStatus
  | [] => none
  | wake :: wakes =>
    match (wake.2.wakeSection d n wake.1).1 with
    | some status => some status
    | none => wakeSections d n wakes

def antTxMessageFlowcontrolWait (d : HciDefines) (run : SendRun) (ucMessageLength : UInt8) :
    Option AntStatus :=
  match (run.start.txSection d run.env run.n ucMessageLength).1 with
  | some status => some status
  | none => wakeSections d run.n run.wakes

namespace TxRequest

variable (r : TxRequest) (d : HciDefines) (run : SendRun)

/-- The send routine that the request goes to. -/
def send : Option AntStatus :=
  match r.eFlowMessagePath with
  | some _ => antTxMessageFlowcontrolWait d run r.ucMessageLength
  | none => some (antTxMessageFlowcontrolNone run.env.write r.ucMessageLength)

/-- The bytes that the driver has taken. -/
def accepted : List UInt8 := r.buffer.take run.env.write.toNat

end TxRequest

section success
variable {d : HciDefines} {run : SendRun} {ucMessageLength : UInt8}

theorem flowcontrolNone_success {iResult : Int} :
    antTxMessageFlowcontrolNone iResult ucMessageLength = .success ↔
      iResult = ucMessageLength.toNat := by
  unfold antTxMessageFlowcontrolNone
  split
  · simp only [reduceCtorEq, false_iff]
    omega
  · split <;> simp_all

/-- A section that neither fails at the lock nor at the write has written all. -/
theorem txSection_failed_or_written (d : HciDefines) (s : FlowShared) (env : FlowEnv) (n : Nat)
    (len : UInt8) : (s.txSection d env n len).1 = some .failed ∨ env.write = len.toNat := by
  unfold FlowShared.txSection
  split
  · exact .inl rfl
  · by_cases hw : env.write = len.toNat
    · exact .inr hw
    · refine .inl ?_
      simp only [ne_eq, hw, not_false_eq_true, if_true, ite_self]
      rfl

theorem flowcontrolWait_success
    (h : antTxMessageFlowcontrolWait d run ucMessageLength = some .success) :
    run.env.write = ucMessageLength.toNat := by
  unfold antTxMessageFlowcontrolWait at h
  obtain hfailed | hwritten := txSection_failed_or_written d run.start run.env run.n
    ucMessageLength
  · rw [hfailed] at h
    exact absurd h (by simp)
  · exact hwritten

/-- Success means that `write` has taken the length it was asked for. -/
theorem TxRequest.write_of_success {r : TxRequest} (h : r.send d run = some .success) :
    run.env.write = r.ucMessageLength.toNat := by
  unfold TxRequest.send at h
  split at h
  · exact flowcontrolWait_success h
  · exact flowcontrolNone_success.mp (Option.some.inj h)

theorem TxRequest.accepted_of_success {r : TxRequest} (h : r.send d run = some .success) :
    r.accepted run = r.buffer := by
  unfold TxRequest.accepted
  rw [TxRequest.write_of_success h, Int.toNat_natCast]
  exact List.take_of_length_le (by simp [TxRequest.buffer])

/-- A send whose message is written whole and answered by a GO. -/
def SendRun.answered (d : HciDefines) (s : FlowShared) (ucMessageLength : UInt8) : SendRun :=
  ⟨0, { write := ucMessageLength.toNat }, s,
    [(0, { s with info := { s.info with ucFlowControlResp := d.flowGo } })]⟩

theorem testGo_status (s : FlowShared) (n : Nat) :
    (s.testGo d n).1 = if s.info.ucFlowControlResp = d.flowGo then some .success else none := by
  unfold FlowShared.testGo
  by_cases hgo : s.info.ucFlowControlResp = d.flowGo
  · rw [if_neg (not_not.mpr hgo), if_pos hgo]
    rfl
  · rw [if_pos hgo, if_neg hgo]

theorem txSection_status (s : FlowShared) {env : FlowEnv} (hlock : env.iMutexResult = 0)
    (hwrite : env.write = ucMessageLength.toNat) (n : Nat) :
    (s.txSection d env n ucMessageLength).1 =
      if d.flowStop = d.flowGo then some .success else none := by
  have hpos : ¬ ((ucMessageLength.toNat : Int) < 0) := by omega
  unfold FlowShared.txSection
  rw [hlock, hwrite, if_neg (by simp), if_neg hpos, if_neg (by simp), testGo_status]
  rfl

theorem TxRequest.answered_success (r : TxRequest) (s : FlowShared) :
    r.send d (.answered d s r.ucMessageLength) = some .success := by
  unfold TxRequest.send
  split
  · have hwake : wakeSections d 0 (SendRun.answered d s r.ucMessageLength).wakes =
        some .success := by
      simp [SendRun.answered, wakeSections, FlowShared.wakeSection, testGo_status]
    unfold antTxMessageFlowcontrolWait
    rw [txSection_status _ rfl rfl]
    by_cases hgo : d.flowStop = d.flowGo
    · rw [if_pos hgo]
    · rw [if_neg hgo]
      exact hwake
  · exact congrArg some (flowcontrolNone_success.mpr rfl)

end success

section frame
variable {b : Build} {size : SizeField}

/-- The packet type byte of a message, or of any message where it is too short
to have an id. -/
def IsPacketType (ucLen : UInt8) (pucMesg : Memory) (t : UInt8) : Prop :=
  (t = antDataTypePacket ∨ t = antCmdTypePacket) ∧
    (antMsgIdOffset < ucLen.toNat →
      (t = antDataTypePacket ↔ pucMesg antMsgIdOffset ∈ dataMsgIds))

/-- The frame for a message: packet type, size field, payload. -/
def IsFrameFor (b : Build) (size : SizeField) (ucLen : UInt8) (pucMesg : Memory)
    (bytes : List UInt8) : Prop :=
  ∃ packetType : List UInt8, packetType.length = b.packetTypeSize ∧
    (∀ t ∈ packetType, IsPacketType ucLen pucMesg t) ∧
    bytes = packetType ++
      (sizeBytes size ucLen.toNat ++ (List.range ucLen.toNat).map pucMesg)

def frameLength (b : Build) (size : SizeField) (ucLen : UInt8) : Nat :=
  b.packetTypeSize + size.bytes + ucLen.toNat

theorem IsFrameFor.length_eq {ucLen : UInt8} {pucMesg : Memory} {bytes : List UInt8}
    (h : IsFrameFor b size ucLen pucMesg bytes) : bytes.length = frameLength b size ucLen := by
  obtain ⟨packetType, hlen, -, rfl⟩ := h
  simp [hlen, frameLength, Nat.add_assoc]

/-- The packet type byte tells data from commands by the id in the packet. -/
theorem antTxMessage_packetType (hb : b.hci = .plain size) {ucLen : UInt8}
    {pucMesg txBuffer : Memory} {r : TxRequest}
    (h : antTxMessage b .enabled ucLen pucMesg txBuffer = some r)
    (hpre : b.packetTypeSize = 1) : IsPacketType ucLen pucMesg (r.pucTxMessage 0) := by
  have hbackend : b.backend = .btVendor := by
    cases hback : b.backend with
    | vfs => simp [Build.packetTypeSize, hback] at hpre
    | btVendor => rfl
  simp only [antTxMessage, ne_eq, not_true_eq_false, if_false, hbackend,
    Option.some.injEq] at h
  subst h
  have hid : antMsgIdOffset < ucLen.toNat →
      fillTxBuffer b false ucLen pucMesg txBuffer
        (b.packetTypeSize + b.hci.dataOffset + antMsgIdOffset) = pucMesg antMsgIdOffset := by
    intro hlen
    rw [hb, HciDefines.plain_dataOffset, Nat.add_assoc,
      fillTxBuffer_plain hb _ _ _ _ (Nat.add_lt_add_left hlen _),
      List.getD_eq_default _ _ (by simp), Nat.add_sub_cancel_left]
  dsimp only [antTxMessageBtVendor]
  rw [if_pos hpre, Function.update_self]
  split
  case isTrue hdata =>
      refine ⟨.inl rfl, fun hlen => ⟨fun _ => ?_, fun _ => rfl⟩⟩
      rw [hid hlen] at hdata
      simpa using hdata
  case isFalse hdata =>
      refine ⟨.inr rfl, fun hlen => ⟨fun h => absurd h (by decide), fun hmem => ?_⟩⟩
      rw [hid hlen] at hdata
      exact absurd hmem (by simpa using hdata)

/-- A request with the true length is the frame. -/
theorem antTxMessage_frame (hb : b.hci = .plain size) {ucLen : UInt8}
    {pucMesg txBuffer : Memory} {r : TxRequest}
    (h : antTxMessage b .enabled ucLen pucMesg txBuffer = some r)
    (hlen : r.ucMessageLength.toNat = frameLength b size ucLen) :
    IsFrameFor b size ucLen pucMesg r.buffer := by
  refine ⟨(List.range b.packetTypeSize).map r.pucTxMessage, by simp, ?_, ?_⟩
  · intro t ht
    obtain ⟨i, hi, rfl⟩ := List.mem_map.mp ht
    have hone : b.packetTypeSize = 1 ∧ i = 0 := by
      have := b.packetTypeSize_le
      have := List.mem_range.mp hi
      omega
    rw [hone.2]
    exact antTxMessage_packetType hb h hone.1
  · rw [← antTxMessage_drop hb h hlen]
    refine (List.take_append_drop b.packetTypeSize r.buffer).symm.trans ?_
    congr 1
    have hle : b.packetTypeSize ≤ r.ucMessageLength.toNat := by
      rw [hlen]
      unfold frameLength
      omega
    rw [TxRequest.buffer, ← List.map_take, List.take_range, Nat.min_eq_left hle]

end frame

section whole
variable (b : Build) (size : SizeField) (ucLen : UInt8) (pucMesg txBuffer : Memory)

/-- The length that is passed to `write` is the one of the frame. -/
def LengthIsTrue : Prop :=
  ∀ r, antTxMessage b .enabled ucLen pucMesg txBuffer = some r →
    r.ucMessageLength.toNat = frameLength b size ucLen

/-- When the call succeeds, the driver has taken the frame and nothing else. -/
def SuccessIsWhole : Prop :=
  ∀ r, antTxMessage b .enabled ucLen pucMesg txBuffer = some r →
    ∀ run : SendRun, run.env.write ≤ r.ucMessageLength.toNat →
      r.send b.hci run = some .success → IsFrameFor b size ucLen pucMesg (r.accepted run)

variable {b size ucLen pucMesg txBuffer}

theorem antTxMessage_length_toNat (hb : b.hci = .plain size) {r : TxRequest}
    (h : antTxMessage b .enabled ucLen pucMesg txBuffer = some r) :
    r.ucMessageLength.toNat = frameLength b size ucLen % 256 := by
  rw [antTxMessage_length hb h]
  exact UInt8.toNat_ofNat'

theorem lengthIsTrue_iff (hb : b.hci = .plain size) :
    LengthIsTrue b size ucLen pucMesg txBuffer ↔ frameLength b size ucLen < 256 := by
  constructor
  · intro hall
    obtain ⟨r, hr⟩ := antTxMessage_enabled b ucLen pucMesg txBuffer
    rw [← hall r hr]
    exact r.ucMessageLength.toNat_lt
  · intro hlt r hr
    rw [antTxMessage_length_toNat hb hr, Nat.mod_eq_of_lt hlt]

theorem successIsWhole_iff (hb : b.hci = .plain size) :
    SuccessIsWhole b size ucLen pucMesg txBuffer ↔ frameLength b size ucLen < 256 := by
  constructor
  · intro hall
    obtain ⟨r, hr⟩ := antTxMessage_enabled b ucLen pucMesg txBuffer
    have hsuccess := r.answered_success (d := b.hci) (.init ⟨0, false, 0, 0⟩)
    have hframe := hall r hr _ (Int.le_refl _) hsuccess
    rw [TxRequest.accepted_of_success hsuccess] at hframe
    rw [← hframe.length_eq]
    simpa [TxRequest.buffer] using r.ucMessageLength.toNat_lt
  · intro hlt r hr run _ hsuccess
    rw [TxRequest.accepted_of_success hsuccess]
    exact antTxMessage_frame hb hr ((lengthIsTrue_iff hb).mpr hlt r hr)

/-- A transmit is whole exactly when its length fits the ANT_U8 that counts it. -/
theorem antTxMessage_whole_frame_iff (b : Build) (size : SizeField) (ucLen : UInt8)
    (pucMesg txBuffer : Memory) (hb : b.hci = .plain size) :
    (SuccessIsWhole b size ucLen pucMesg txBuffer ∧
        LengthIsTrue b size ucLen pucMesg txBuffer ↔ frameLength b size ucLen < 256) ∧
      (SuccessIsWhole b size ucLen pucMesg txBuffer ↔ frameLength b size ucLen < 256) := by
  rw [lengthIsTrue_iff hb, successIsWhole_iff hb]
  exact ⟨and_self_iff, Iff.rfl⟩

/-- The longest message that a UART build sends whole. -/
theorem antTxMessage_whole_frame_uart :
    SuccessIsWhole .uart .one 253 (fun _ => 0) (fun _ => 0) :=
  (antTxMessage_whole_frame_iff .uart .one 253 (fun _ => 0) (fun _ => 0) rfl).2.mpr (by decide)

/-- A message of 255 bytes succeeds although nothing of it is written. -/
theorem antTxMessage_wraps :
    ¬ ∀ (b : Build) (size : SizeField) (ucLen : UInt8) (pucMesg txBuffer : Memory),
      b.hci = .plain size →
        SuccessIsWhole b size ucLen pucMesg txBuffer ∧
          LengthIsTrue b size ucLen pucMesg txBuffer := by
  intro hall
  have h := (hall .smd .one 255 (fun _ => 0) (fun _ => 0) rfl).1
  rw [successIsWhole_iff rfl] at h
  exact absurd h (by decide)

end whole
end AntHal
