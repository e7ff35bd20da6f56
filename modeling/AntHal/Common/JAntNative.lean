import AntHal.Chardev.WholeFrame
import AntHal.Bluez.Retry
import AntHal.Bluez.PacketFormats

/-!
The Java entry point of JAntNative.cpp, over each of the back ends.

The entry point narrows the length of the array to a byte. What a call does then
is stated as a relation: the status that it returns, and what it has handed to
the transport, in every way that the outside can let it go.
-/

namespace AntHal

open Concurrency

/-- The back end that JAntNative.cpp is linked to. -/
inductive LinkedBackEnd where
  | chardev (b : Build)
  | bluez (b : Bluez.Build)

/-- What a call of `ant_tx_message` returns, and every buffer that it has passed
to write or writev. -/
structure Transmission where
  status : AntStatus
  handed : List (List UInt8)

/-- Without stFlowControlLock nothing is written. -/
def TxRequest.handed (r : TxRequest) (run : SendRun) : List (List UInt8) :=
  match r.eFlowMessagePath with
  | some _ => if run.env.iMutexResult ≠ 0 then [] else [r.buffer]
  | none => [r.buffer]

namespace Bluez

def CallStep.writev? (e : CallStep) : Option (List UInt8) :=
  match e with
  | ⟨.writev _ bytes, _⟩ => some bytes
  | _ => none

def handed (es : List CallStep) : List (List UInt8) := es.filterMap CallStep.writev?

end Bluez

namespace LinkedBackEnd

variable (l : LinkedBackEnd)

/-- A call of `ant_tx_message` can go so. -/
def AntTxMessage (ucLen : UInt8) (pucMesg : Memory) (x : Transmission) : Prop :=
  match l with
  | .chardev b => ∃ status txBuffer,
    match antTxMessage b status ucLen pucMesg txBuffer with
    | none => x = ⟨.failedBtNotInitialized, []⟩
    | some r => ∃ run, r.send b.hci run = some x.status ∧ x.handed = r.handed run
  | .bluez b => ∃ es,
    CallTrace (Bluez.body b) (.txMessage ((List.range ucLen.toNat).map pucMesg)) es ∧
      Bluez.returned es = some x.status ∧ x.handed = Bluez.handed es

/-- What stands in a buffer before the message. -/
def headerLength : Nat :=
  match l with
  | .chardev b => b.packetTypeSize + b.hci.headerSize
  | .bluez b => 4 + b.board.hciCommandVendorHdrSize.toNat

def payload (bytes : List UInt8) : List UInt8 := bytes.drop l.headerLength

/-- A frame for so many bytes is counted by a byte: the whole packet, or the
parameters of an HCI command. -/
def FitsFrame (n : Nat) : Prop :=
  match l with
  | .chardev b => b.packetTypeSize + b.hci.headerSize + n ≤ 255
  | .bluez b => b.board.hciCommandVendorHdrSize.toNat + n ≤ 255

/-- The elements of an array, with arbitrary memory behind them. -/
def msgBytes (msg : List UInt8) (behind : Memory) : Memory := fun i => msg.getD i (behind i)

/-- `nativeJAnt_TxMessage`: an exception for a null array, else the status of
`ant_tx_message`. -/
def NativeJAntTxMessage (behind : Memory) : Option (List UInt8) → Option Transmission → Prop
  | none, result => result = none
  | some msg, result => ∃ x,
    l.AntTxMessage (UInt8.ofNat msg.length) (msgBytes msg behind) x ∧ result = some x

/-- In a call with success the transport gets the whole array. An array that is
too long for a frame fails before anything is written. -/
def NeverCutShort (msg : List UInt8) : Prop :=
  ∀ behind x, l.NativeJAntTxMessage behind (some msg) (some x) →
    (x.status = .success → x.handed ≠ [] ∧ ∀ bytes ∈ x.handed, l.payload bytes = msg) ∧
      (¬ l.FitsFrame msg.length → x.status ≠ .success ∧ x.handed = [])

end LinkedBackEnd

theorem nativeJAntTxMessage_some {l : LinkedBackEnd} {behind : Memory} {msg : List UInt8}
    {x : Transmission} : l.NativeJAntTxMessage behind (some msg) (some x) ↔
      l.AntTxMessage (UInt8.ofNat msg.length) (LinkedBackEnd.msgBytes msg behind) x := by
  constructor
  · intro ⟨y, hy, heq⟩
    rwa [Option.some.inj heq]
  · exact fun hx => ⟨x, hx, rfl⟩

/-- A byte counts an array that fits. -/
theorem msgBytes_narrowed {msg : List UInt8} {behind : Memory} (h : msg.length ≤ 255) :
    (List.range (UInt8.ofNat msg.length).toNat).map (LinkedBackEnd.msgBytes msg behind) = msg := by
  rw [UInt8.toNat_ofNat_of_lt' (Nat.lt_succ_of_le h)]
  exact map_range_getD msg behind

section chardev
variable {b : Build} {status : RadioStatus} {ucLen : UInt8} {pucMesg txBuffer : Memory}
  {r : TxRequest}

theorem antTxMessage_request (h : antTxMessage b status ucLen pucMesg txBuffer = some r) :
    r = antTxMessageVfs b ucLen pucMesg txBuffer ∧ b.packetTypeSize = 0 ∨
      r = antTxMessageBtVendor b ucLen pucMesg txBuffer := by
  unfold antTxMessage at h
  split at h
  · cases h
  · split at h
    case h_1 hbackend =>
        exact .inl ⟨(Option.some.inj h).symm, by simp [Build.packetTypeSize, hbackend]⟩
    case h_2 => exact .inr (Option.some.inj h).symm

/-- The length of the packet is computed in a byte, for every framing. -/
theorem antTxMessage_ucMessageLength
    (h : antTxMessage b status ucLen pucMesg txBuffer = some r) :
    r.ucMessageLength =
      UInt8.ofNat (b.packetTypeSize + b.hci.headerSize + ucLen.toNat) := by
  obtain ⟨rfl, hpre⟩ | rfl := antTxMessage_request h
  · simp only [antTxMessageVfs, hpre, Nat.zero_add, Nat.add_comm]
  · simp only [antTxMessageBtVendor, Nat.add_assoc, Nat.add_comm]

theorem fillTxBuffer_message (bIsData : Bool) {j : Nat} (hj : j < ucLen.toNat) :
    fillTxBuffer b bIsData ucLen pucMesg txBuffer
      (b.packetTypeSize + b.hci.headerSize + j) = pucMesg j := by
  simp only [fillTxBuffer, memcpy]
  rw [if_pos (by omega), Nat.add_sub_cancel_left]

/-- The message stands behind the header, for every framing. -/
theorem antTxMessage_message (h : antTxMessage b status ucLen pucMesg txBuffer = some r)
    {j : Nat} (hj : j < ucLen.toNat) :
    r.pucTxMessage (b.packetTypeSize + b.hci.headerSize + j) = pucMesg j := by
  obtain ⟨rfl, -⟩ | rfl := antTxMessage_request h
  · exact fillTxBuffer_message _ hj
  · have hheader := b.hci.sizeOffset_lt_headerSize
    dsimp only [antTxMessageBtVendor]
    split
    · rw [Function.update_of_ne (by omega)]
      exact fillTxBuffer_message false hj
    · exact fillTxBuffer_message false hj

theorem antTxMessage_payload (h : antTxMessage b status ucLen pucMesg txBuffer = some r)
    (hfits : b.packetTypeSize + b.hci.headerSize + ucLen.toNat ≤ 255) :
    (LinkedBackEnd.chardev b).payload r.buffer = (List.range ucLen.toNat).map pucMesg := by
  have hlen : r.ucMessageLength.toNat = b.packetTypeSize + b.hci.headerSize + ucLen.toNat := by
    rw [antTxMessage_ucMessageLength h, UInt8.toNat_ofNat_of_lt' (Nat.lt_succ_of_le hfits)]
  rw [LinkedBackEnd.payload, LinkedBackEnd.headerLength, TxRequest.buffer, hlen]
  apply List.ext_getElem
  · simp
  · intro j hj _
    have hlt : j < ucLen.toNat := by simpa using hj
    simp only [List.getElem_drop, List.getElem_map, List.getElem_range]
    exact antTxMessage_message h hlt

/-- A send with success has had the lock. -/
theorem TxRequest.handed_of_success {d : HciDefines} {run : SendRun}
    (h : r.send d run = some .success) : r.handed run = [r.buffer] := by
  unfold TxRequest.handed
  unfold TxRequest.send at h
  split
  case h_1 path hpath =>
      rw [if_neg]
      intro hlock
      simp only [hpath, antTxMessageFlowcontrolWait, FlowShared.txSection, if_pos hlock,
        FlowShared.leave] at h
      cases h
  case h_2 => rfl

theorem neverCutShort_chardev (b : Build) {msg : List UInt8}
    (hfits : (LinkedBackEnd.chardev b).FitsFrame msg.length) :
    (LinkedBackEnd.chardev b).NeverCutShort msg := by
  intro behind x hx
  refine ⟨fun hsuccess => ?_, fun hlong => absurd hfits hlong⟩
  have htotal : b.packetTypeSize + b.hci.headerSize + msg.length ≤ 255 := hfits
  obtain ⟨status, txBuffer, hcall⟩ := nativeJAntTxMessage_some.mp hx
  split at hcall
  case h_1 =>
      rw [hcall] at hsuccess
      cases hsuccess
  case h_2 r hr =>
      obtain ⟨run, hstatus, hhanded⟩ := hcall
      rw [hsuccess] at hstatus
      rw [hhanded, TxRequest.handed_of_success hstatus]
      refine ⟨by simp, List.forall_mem_singleton.mpr ?_⟩
      have hn : (UInt8.ofNat msg.length).toNat = msg.length :=
        UInt8.toNat_ofNat_of_lt' (Nat.lt_succ_of_le (by omega))
      rw [antTxMessage_payload hr (by rwa [hn])]
      exact msgBytes_narrowed (by omega)

/-- A send that is answered by a GO succeeds, however long the array was. -/
theorem chardev_success (b : Build) (msg : List UInt8) (behind : Memory) :
    ∃ x, (LinkedBackEnd.chardev b).NativeJAntTxMessage behind (some msg) (some x) ∧
      x.status = .success := by
  obtain ⟨r, hr⟩ := antTxMessage_enabled b (UInt8.ofNat msg.length)
    (LinkedBackEnd.msgBytes msg behind) (fun _ => 0)
  let run := SendRun.answered b.hci (.init ⟨0, false, 0, 0⟩) r.ucMessageLength
  have hsuccess : r.send b.hci run = some .success := r.answered_success _
  refine ⟨⟨.success, r.handed run⟩, nativeJAntTxMessage_some.mpr ⟨.enabled, fun _ => 0, ?_⟩, rfl⟩
  rw [hr]
  exact ⟨run, hsuccess, rfl⟩

end chardev

namespace Bluez
variable {b : Build} {es : List CallStep} {pucMesg : List UInt8}

theorem mem_handed {bytes : List UInt8} :
    bytes ∈ handed es ↔ ∃ fd r, (⟨.writev fd bytes, r⟩ : CallStep) ∈ es := by
  rw [handed, List.mem_filterMap]
  constructor
  · intro ⟨⟨o, r⟩, hmem, hbytes⟩
    cases o with
    | writev fd bytes' =>
        cases hbytes
        exact ⟨fd, r, hmem⟩
    | _ => cases hbytes
  · intro ⟨fd, r, hmem⟩
    exact ⟨_, hmem, rfl⟩

theorem writev_of_isWrite {e : CallStep} (h : e.isWrite = true) :
    ∃ fd bytes r, e = ⟨.writev fd bytes, r⟩ := by
  obtain ⟨o, r⟩ := e
  cases o with
  | writev fd bytes => exact ⟨fd, bytes, r, rfl⟩
  | _ => cases h

/-- A call hands the bytes of `write_data` only, and to succeed it has to. -/
theorem handed_txMessage (h : CallTrace (body b) (.txMessage pucMesg) es)
    (hsuccess : returned es = some .success) :
    handed es ≠ [] ∧ ∀ bytes ∈ handed es, bytes = writeDataBytes b pucMesg := by
  obtain hrefused | ⟨fs, startTime, txSocket, gs, rfl, hfs, hloop⟩ := callTrace_txMessage h
  · exact absurd hsuccess hrefused.returned
  · have hwriting := writing_begin hloop
    have hrest := (hwriting.looping.cons (neutral_time b.board startTime)).append hfs
    have hstart : CallStep.returned? ⟨.time, startTime⟩ = none := rfl
    rw [returned_append hfs, returned_cons hstart] at hsuccess
    obtain ⟨e, hmem, hwrote⟩ := hwriting.wrote hsuccess
    obtain ⟨fd, bytes, r, rfl⟩ := writev_of_isWrite (CallStep.wrote_isWrite hwrote)
    refine ⟨List.ne_nil_of_mem (mem_handed.mpr ⟨fd, r, ?_⟩), fun bytes' hbytes => ?_⟩
    · exact List.mem_append_right fs (List.mem_cons_of_mem _ hmem)
    · obtain ⟨fd', r', hmem'⟩ := mem_handed.mp hbytes
      exact hrest.bytes fd' bytes' r' hmem'

/-- The header of `write_data` has its length whatever the message is. -/
theorem writeDataBytes_payload :
    (LinkedBackEnd.bluez b).payload (writeDataBytes b pucMesg) = pucMesg := by
  rw [LinkedBackEnd.payload, writeDataBytes]
  refine List.drop_left' ?_
  cases hboard : b.board <;> simp [LinkedBackEnd.headerLength, hboard, createCommandHeader, le16,
    Board.hciCommandVendorHdrSize]

theorem neverCutShort_bluez (b : Build) {msg : List UInt8}
    (hfits : (LinkedBackEnd.bluez b).FitsFrame msg.length) :
    (LinkedBackEnd.bluez b).NeverCutShort msg := by
  intro behind x hx
  refine ⟨fun hsuccess => ?_, fun hlong => absurd hfits hlong⟩
  have htotal : b.board.hciCommandVendorHdrSize.toNat + msg.length ≤ 255 := hfits
  obtain ⟨es, htrace, hreturned, hhanded⟩ := nativeJAntTxMessage_some.mp hx
  rw [msgBytes_narrowed (by omega)] at htrace
  rw [hsuccess] at hreturned
  rw [hhanded]
  refine (handed_txMessage htrace hreturned).imp_right fun hall bytes hbytes => ?_
  rw [hall bytes hbytes, writeDataBytes_payload]

theorem bluez_success (b : Build) (msg : List UInt8) (behind : Memory) :
    ∃ x, (LinkedBackEnd.bluez b).NativeJAntTxMessage behind (some msg) (some x) ∧
      x.status = .success :=
  ⟨⟨.success, handed _⟩, nativeJAntTxMessage_some.mpr
    ⟨_, successTrace_callTrace b _, returned_successTrace b _, rfl⟩, rfl⟩

end Bluez

/-- Every back end can succeed for every array. -/
theorem fitsFrame_of_neverCutShort {l : LinkedBackEnd} {msg : List UInt8}
    (h : l.NeverCutShort msg) : l.FitsFrame msg.length := by
  have hsuccess : ∃ x, l.NativeJAntTxMessage (fun _ => 0) (some msg) (some x) ∧
      x.status = .success := by
    cases l with
    | chardev b => exact chardev_success b msg _
    | bluez b => exact Bluez.bluez_success b msg _
  obtain ⟨x, hx, hstatus⟩ := hsuccess
  by_contra hlong
  exact ((h _ x hx).2 hlong).1 hstatus

/-- The entry point keeps its word exactly for the arrays that fit a frame. -/
theorem nativeJAntTxMessage_complete_iff (l : LinkedBackEnd) (msg : List UInt8) :
    l.NeverCutShort msg ↔ l.FitsFrame msg.length := by
  refine ⟨fitsFrame_of_neverCutShort, fun hfits => ?_⟩
  cases l with
  | chardev b => exact neverCutShort_chardev b hfits
  | bluez b => exact Bluez.neverCutShort_bluez b hfits

/-- For 256 bytes a BlueZ back end sends a command without a message. -/
theorem nativeJAntTxMessage_narrows : ¬ ∀ (l : LinkedBackEnd) (msg : List UInt8),
    l.NeverCutShort msg := by
  intro hall
  have hfits := fitsFrame_of_neverCutShort (hall (.bluez ⟨.bcm433x, false⟩) (List.replicate 256 7))
  rw [List.length_replicate] at hfits
  have hle : (1 : UInt8).toNat + 256 ≤ 255 := hfits
  exact absurd hle (by decide)

end AntHal
