import AntHal.Chardev.Transmit
import AntHal.Chardev.ReceiveRefinement
import Mathlib.Tactic.IntervalCases

/-!
Receive framing undoes transmit framing.

A transmitted packet is, behind its packet type byte, one frame of the receive
format. The decoder reads one size byte where the encoder may have written two;
this is enough because no message of a packet is longer than 255 bytes.
-/

namespace AntHal

open Framing

/-- A well-formed ANT message: its first byte counts what follows the id. -/
structure AntMessage where
  bytes : List UInt8
  wellFormed : ∃ k id data, bytes = k :: id :: data ∧ data.length = k.toNat

namespace AntMessage

variable (m : AntMessage)

def id : UInt8 := m.bytes.getD antMsgIdOffset 0

/-- A pointer to the message, with arbitrary memory behind it. -/
def pointer (behind : Memory) : Memory := fun i => m.bytes.getD i (behind i)

variable {m}

theorem length_ge : 2 ≤ m.bytes.length := by
  obtain ⟨k, id, data, hm, -⟩ := m.wellFormed
  simp [hm]

/-- A message is told from the keepalive response by its first five bytes, even
when it is shorter: the length byte differs then. -/
theorem take_append_eq_keepAliveResp (more : List UInt8) :
    (m.bytes ++ more).take keepAliveResp.length = keepAliveResp ↔ m.bytes = keepAliveResp := by
  obtain ⟨k, id, data, hm, hdata⟩ := m.wellFormed
  constructor
  · intro h
    have hk : k = 3 := by
      have := congrArg (·.head?) h
      simpa [hm, keepAliveResp] using this
    have hlen : m.bytes.length = keepAliveResp.length := by
      rw [hm, List.length_cons, List.length_cons, hdata, hk]
      rfl
    rw [← hlen, List.take_left] at h
    exact h
  · intro h
    rw [h, List.take_left]

end AntMessage

/-- One call of `ant_tx_message` by an application. -/
structure Send where
  message : AntMessage
  /-- The memory behind the message, and the old contents of the stack buffer. -/
  behind : Memory
  txBuffer : Memory

/-- The bytes that the call hands to `write` while the radio is enabled. -/
def Send.transmitted (b : Build) (s : Send) : List UInt8 :=
  match antTxMessage b .enabled (UInt8.ofNat s.message.bytes.length)
      (s.message.pointer s.behind) s.txBuffer with
  | some request => request.buffer
  | none => []

/-- The packet behind the packet type byte, as the chip sends it back. -/
def Send.packet (b : Build) (s : Send) : List UInt8 :=
  (s.transmitted b).drop b.packetTypeSize

/-- The size field of a packet. -/
def sizeBytes : SizeField → Nat → List UInt8
  | .one, n => [UInt8.ofNat n]
  | .two, n => [UInt8.ofNat n, 0]

section encode
variable {b : Build} {size : SizeField}

@[simp] theorem length_sizeBytes (n : Nat) : (sizeBytes size n).length = size.bytes := by
  cases size <;> rfl

private theorem high_byte_eq_zero (u : UInt8) : (u.toUInt16 >>> 8).toUInt8 = 0 := by
  apply UInt8.toNat.inj
  have := u.toNat_lt
  simp only [UInt16.toNat_toUInt8, UInt16.toNat_shiftRight, UInt8.toNat_toUInt16,
    Nat.shiftRight_eq_div_pow]
  simp
  omega

/-- The transmit buffer holds the size field and then the message. -/
theorem fillTxBuffer_plain (hb : b.hci = .plain size) (bIsData : Bool) (ucLen : UInt8)
    (pucMesg txBuffer : Memory) {i : Nat} (hi : i < size.bytes + ucLen.toNat) :
    fillTxBuffer b bIsData ucLen pucMesg txBuffer (b.packetTypeSize + i) =
      (sizeBytes size ucLen.toNat).getD i (pucMesg (i - size.bytes)) := by
  simp only [fillTxBuffer, hb, HciDefines.plain_sizeOffset, HciDefines.plain_headerSize]
  simp only [HciDefines.plain, Nat.zero_ne_one, if_false, memcpy, Nat.add_zero]
  by_cases hm : size.bytes ≤ i
  · rw [if_pos (by omega), Nat.add_sub_add_left]
    exact (List.getD_eq_default _ _ (by simpa using hm)).symm
  · rw [if_neg (by omega)]
    cases size with
    | one =>
        have : i = 0 := by simpa [SizeField.bytes] using hm
        simp [this, sizeBytes]
    | two =>
        have hi2 : i < 2 := by simpa [SizeField.bytes] using hm
        interval_cases i
        · simp [storeLE16, sizeBytes]
        · simp [storeLE16, sizeBytes, high_byte_eq_zero]

section request
variable {ucLen : UInt8} {pucMesg txBuffer : Memory} {r : TxRequest}

theorem antTxMessage_length (hb : b.hci = .plain size)
    (h : antTxMessage b .enabled ucLen pucMesg txBuffer = some r) :
    r.ucMessageLength = UInt8.ofNat (b.packetTypeSize + size.bytes + ucLen.toNat) := by
  simp only [antTxMessage, ne_eq, not_true_eq_false, if_false] at h
  cases hbackend : b.backend with
  | vfs =>
      simp only [hbackend, Option.some.injEq] at h
      subst h
      simp [antTxMessageVfs, hb, Build.packetTypeSize, hbackend, Nat.add_comm]
  | btVendor =>
      simp only [hbackend, Option.some.injEq] at h
      subst h
      simp [antTxMessageBtVendor, hb, Nat.add_assoc, Nat.add_comm]

/-- Behind the packet type byte the packet is the size field and the message. -/
theorem antTxMessage_body (hb : b.hci = .plain size)
    (h : antTxMessage b .enabled ucLen pucMesg txBuffer = some r) {i : Nat}
    (hi : i < size.bytes + ucLen.toNat) :
    r.pucTxMessage (b.packetTypeSize + i) =
      (sizeBytes size ucLen.toNat).getD i (pucMesg (i - size.bytes)) := by
  simp only [antTxMessage, ne_eq, not_true_eq_false, if_false] at h
  cases hbackend : b.backend with
  | vfs =>
      simp only [hbackend, Option.some.injEq] at h
      subst h
      exact fillTxBuffer_plain hb _ _ _ _ hi
  | btVendor =>
      simp only [hbackend, Option.some.injEq] at h
      subst h
      rw [← fillTxBuffer_plain hb false ucLen pucMesg txBuffer hi]
      dsimp only [antTxMessageBtVendor]
      split
      · rw [Function.update_of_ne (by omega)]
      · rfl

/-- A request with the true length: what is behind the packet type byte. -/
theorem antTxMessage_drop (hb : b.hci = .plain size)
    (h : antTxMessage b .enabled ucLen pucMesg txBuffer = some r)
    (hlen : r.ucMessageLength.toNat = b.packetTypeSize + size.bytes + ucLen.toNat) :
    r.buffer.drop b.packetTypeSize =
      sizeBytes size ucLen.toNat ++ (List.range ucLen.toNat).map pucMesg := by
  rw [TxRequest.buffer, hlen, Nat.add_assoc]
  apply List.ext_getElem
  · simp
  · intro i hi _
    have hlt : i < size.bytes + ucLen.toNat := by simpa using hi
    simp only [List.getElem_drop, List.getElem_map, List.getElem_range]
    rw [antTxMessage_body hb h hlt]
    by_cases hsize : i < size.bytes
    · rw [List.getD_eq_getElem _ _ (by simpa using hsize),
        List.getElem_append_left (by simpa using hsize)]
    · rw [List.getD_eq_default _ _ (by simpa using hsize),
        List.getElem_append_right (by simpa using hsize)]
      simp

theorem antTxMessage_enabled (b : Build) (ucLen : UInt8) (pucMesg txBuffer : Memory) :
    ∃ r, antTxMessage b .enabled ucLen pucMesg txBuffer = some r := by
  simp only [antTxMessage, ne_eq, not_true_eq_false, if_false]
  cases b.backend <;> exact ⟨_, rfl⟩

end request

/-- Bytes are what a pointer to them shows, whatever is behind them. -/
theorem map_range_getD (bytes : List UInt8) (behind : Memory) :
    (List.range bytes.length).map (fun i => bytes.getD i (behind i)) = bytes := by
  apply List.ext_getElem
  · simp
  · intro i _ hi
    simp only [List.getElem_map, List.getElem_range]
    exact List.getD_eq_getElem _ _ hi

/-- What a call hands to `write`, behind the packet type byte. -/
theorem packet_eq (hb : b.hci = .plain size) (s : Send)
    (hlen : b.packetTypeSize + size.bytes + s.message.bytes.length ≤ 255) :
    s.packet b = sizeBytes size s.message.bytes.length ++ s.message.bytes := by
  have hn : (UInt8.ofNat s.message.bytes.length).toNat = s.message.bytes.length := by
    rw [UInt8.toNat_ofNat']
    omega
  obtain ⟨r, hr⟩ := antTxMessage_enabled b (UInt8.ofNat s.message.bytes.length)
    (s.message.pointer s.behind) s.txBuffer
  have htotal : r.ucMessageLength.toNat =
      b.packetTypeSize + size.bytes + (UInt8.ofNat s.message.bytes.length).toNat := by
    rw [antTxMessage_length hb hr, UInt8.toNat_ofNat', hn]
    omega
  rw [Send.packet, Send.transmitted, hr]
  dsimp only
  rw [antTxMessage_drop hb hr htotal, hn]
  exact congrArg _ (map_range_getD s.message.bytes s.behind)

/-- A packet is one frame of the receive path, and the message is its payload. -/
theorem packet_frame (m : AntMessage) (hlen : m.bytes.length ≤ 255) :
    let packet := sizeBytes size m.bytes.length ++ m.bytes
    (HciDefines.plain size).format.IsFrame packet ∧
      (HciDefines.plain size).frameOf packet = (m.bytes.length, m.bytes) := by
  have hn : (UInt8.ofNat m.bytes.length).toNat = m.bytes.length := by
    rw [UInt8.toNat_ofNat']
    omega
  have hget : (sizeBytes size m.bytes.length ++ m.bytes).getD 0 0 =
      UInt8.ofNat m.bytes.length := by
    cases size <;> rfl
  refine ⟨?_, ?_⟩
  · simp only [Format.IsFrame, HciDefines.format, HciDefines.plain_sizeOffset, hget, hn,
      HciDefines.plain_headerSize, HciDefines.plain_footerSize, List.length_append,
      length_sizeBytes, Nat.add_zero]
  · simp only [HciDefines.frameOf, HciDefines.plain_sizeOffset, hget, hn,
      HciDefines.plain_dataOffset]
    rw [List.drop_left' (length_sizeBytes _), List.take_length]

end encode

/-- A frame that carries a message other than flow control and the keepalive
response goes to the callback. The comparison with the response may look past a
short message, but it has failed at the first byte by then. -/
theorem Dispatches.ordinary {size : SizeField} {n : Nat} {handling : Handling}
    (m : AntMessage) (h : Dispatches (.plain size) true (.frame n m.bytes handling))
    (hid : m.id ≠ 0xC9) (hresp : m.bytes ≠ keepAliveResp) : handling = .rxCallback := by
  obtain ⟨env, b, info, msg, n', hreg, heq⟩ := h
  simp only [RxAction.frame.injEq] at heq
  obtain ⟨-, hbytes, rfl⟩ := heq
  have hlong : antMsgIdOffset < n' := by
    rw [← RxBuffer.length_slice b env.beyond msg n', ← hbytes]
    exact m.length_ge
  have hflow : isFlowControlMsg (.plain size) (b.get env.beyond (msg + antMsgIdOffset)) =
      false := by
    rw [← RxBuffer.getD_slice b env.beyond msg hlong 0, ← hbytes]
    simpa [isFlowControlMsg, HciDefines.plain, AntMessage.id] using hid
  have hkeep : (b.slice env.beyond msg keepAliveResp.length == keepAliveResp) = false := by
    rw [beq_eq_false_iff_ne]
    intro hslice
    apply hresp
    rw [← AntMessage.take_append_eq_keepAliveResp
      (b.slice env.beyond (msg + n') keepAliveResp.length), hbytes, ← RxBuffer.slice_append,
      RxBuffer.take_slice _ _ _ (Nat.le_add_left _ _), hslice]
  simp [classify, hflow, hkeep, hreg]

/-- The calls of fnRxCallback on one channel: length and bytes. -/
def callbacksOn (ch : AntChannelType) (log : List (AntChannelType × ReadReport)) :
    List (Nat × List UInt8) :=
  ((reportsOn ch log).map fun r => r.actions.filterMap fun
    | .frame n msg .rxCallback => some (n, msg)
    | _ => none).flatten

/-- Where every frame goes to the callback, the callback sees what is dispatched. -/
theorem callbacksOn_eq_dispatchedOn (ch : AntChannelType)
    (log : List (AntChannelType × ReadReport))
    (h : ∀ r ∈ reportsOn ch log, ∀ n msg handling, .frame n msg handling ∈ r.actions →
      handling = .rxCallback) :
    callbacksOn ch log = dispatchedOn ch log := by
  unfold callbacksOn dispatchedOn
  congr 1
  refine List.map_congr_left fun r hr => List.filterMap_congr fun a ha => ?_
  cases a with
  | frame n msg handling =>
      rw [h r hr n msg handling ha]
      rfl
  | commandComplete | resend _ | resendCancelled => rfl

/-- Messages sent by either back end and received in any chunks reach the
callback once each, in order and unchanged, and nothing is left in the buffer. -/
theorem antTxMessage_readChannelMsg (b : Build) (size : SizeField) (hb : b.hci = .plain size)
    (sends : List Send)
    (hlen : ∀ s ∈ sends, b.packetTypeSize + size.bytes + s.message.bytes.length ≤ 255)
    (hid : ∀ s ∈ sends, s.message.id ≠ 0xC9)
    (hresp : ∀ s ∈ sends, s.message.bytes ≠ keepAliveResp)
    (info : AntChannelType → AntChannelInfo) (ch : AntChannelType)
    (hcallback : (info ch).fnRxCallback = true)
    (as : List Arrival) (hfits : (Receiver.init info).Fits b.hci as)
    (hstream : streamOn ch as = (sends.map (Send.packet b)).flatten) :
    let out := (Receiver.init info).run b.hci as
    callbacksOn ch out.2 =
        sends.map (fun s => (s.message.bytes.length, s.message.bytes)) ∧
      dispatchedOn ch out.2 = callbacksOn ch out.2 ∧
      (out.1.rx ch).iRxBufferLength = 0 := by
  rw [hb] at hfits ⊢
  intro out
  have hshort : ∀ s ∈ sends, s.message.bytes.length ≤ 255 := fun s hs => by
    have := hlen s hs
    omega
  have hpackets : sends.map (Send.packet b) =
      sends.map fun s => sizeBytes size s.message.bytes.length ++ s.message.bytes :=
    List.map_congr_left fun s hs => packet_eq hb s (hlen s hs)
  have hframe : ∀ f ∈ sends.map (Send.packet b),
      (HciDefines.plain size).format.IsFrame f := by
    rw [hpackets]
    intro f hf
    obtain ⟨s, hs, rfl⟩ := List.mem_map.mp hf
    exact (packet_frame s.message (hshort s hs)).1
  obtain ⟨hframes, hholds⟩ := Receiver.run_spec (d := .plain size) ch rfl as
    (Receiver.init info) [] RxState.init_holds
  rw [List.nil_append, Receiver.receivedOn_of_fits rfl as _ [] RxState.init_holds hfits,
    hstream] at hframes hholds
  obtain ⟨hall, hrest⟩ := (HciDefines.plain size).format.frames_flatten _ hframe
  rw [hall] at hframes
  rw [hrest] at hholds
  have hdispatched : dispatchedOn ch out.2 =
      sends.map fun s => (s.message.bytes.length, s.message.bytes) := by
    rw [hframes, hpackets, List.map_map]
    exact List.map_congr_left fun s hs => (packet_frame s.message (hshort s hs)).2
  have hcallbacks : callbacksOn ch out.2 = dispatchedOn ch out.2 := by
    apply callbacksOn_eq_dispatchedOn
    intro r hr n msg handling ha
    have hdis := Receiver.run_dispatches rfl as (Receiver.init info) r hr _ ha
    simp only [Receiver.init, hcallback] at hdis
    have hmem : (n, msg) ∈ dispatchedOn ch out.2 :=
      List.mem_flatten.mpr ⟨_, List.mem_map.mpr ⟨r, hr, rfl⟩,
        List.mem_filterMap.mpr ⟨_, ha, rfl⟩⟩
    rw [hdispatched] at hmem
    obtain ⟨s, hs, heq⟩ := List.mem_map.mp hmem
    obtain ⟨rfl, rfl⟩ := Prod.mk.inj heq
    exact hdis.ordinary s.message (hid s hs) (hresp s hs)
  exact ⟨hcallbacks.trans hdispatched, hcallbacks.symm, hholds.length⟩

/-- A broadcast message and an empty one, sent over one UART and received in
chunks that cut both frames. -/
def twoSends : List Send :=
  [⟨⟨[2, 0x4E, 7, 8], _, _, _, rfl, rfl⟩, fun _ => 0, fun _ => 0⟩,
    ⟨⟨[0, 0x4D], _, _, _, rfl, rfl⟩, fun _ => 0, fun _ => 0⟩]

def twoArrivals : List Arrival :=
  [⟨.single, [4, 2, 0x4E], fun _ => 0⟩, ⟨.single, [], fun _ => 0⟩,
    ⟨.single, [7, 8, 2, 0], fun _ => 0⟩, ⟨.single, [0x4D], fun _ => 0⟩]

theorem antTxMessage_readChannelMsg_uart :
    let info : AntChannelType → AntChannelInfo := fun _ => ⟨3, true, 0, 0⟩
    callbacksOn .single ((Receiver.init info).run Build.uart.hci twoArrivals).2 =
      [(4, [2, 0x4E, 7, 8]), (2, [0, 0x4D])] :=
  (antTxMessage_readChannelMsg .uart .one rfl twoSends (by decide) (by decide) (by decide)
    (fun _ => ⟨3, true, 0, 0⟩) .single rfl twoArrivals
    ⟨by decide, by decide, by decide, by decide, trivial⟩ (by decide)).1

end AntHal
