import AntHal.Bluez.ReceiveThread

/-!
The packets of the BlueZ back end as formats.

The HCI write command is read back from its bytes, as the comment of ant_tx.c
describes it. The vendor event is stated as a grammar of whole packets, to which
the checks of ant_framing.h are compared.
-/

namespace AntHal.Bluez

open Concurrency

/-- Two bytes of a 16-bit field, the first one low. -/
def fromLe16 (lo hi : UInt8) : Nat := lo.toNat + 256 * hi.toNat

theorem leToHost16_toNat (num : Memory) (at' : Nat) :
    (leToHost16 num at').toNat = fromLe16 (num at') (num (at' + 1)) := by
  have hlo := (num at').toNat_lt
  have hhi := (num (at' + 1)).toNat_lt
  simp only [leToHost16, fromLe16, UInt16.toNat_or, UInt16.toNat_shiftLeft, UInt8.toNat_toUInt16]
  have hshift : (num (at' + 1)).toNat <<< 8 < 2 ^ 16 := by
    rw [Nat.shiftLeft_eq]
    omega
  rw [show (8 : UInt16).toNat % 16 = 8 from rfl, Nat.mod_eq_of_lt hshift,
    ← Nat.shiftLeft_add_eq_or_of_lt hlo, Nat.shiftLeft_eq]
  omega

theorem leToHost16_eq_iff (num : Memory) (at' : Nat) (v : UInt16) :
    leToHost16 num at' = v ↔ fromLe16 (num at') (num (at' + 1)) = v.toNat := by
  rw [← leToHost16_toNat, UInt16.toNat_inj]

/-- A byte stored as a 16-bit field. -/
theorem le16_toUInt16 (v : UInt8) : le16 v.toUInt16 = [v, 0] := by
  have hlow : v.toUInt16.toUInt8 = v := by
    apply UInt8.toNat_inj.mp
    simp
  have hhigh : (v.toUInt16 >>> 8).toUInt8 = 0 := by
    apply UInt8.toNat_inj.mp
    have := v.toNat_lt
    simp [Nat.shiftRight_eq_div_pow]
    omega
  rw [le16, hlow, hhigh]

section command

/-- The message in the bytes of an HCI write command: packet type, opcode, the
length of all that follows, and the vendor header of the chip. -/
def decodeCommand (board : Board) : List UInt8 → Option (List UInt8)
  | packetType :: lo :: hi :: plen :: params =>
    if packetType = hciCommandPkt ∧ fromLe16 lo hi = board.antCommandOpcode.toNat ∧
        plen.toNat = params.length then
      match board, params with
      | .wl12xx, lenLo :: lenHi :: antMessage =>
        if fromLe16 lenLo lenHi = antMessage.length then some antMessage else none
      | .bcm433x, padding :: antMessage =>
        if padding = commandIdPadding then some antMessage else none
      | _, _ => none
    else none
  | _ => none

/-- The parameter length is a byte. It counts what follows unless it wraps. -/
theorem plen_iff (len : Nat) (hdr : UInt8) :
    (UInt8.ofNat len + hdr).toNat = len + hdr.toNat ↔ len + hdr.toNat ≤ 255 := by
  have hhdr := hdr.toNat_lt
  rw [UInt8.toNat_add, UInt8.toNat_ofNat']
  omega

theorem writeDataBytes_wl12xx (b : Build) (hboard : b.board = .wl12xx) (pucMesg : List UInt8) :
    writeDataBytes b pucMesg = hciCommandPkt :: 0xD1 :: 0xFD ::
      (UInt8.ofNat pucMesg.length + 2) :: UInt8.ofNat pucMesg.length :: 0 :: pucMesg := by
  have hopcode : le16 Board.wl12xx.antCommandOpcode = [0xD1, 0xFD] := by decide
  simp only [writeDataBytes, createCommandHeader, hboard, hopcode, le16_toUInt16]
  rfl

theorem writeDataBytes_bcm433x (b : Build) (hboard : b.board = .bcm433x)
    (pucMesg : List UInt8) :
    writeDataBytes b pucMesg = hciCommandPkt :: 0xEC :: 0xFC ::
      (UInt8.ofNat pucMesg.length + 1) :: commandIdPadding :: pucMesg := by
  have hopcode : le16 Board.bcm433x.antCommandOpcode = [0xEC, 0xFC] := by decide
  simp only [writeDataBytes, createCommandHeader, hboard, hopcode]
  rfl

/-- What is written decodes to the message exactly if the parameter length of
the header can hold the length of all that follows it. -/
theorem decodeCommand_writeDataBytes_iff (b : Build) (pucMesg : List UInt8) :
    decodeCommand b.board (writeDataBytes b pucMesg) = some pucMesg ↔
      pucMesg.length + b.board.hciCommandVendorHdrSize.toNat ≤ 255 := by
  cases hboard : b.board with
  | wl12xx =>
      have hopcode : fromLe16 0xD1 0xFD = Board.wl12xx.antCommandOpcode.toNat := by decide
      have hplen : (UInt8.ofNat pucMesg.length + 2).toNat = pucMesg.length + 1 + 1 ↔
          pucMesg.length + (2 : UInt8).toNat ≤ 255 := plen_iff pucMesg.length 2
      rw [writeDataBytes_wl12xx b hboard]
      simp only [decodeCommand, hopcode, List.length_cons, true_and, Board.hciCommandVendorHdrSize]
      rw [← hplen]
      constructor
      · intro h
        by_contra hwrap
        rw [if_neg hwrap] at h
        cases h
      · intro hfits
        have hlen : fromLe16 (UInt8.ofNat pucMesg.length) 0 = pucMesg.length := by
          have hshort := hplen.mp hfits
          rw [fromLe16, UInt8.toNat_ofNat', UInt8.toNat_zero]
          have : (2 : UInt8).toNat = 2 := rfl
          omega
        rw [if_pos hfits, if_pos hlen]
  | bcm433x =>
      have hopcode : fromLe16 0xEC 0xFC = Board.bcm433x.antCommandOpcode.toNat := by decide
      have hplen : (UInt8.ofNat pucMesg.length + 1).toNat = pucMesg.length + 1 ↔
          pucMesg.length + (1 : UInt8).toNat ≤ 255 := plen_iff pucMesg.length 1
      rw [writeDataBytes_bcm433x b hboard]
      simp only [decodeCommand, hopcode, List.length_cons, true_and, if_true,
        Board.hciCommandVendorHdrSize]
      rw [← hplen]
      constructor
      · intro h
        by_contra hwrap
        rw [if_neg hwrap] at h
        cases h
      · exact fun hfits => if_pos hfits

/-- With 254 bytes the parameter length wraps to 0, and nothing can be decoded. -/
theorem decodeCommand_wraps :
    ¬ ∀ (b : Build) (pucMesg : List UInt8), pucMesg.length ≤ 255 →
      decodeCommand b.board (writeDataBytes b pucMesg) = some pucMesg := by
  intro hall
  have h := hall ⟨.wl12xx, false⟩ (List.replicate 254 0) (by rw [List.length_replicate]; decide)
  rw [writeDataBytes_wl12xx _ rfl] at h
  simp only [decodeCommand, List.length_cons, List.length_replicate] at h
  revert h
  decide

end command

section event

/-- The vendor header of an event with `n` payload bytes. -/
def VendorHeader (board : Board) (header : List UInt8) (n : Nat) : Prop :=
  match board with
  | .wl12xx => ∃ lo hi, header = le16 board.antEventVendorCode ++ [lo, hi] ∧ fromLe16 lo hi = n
  | .bcm433x => ∃ status, header = [board.antEventVendorCode.toUInt8, status]

/-- The bytes are a whole vendor event of the ANT chip with this payload. -/
def VendorEvent (board : Board) (bytes payload : List UInt8) : Prop :=
  ∃ plen header, bytes = hciEventPkt :: evtVendor :: plen :: (header ++ payload) ∧
    plen.toNat + hciEventHeaderOverhead = bytes.length ∧
      VendorHeader board header payload.length

/-- A payload as such an event; the status byte is the chip's. -/
def encodeVendorEvent (board : Board) (status : UInt8) (payload : List UInt8) : List UInt8 :=
  let header := match board with
    | .wl12xx => le16 board.antEventVendorCode ++ le16 (UInt16.ofNat payload.length)
    | .bcm433x => [board.antEventVendorCode.toUInt8, status]
  hciEventPkt :: evtVendor :: UInt8.ofNat (header.length + payload.length) :: (header ++ payload)

/-- What a read of `len` bytes has put into the buffer. -/
def received (buf : Memory) (len : Nat) : List UInt8 := (List.range len).map buf

/-- The bytes that are passed to the callback. -/
def payloadSlice (board : Board) (buf : Memory) (n : Nat) : List UInt8 :=
  (List.range n).map fun i => buf (board.hciEventTotalOverhead + i)

/-- The checks of `validate_hci_event_vendor`, all passed. -/
def ValidVendor (board : Board) (buf : Memory) (len : Nat) : Prop :=
  match board with
  | .wl12xx => [buf 3, buf 4] = le16 board.antEventVendorCode ∧
      len = fromLe16 (buf 5) (buf 6) + board.hciEventTotalOverhead
  | .bcm433x => buf 3 = board.antEventVendorCode.toUInt8

/-- The checks of `validate_hci_event_packet`, all passed. -/
structure ValidPacket (board : Board) (buf : Memory) (len : Nat) : Prop where
  minimum : board.hciEventTotalOverhead ≤ len
  packetType : buf 0 = hciEventPkt
  evt : buf 1 = evtVendor
  plen : len = (buf 2).toNat + hciEventHeaderOverhead
  vendor : ValidVendor board buf len

/-- The callback gets the payload, where one is set. -/
def passToCallback (payload : List UInt8) : Cmd Unit := do
  let set ← getRxCallback
  if set then rxCallback payload

section bounded

/-- Memory of which only the first `len` bytes may be read. -/
def bounded (buf : Memory) (len : Nat) (i : Nat) : Option UInt8 :=
  if i < len then some (buf i) else none

variable (board : Board) (read : Nat → Option UInt8)

/-- The checks once more, with every field read where the source reads it; none
if a read fails. -/
def leToHost16? (at' : Nat) : Option UInt16 := do
  let hi ← read (at' + 1)
  let lo ← read at'
  return hi.toUInt16 <<< 8 ||| lo.toUInt16

def validateHciEventVendor? (packetLen : Int) : Option Int := do
  let vendorCode ← match board with
    | .wl12xx => leToHost16? read 3
    | .bcm433x => (read 3).map UInt8.toUInt16
  if vendorCode ≠ board.antEventVendorCode then return -1
  else match board with
    | .wl12xx => do
      let vendorMsgLen ← leToHost16? read 5
      if packetLen ≠ vendorMsgLen.toNat + board.hciEventTotalOverhead then return -1
      else return 0
    | .bcm433x => return 0

def validateHciEventPacket? (packetLen : Int) : Option Int :=
  if packetLen < board.hciEventTotalOverhead then return -1
  else do
    let packetType ← read 0
    if packetType ≠ hciEventPkt then return -1
    else
      let evt ← read 1
      if evt ≠ evtVendor then return -1
      else
        let plen ← read 2
        if packetLen ≠ plen.toNat + hciEventHeaderOverhead then return -1
        else
          let vendor ← validateHciEventVendor? board read packetLen
          if vendor = -1 then return -1
          else return packetLen - board.hciEventTotalOverhead

end bounded

variable {board : Board} {buf : Memory} {len : Nat} {bytes payload : List UInt8}

theorem received_add (buf : Memory) (k n : Nat) :
    received buf (k + n) = received buf k ++ (List.range n).map fun i => buf (k + i) := by
  rw [received, List.range_add, List.map_append, List.map_map]
  rfl

theorem vendorCode_wl12xx_iff (buf : Memory) :
    leToHost16 buf 3 = Board.wl12xx.antEventVendorCode ↔
      [buf 3, buf 4] = le16 Board.wl12xx.antEventVendorCode := by
  have hcode : le16 Board.wl12xx.antEventVendorCode = [0x00, 0x05] := by decide
  have hvalue : Board.wl12xx.antEventVendorCode.toNat = 1280 := by decide
  have hlo := (buf 3).toNat_lt
  have hhi := (buf 4).toNat_lt
  rw [leToHost16_eq_iff, hcode, hvalue, List.cons.injEq, List.cons.injEq, and_iff_left rfl,
    ← UInt8.toNat_inj, ← UInt8.toNat_inj]
  change (buf 3).toNat + 256 * (buf 4).toNat = 1280 ↔ (buf 3).toNat = 0 ∧ (buf 4).toNat = 5
  omega

theorem vendorCode_bcm433x_iff (v : UInt8) :
    v.toUInt16 = Board.bcm433x.antEventVendorCode ↔
      v = Board.bcm433x.antEventVendorCode.toUInt8 := by
  rw [← UInt16.toNat_inj, ← UInt8.toNat_inj, UInt8.toNat_toUInt16]
  rfl

theorem validateHciEventVendor_eq_iff :
    validateHciEventVendor board buf len = -1 ↔ ¬ ValidVendor board buf len := by
  cases board with
  | wl12xx =>
      have hlen : (len : Int) = (leToHost16 buf 5).toNat + Board.wl12xx.hciEventTotalOverhead ↔
          len = fromLe16 (buf 5) (buf 6) + Board.wl12xx.hciEventTotalOverhead := by
        rw [leToHost16_toNat]
        exact Int.ofNat_inj
      simp only [validateHciEventVendor, ValidVendor, ← vendorCode_wl12xx_iff, ← hlen]
      split
      · rename_i hcode
        exact iff_of_true rfl fun h => hcode h.1
      · rename_i hcode
        split
        · rename_i hmsg
          exact iff_of_true rfl fun h => hmsg h.2
        · rename_i hmsg
          exact iff_of_false (by decide) (not_not.mpr ⟨not_not.mp hcode, not_not.mp hmsg⟩)
  | bcm433x =>
      simp only [validateHciEventVendor, ValidVendor, ← vendorCode_bcm433x_iff]
      split
      · rename_i hcode
        exact iff_of_true rfl hcode
      · rename_i hcode
        exact iff_of_false (by decide) hcode

theorem ValidPacket.result (h : ValidPacket board buf len) :
    validateHciEventPacket board buf len = (len - board.hciEventTotalOverhead : Int) := by
  have hmin := h.minimum
  have hplen : (len : Int) = (buf 2).toNat + hciEventHeaderOverhead := congrArg Int.ofNat h.plen
  have hvendor := mt validateHciEventVendor_eq_iff.mp (not_not.mpr h.vendor)
  rw [validateHciEventPacket, if_neg (by omega), if_neg (not_not.mpr h.packetType),
    if_neg (not_not.mpr h.evt), if_neg (not_not.mpr hplen), if_neg hvendor]

theorem validPacket_of_result (h : validateHciEventPacket board buf len ≠ -1) :
    ValidPacket board buf len := by
  simp only [validateHciEventPacket] at h
  split at h
  · exact absurd rfl h
  · split at h
    · exact absurd rfl h
    · split at h
      · exact absurd rfl h
      · split at h
        · exact absurd rfl h
        · split at h
          · exact absurd rfl h
          · rename_i hmin htype hevt hplen hvendor
            exact ⟨by omega, not_not.mp htype, not_not.mp hevt, by omega,
              not_not.mp (mt validateHciEventVendor_eq_iff.mpr hvendor)⟩

/-- The header bytes of a buffer, with the payload behind them. -/
theorem received_eq (hmin : board.hciEventTotalOverhead ≤ len) :
    received buf len = buf 0 :: buf 1 :: buf 2 ::
      ((List.range board.hciEventVendorHdrSize).map (fun i => buf (3 + i)) ++
        payloadSlice board buf (len - board.hciEventTotalOverhead)) := by
  obtain ⟨n, rfl⟩ := Nat.exists_eq_add_of_le hmin
  rw [Nat.add_sub_cancel_left, received_add]
  cases board with
  | wl12xx => rfl
  | bcm433x => rfl

theorem VendorHeader.length {header : List UInt8} {n : Nat} (h : VendorHeader board header n) :
    header.length = board.hciEventVendorHdrSize := by
  cases board with
  | wl12xx =>
      obtain ⟨lo, hi, rfl, -⟩ := h
      rfl
  | bcm433x =>
      obtain ⟨status, rfl⟩ := h
      rfl

theorem vendorHeader_iff {n : Nat} (hlen : len = n + board.hciEventTotalOverhead) :
    VendorHeader board ((List.range board.hciEventVendorHdrSize).map fun i => buf (3 + i)) n ↔
      ValidVendor board buf len := by
  cases board with
  | wl12xx =>
      change (∃ lo hi, [buf 3, buf 4, buf 5, buf 6] =
        le16 Board.wl12xx.antEventVendorCode ++ [lo, hi] ∧ fromLe16 lo hi = n) ↔
          [buf 3, buf 4] = le16 Board.wl12xx.antEventVendorCode ∧
            len = fromLe16 (buf 5) (buf 6) + Board.wl12xx.hciEventTotalOverhead
      rw [hlen, Nat.add_right_cancel_iff, @eq_comm Nat n]
      constructor
      · intro ⟨lo, hi, hbytes, hn⟩
        have happend : [buf 3, buf 4] ++ [buf 5, buf 6] =
            le16 Board.wl12xx.antEventVendorCode ++ [lo, hi] := hbytes
        obtain ⟨hcode, hmsg⟩ := List.append_inj happend rfl
        cases hmsg
        exact ⟨hcode, hn⟩
      · intro ⟨hcode, hn⟩
        exact ⟨buf 5, buf 6, by rw [← hcode]; rfl, hn⟩
  | bcm433x =>
      change (∃ status, [buf 3, buf 4] = [Board.bcm433x.antEventVendorCode.toUInt8, status]) ↔
        buf 3 = Board.bcm433x.antEventVendorCode.toUInt8
      constructor
      · intro ⟨status, hbytes⟩
        exact (List.cons.inj hbytes).1
      · exact fun hcode => ⟨buf 4, by rw [hcode]⟩

/-- The grammar of the vendor events is what the checks accept. -/
theorem vendorEvent_received_iff :
    VendorEvent board (received buf len) payload ↔
      ValidPacket board buf len ∧
        payload = payloadSlice board buf (len - board.hciEventTotalOverhead) := by
  have hreceived : (received buf len).length = len := by
    rw [received, List.length_map, List.length_range]
  have hoverhead : board.hciEventTotalOverhead = 3 + board.hciEventVendorHdrSize := rfl
  constructor
  · intro ⟨plen, header, hbytes, hplen, hheader⟩
    have hsize := congrArg List.length hbytes
    rw [hreceived, List.length_cons, List.length_cons, List.length_cons, List.length_append,
      hheader.length] at hsize
    have hmin : board.hciEventTotalOverhead ≤ len := by omega
    rw [received_eq hmin] at hbytes
    simp only [List.cons.injEq] at hbytes
    obtain ⟨h0, h1, h2, hrest⟩ := hbytes
    obtain ⟨rfl, rfl⟩ := List.append_inj hrest (by simp [hheader.length])
    rw [hreceived, ← h2] at hplen
    refine ⟨⟨by omega, h0, h1, hplen.symm, ?_⟩, rfl⟩
    have hlen : len = len - board.hciEventTotalOverhead + board.hciEventTotalOverhead := by omega
    exact (vendorHeader_iff hlen).mp (by simpa [payloadSlice] using hheader)
  · intro ⟨hvalid, hpayload⟩
    have hmin := hvalid.minimum
    refine ⟨buf 2, (List.range board.hciEventVendorHdrSize).map fun i => buf (3 + i), ?_, ?_, ?_⟩
    · rw [received_eq hmin, hvalid.packetType, hvalid.evt, hpayload]
    · rw [hreceived]
      exact hvalid.plen.symm
    · rw [vendorHeader_iff]
      · exact hvalid.vendor
      · rw [hpayload, payloadSlice, List.length_map, List.length_range]
        omega

theorem leToHost16?_bounded {at' : Nat} (h : at' + 1 < len) :
    leToHost16? (bounded buf len) at' = some (leToHost16 buf at') := by
  simp only [leToHost16?, bounded, if_pos h, if_pos (Nat.lt_of_succ_lt h)]
  rfl

theorem validateHciEventVendor?_bounded (hmin : board.hciEventTotalOverhead ≤ len)
    (packetLen : Int) :
    validateHciEventVendor? board (bounded buf len) packetLen =
      some (validateHciEventVendor board buf packetLen) := by
  cases board with
  | wl12xx =>
      have hmin' : 7 ≤ len := hmin
      simp only [validateHciEventVendor?, validateHciEventVendor,
        leToHost16?_bounded (show 3 + 1 < len by omega),
        leToHost16?_bounded (show 5 + 1 < len by omega), Option.bind_eq_bind, Option.bind_some]
      split
      · rfl
      · split <;> rfl
  | bcm433x =>
      have hmin' : 5 ≤ len := hmin
      simp only [validateHciEventVendor?, validateHciEventVendor, bounded,
        if_pos (show 3 < len by omega), Option.map_some, Option.bind_eq_bind, Option.bind_some]
      split <;> rfl

/-- No field behind the packet is read. -/
theorem validateHciEventPacket?_bounded (board : Board) (buf : Memory) (len : Nat) :
    validateHciEventPacket? board (bounded buf len) len =
      some (validateHciEventPacket board buf len) := by
  have hoverhead : board.hciEventTotalOverhead = 3 + board.hciEventVendorHdrSize := rfl
  simp only [validateHciEventPacket?, validateHciEventPacket]
  split
  · rfl
  · have hmin : board.hciEventTotalOverhead ≤ len := by omega
    have hread : ∀ i < 3, bounded buf len i = some (buf i) := fun i hi => if_pos (by omega)
    simp only [hread 0 (by omega), hread 1 (by omega), hread 2 (by omega),
      validateHciEventVendor?_bounded hmin, Option.bind_eq_bind, Option.bind_some]
    split
    · rfl
    · split
      · rfl
      · split
        · rfl
        · split <;> rfl

theorem fromLe16_le16 (v : UInt16) :
    ∃ lo hi, le16 v = [lo, hi] ∧ fromLe16 lo hi = v.toNat := by
  refine ⟨v.toUInt8, (v >>> 8).toUInt8, rfl, ?_⟩
  have hv := v.toNat_lt
  simp only [fromLe16, UInt16.toNat_toUInt8, UInt16.toNat_shiftRight]
  rw [show (8 : UInt16).toNat % 16 = 8 from rfl, Nat.shiftRight_eq_div_pow]
  omega

theorem plen_encode {n : Nat} (h : n ≤ 255) : (UInt8.ofNat n).toNat = n := by
  rw [UInt8.toNat_ofNat']
  omega

/-- An encoded payload that fits is in the grammar. -/
theorem vendorEvent_encode (status : UInt8)
    (hfits : payload.length + board.hciEventVendorHdrSize ≤ 255) :
    VendorEvent board (encodeVendorEvent board status payload) payload := by
  cases board with
  | wl12xx =>
      have hfits' : payload.length + 4 ≤ 255 := hfits
      obtain ⟨lo, hi, hle, hvalue⟩ := fromLe16_le16 (UInt16.ofNat payload.length)
      have hmsg : fromLe16 lo hi = payload.length := by
        rw [hvalue, UInt16.toNat_ofNat']
        omega
      refine ⟨_, _, rfl, ?_, lo, hi, by rw [hle], hmsg⟩
      rw [plen_encode (by rw [hle]; simp [le16]; omega)]
      simp only [encodeVendorEvent, List.length_cons, List.length_append, hciEventHeaderOverhead]
  | bcm433x =>
      have hfits' : payload.length + 2 ≤ 255 := hfits
      refine ⟨_, _, rfl, ?_, status, rfl⟩
      rw [plen_encode (by simp only [List.length_cons, List.length_nil]; omega)]
      simp only [encodeVendorEvent, List.length_cons, List.length_append, hciEventHeaderOverhead]

theorem length_payloadSlice (n : Nat) : (payloadSlice board buf n).length = n := by
  rw [payloadSlice, List.length_map, List.length_range]

/-- The payload length of a valid packet fits the byte that the callback gets. -/
theorem ValidPacket.payload_le (h : ValidPacket board buf len) :
    len - board.hciEventTotalOverhead ≤ 255 := by
  have hplen := (buf 2).toNat_lt
  have hlen := h.plen
  have hoverhead : board.hciEventTotalOverhead = 3 + board.hciEventVendorHdrSize := rfl
  simp only [hciEventHeaderOverhead] at hlen
  omega

theorem validateHciEventPacket_eq_iff (n : Nat) :
    validateHciEventPacket board buf len = n ↔
      n + board.hciEventTotalOverhead = len ∧ ValidPacket board buf len := by
  constructor
  · intro h
    have hvalid := validPacket_of_result (by rw [h]; omega)
    have hmin := hvalid.minimum
    rw [hvalid.result] at h
    exact ⟨by omega, hvalid⟩
  · intro ⟨hlen, hvalid⟩
    rw [hvalid.result]
    omega

theorem validateHciEventPacket_neg_iff :
    validateHciEventPacket board buf len = -1 ↔ ¬ ValidPacket board buf len := by
  constructor
  · intro h hvalid
    have hmin := hvalid.minimum
    rw [hvalid.result] at h
    omega
  · intro h
    by_contra hne
    exact h (validPacket_of_result hne)

theorem deliver_valid {b : Build} (h : ValidPacket b.board buf len) :
    deliver b len buf =
      passToCallback (payloadSlice b.board buf (len - b.board.hciEventTotalOverhead)) := by
  have hmin := h.minimum
  have hlen : (len - b.board.hciEventTotalOverhead : Int).toNat =
      len - b.board.hciEventTotalOverhead := by omega
  simp only [deliver, h.result, hlen, payloadSlice]
  exact if_neg (by omega)

/-- The check accepts exactly the vendor events, gives the length of the payload
and looks at no byte behind the packet; the payload is what the callback gets. -/
theorem validateHciEventPacket_grammar (b : Build) (buf : Memory) (len : Nat) :
    let bytes := received buf len
    (∀ n : Nat, validateHciEventPacket b.board buf len = n ↔
      n + b.board.hciEventTotalOverhead = len ∧
        ∃ payload, payload.length = n ∧ VendorEvent b.board bytes payload) ∧
    (validateHciEventPacket b.board buf len = -1 ↔ ∀ payload, ¬ VendorEvent b.board bytes payload) ∧
    validateHciEventPacket? b.board (bounded buf len) len =
      some (validateHciEventPacket b.board buf len) ∧
    (∀ payload, VendorEvent b.board bytes payload → payload.length ≤ 255 ∧
      deliver b len buf = passToCallback payload) ∧
    ((∀ payload, ¬ VendorEvent b.board bytes payload) → deliver b len buf = return ()) ∧
    ∀ status payload, payload.length + b.board.hciEventVendorHdrSize ≤ 255 →
      bytes = encodeVendorEvent b.board status payload →
      validateHciEventPacket b.board buf len = payload.length ∧
        VendorEvent b.board bytes payload := by
  intro bytes
  have hexists : (∀ payload, ¬ VendorEvent b.board bytes payload) ↔
      ¬ ValidPacket b.board buf len := by
    rw [← not_exists, not_iff_not]
    constructor
    · intro ⟨payload, hevent⟩
      exact (vendorEvent_received_iff.mp hevent).1
    · exact fun hvalid => ⟨_, vendorEvent_received_iff.mpr ⟨hvalid, rfl⟩⟩
  have hlength : ∀ payload, VendorEvent b.board bytes payload →
      payload.length + b.board.hciEventTotalOverhead = len ∧ ValidPacket b.board buf len := by
    intro payload hevent
    obtain ⟨hvalid, rfl⟩ := vendorEvent_received_iff.mp hevent
    have hmin := hvalid.minimum
    rw [length_payloadSlice]
    exact ⟨by omega, hvalid⟩
  refine ⟨fun n => ?_, ?_, validateHciEventPacket?_bounded _ _ _, ?_, ?_, ?_⟩
  · rw [validateHciEventPacket_eq_iff]
    refine and_congr_right fun hlen => ?_
    constructor
    · intro hvalid
      refine ⟨_, ?_, vendorEvent_received_iff.mpr ⟨hvalid, rfl⟩⟩
      rw [length_payloadSlice]
      omega
    · intro ⟨payload, _, hevent⟩
      exact (hlength payload hevent).2
  · rw [validateHciEventPacket_neg_iff, hexists]
  · intro payload hevent
    obtain ⟨hvalid, rfl⟩ := vendorEvent_received_iff.mp hevent
    rw [length_payloadSlice]
    exact ⟨hvalid.payload_le, deliver_valid hvalid⟩
  · intro hnone
    have hneg := validateHciEventPacket_neg_iff.mpr (hexists.mp hnone)
    simp only [deliver, hneg, if_true]
  · intro status payload hfits hbytes
    have hevent : VendorEvent b.board bytes payload := hbytes ▸ vendorEvent_encode status hfits
    exact ⟨(validateHciEventPacket_eq_iff _).mpr (hlength payload hevent), hevent⟩

end event
end AntHal.Bluez
