import AntHal.Chardev.Receive

/-!
The receive path refines the decomposition of the stream into frames.

Between two calls the buffer holds the incomplete rest of what has arrived on
the channel, and nothing else of it is ever used. One call is one step of the
abstract receiver of `Framing.Format`; the runs cover both channels in any order.
-/

namespace AntHal

open Framing

namespace RxBuffer

variable {b : RxBuffer} {beyond : Nat → UInt8} {stream : List UInt8}

theorem length_le_of_take (h : b.bytes.take stream.length = stream) :
    stream.length ≤ antHciMaxMsgSize := by
  have := congrArg List.length h
  rw [List.length_take, b.size] at this
  omega

/-- Inside the received bytes the buffer is read as the stream. -/
theorem get_of_take (h : b.bytes.take stream.length = stream) {i : Nat}
    (hi : i < stream.length) (x : UInt8) : b.get beyond i = stream.getD i x := by
  have hb : i < b.bytes.length := by
    rw [b.size]
    exact Nat.lt_of_lt_of_le hi (length_le_of_take h)
  unfold get
  rw [List.getD_eq_getElem _ _ hb, List.getD_eq_getElem _ _ hi]
  rw [List.getElem_of_eq h.symm hi, List.getElem_take]

theorem slice_of_take (h : b.bytes.take stream.length = stream) {off n : Nat}
    (hn : off + n ≤ stream.length) :
    b.slice beyond off n = (stream.drop off).take n := by
  apply List.ext_getElem
  · simp only [slice, List.length_map, List.length_range, List.length_take, List.length_drop]
    omega
  · intro i hi _
    have hin : i < n := by simpa [slice] using hi
    have hlt : off + i < stream.length := by omega
    simp only [slice, List.getElem_map, List.getElem_range, List.getElem_take,
      List.getElem_drop]
    rw [get_of_take h hlt 0, List.getD_eq_getElem _ _ hlt]

theorem store_take (kept data : List UInt8) (h : b.bytes.take kept.length = kept)
    (hd : kept.length + data.length ≤ antHciMaxMsgSize) :
    (b.store kept.length data).bytes.take (kept ++ data).length = kept ++ data := by
  have hdata : data.take (antHciMaxMsgSize - kept.length) = data :=
    List.take_of_length_le (by omega)
  simp only [store, hdata, h]
  rw [List.take_left]

end RxBuffer

/-- The buffer of a channel holds exactly `kept`, an incomplete frame. -/
structure RxState.Holds (d : HciDefines) (rx : RxState) (kept : List UInt8) : Prop where
  length : rx.iRxBufferLength = kept.length
  buffer : rx.aucRxBuffer.bytes.take kept.length = kept
  incomplete : ¬ d.format.Complete kept

namespace HciDefines

variable (d : HciDefines)

/-- The size byte of a frame and its payload. -/
def frameOf (f : List UInt8) : Nat × List UInt8 :=
  ((f.getD d.sizeOffset 0).toNat,
    (f.drop d.dataOffset).take (f.getD d.sizeOffset 0).toNat)

variable {d} {b : RxBuffer} (beyond : Nat → UInt8) {stream : List UInt8}

theorem frameOf_take (xs : List UInt8) :
    d.frameOf (xs.take (d.format.length xs)) =
      ((xs.getD d.sizeOffset 0).toNat,
        (xs.drop d.dataOffset).take (xs.getD d.sizeOffset 0).toNat) := by
  have hsize := d.sizeOffset_lt_headerSize
  have hlen : (xs.getD d.sizeOffset 0).toNat ≤ d.format.length xs - d.dataOffset := by
    simp only [format, dataOffset]
    omega
  have hlt : d.sizeOffset < d.format.length xs :=
    Nat.lt_of_lt_of_le hsize (d.format.header_le xs)
  have hget : (xs.take (d.format.length xs)).getD d.sizeOffset 0 = xs.getD d.sizeOffset 0 := by
    rw [List.getD_eq_getElem?_getD, List.getElem?_take_of_lt hlt,
      List.getD_eq_getElem?_getD]
  simp only [frameOf, hget, List.drop_take, List.take_take, Nat.min_eq_left hlen]

/-- The completeness test of the source, at any offset, is the one of the
format: a size byte that has not arrived cannot make a frame complete. -/
theorem complete_drop_iff (h : b.bytes.take stream.length = stream) {off : Nat}
    (hoff : off ≤ stream.length) :
    d.format.Complete (stream.drop off) ↔
      (b.get beyond (off + d.sizeOffset)).toNat + d.headerSize + d.footerSize + off ≤
        stream.length := by
  have hsize := d.sizeOffset_lt_headerSize
  simp only [Format.Complete, format, List.length_drop]
  by_cases hin : off + d.sizeOffset < stream.length
  · rw [RxBuffer.get_of_take h hin 0, List.getD_eq_getElem?_getD, List.getElem?_drop,
      List.getD_eq_getElem?_getD]
    omega
  · omega

end HciDefines

section oneCall
variable {d : HciDefines} {env : ReadEnv}

/-- Past the received bytes the loop ends, whatever fuel is left. -/
theorem frameLoop_end {iRxLenRead off : Nat} (h : iRxLenRead ≤ off) (fuel : Nat)
    (rx : RxState) (info : AntChannelInfo) :
    frameLoop d env iRxLenRead fuel off rx info = ⟨rx, info, [], [], 0⟩ := by
  cases fuel with
  | zero => rfl
  | succ fuel => simp only [frameLoop, Nat.not_lt.mpr h, if_false]

variable (env) in
/-- An incomplete frame is moved to the front and ends the loop. -/
theorem frameLoop_incomplete {stream : List UInt8} {off : Nat} (hoff : off < stream.length)
    {rx : RxState} (hbuf : rx.aucRxBuffer.bytes.take stream.length = stream)
    (hinc : ¬ d.format.Complete (stream.drop off)) (fuel : Nat) (info : AntChannelInfo) :
    let r := frameLoop d env stream.length (fuel + 1) off rx info
    r.actions = [] ∧ r.rx.Holds d (stream.drop off) ∧ r.info = info ∧ r.iRet = 0 := by
  have hlong := hinc
  rw [HciDefines.complete_drop_iff env.beyond hbuf (Nat.le_of_lt hoff)] at hlong
  have hdrop : (stream.drop off).length = stream.length - off := List.length_drop
  have hslice : rx.aucRxBuffer.slice env.beyond off (stream.length - off) = stream.drop off := by
    rw [RxBuffer.slice_of_take hbuf (by omega), ← hdrop, List.take_length]
  have hroom : (stream.drop off).length ≤ antHciMaxMsgSize := by
    have := RxBuffer.length_le_of_take hbuf
    omega
  simp only [frameLoop, hoff, if_true]
  rw [if_pos (by omega), frameLoop_end (by omega)]
  refine ⟨rfl, ⟨hdrop.symm, ?_, hinc⟩, rfl, rfl⟩
  rw [hslice]
  simpa only [List.nil_append, List.length_nil] using
    RxBuffer.store_take (b := rx.aucRxBuffer) [] (stream.drop off) rfl
      (by simpa only [List.length_nil, Nat.zero_add] using hroom)

@[simp] theorem Handling.apply_unlocked (info : AntChannelInfo) (h : Handling) :
    (h.apply 0 info).1 = 0 ∧ (h.apply 0 info).2.fnRxCallback = info.fnRxCallback := by
  cases h <;> simp [Handling.apply, setFlowControl]

/-- A complete frame is dispatched and the loop goes on behind it. -/
theorem frameLoop_complete (hlock : ∀ off, env.flowControlLock off = 0)
    {stream : List UInt8} {off : Nat} {rx : RxState}
    (hbuf : rx.aucRxBuffer.bytes.take stream.length = stream)
    (hc : d.format.Complete (stream.drop off)) (fuel : Nat) (info : AntChannelInfo) :
    let f := (stream.drop off).take (d.format.length (stream.drop off))
    let handling := classify d env rx.aucRxBuffer info (off + d.dataOffset)
    frameLoop d env stream.length (fuel + 1) off rx info =
      (frameLoop d env stream.length fuel (off + d.format.length (stream.drop off)) rx
        (handling.apply 0 info).2).dispatch
        (.frame (d.frameOf f).1 (d.frameOf f).2 handling) := by
  have hoff : off ≤ stream.length := by
    have := d.format.length_pos (stream.drop off)
    simp only [Format.Complete, List.length_drop] at hc
    omega
  have hsize := d.sizeOffset_lt_headerSize
  have hshort := (HciDefines.complete_drop_iff env.beyond hbuf hoff).mp hc
  have hbyte : rx.aucRxBuffer.get env.beyond (off + d.sizeOffset) =
      (stream.drop off).getD d.sizeOffset 0 := by
    rw [RxBuffer.get_of_take hbuf (by omega) 0, List.getD_eq_getElem?_getD,
      List.getD_eq_getElem?_getD, List.getElem?_drop]
  have hnext : off + d.headerSize + d.footerSize +
      ((stream.drop off).getD d.sizeOffset 0).toNat =
        off + d.format.length (stream.drop off) := by
    simp only [HciDefines.format]
    omega
  rw [hbyte] at hshort
  have hpayload : rx.aucRxBuffer.slice env.beyond (off + d.dataOffset)
      ((stream.drop off).getD d.sizeOffset 0).toNat =
        ((stream.drop off).drop d.dataOffset).take
          ((stream.drop off).getD d.sizeOffset 0).toNat := by
    rw [RxBuffer.slice_of_take hbuf, List.drop_drop]
    simp only [HciDefines.dataOffset]
    omega
  intro f handling
  rw [HciDefines.frameOf_take]
  simp only [frameLoop]
  rw [if_pos (by omega), hbyte, if_neg (by omega), hnext, hpayload, hlock, if_neg (by simp)]

/-- The loop finds the frames of the stream from its offset on and leaves the
rest at the front of the buffer. -/
theorem frameLoop_spec (hlock : ∀ off, env.flowControlLock off = 0) (stream : List UInt8)
    (fuel off : Nat) (hfuel : stream.length ≤ fuel + off) (hoff : off ≤ stream.length)
    (rx : RxState) (hzero : rx.iRxBufferLength = 0)
    (hbuf : rx.aucRxBuffer.bytes.take stream.length = stream) (info : AntChannelInfo) :
    let r := frameLoop d env stream.length fuel off rx info
    r.actions.filterMap RxAction.frame? = (d.format.frames (stream.drop off)).map d.frameOf ∧
      r.rx.Holds d (d.format.rest (stream.drop off)) ∧ r.iRet = 0 := by
  induction fuel generalizing off info with
  | zero =>
      have : off = stream.length := by omega
      subst this
      obtain ⟨h₁, h₂⟩ := Format.frames_of_incomplete d.format.not_complete_nil
      rw [frameLoop_end (Nat.le_refl _), List.drop_length, h₁, h₂]
      exact ⟨rfl, ⟨hzero, rfl, d.format.not_complete_nil⟩, rfl⟩
  | succ fuel ih =>
      by_cases hc : d.format.Complete (stream.drop off)
      · obtain ⟨h₁, h₂⟩ := Format.frames_of_complete hc
        have hstep := frameLoop_complete hlock hbuf hc fuel info
        have hpos := d.format.length_pos (stream.drop off)
        have hle : d.format.length (stream.drop off) ≤ stream.length - off := by
          simpa only [Format.Complete, List.length_drop] using hc
        obtain ⟨ih₁, ih₂, ih₃⟩ := ih (off + d.format.length (stream.drop off)) (by omega)
          (by omega) _
        rw [h₁, h₂, List.drop_drop, hstep]
        refine ⟨?_, ih₂, ih₃⟩
        simp only [ReadReport.dispatch, List.filterMap_cons, RxAction.frame?, ih₁,
          List.map_cons]
      · obtain ⟨h₁, h₂⟩ := Format.frames_of_incomplete hc
        rw [h₁, h₂]
        rcases Nat.lt_or_eq_of_le hoff with hlt | rfl
        · obtain ⟨ha, hr, -, hi⟩ := frameLoop_incomplete env hlt hbuf hc fuel info
          exact ⟨by simp [ha], hr, hi⟩
        · rw [frameLoop_end (Nat.le_refl _), List.drop_length]
          exact ⟨rfl, ⟨hzero, rfl, d.format.not_complete_nil⟩, rfl⟩

variable (env) in
/-- One call that reads bytes is one step of the abstract receiver. -/
theorem readChannelMsg_spec (hopcode : d.opcode = none)
    (hlock : ∀ off, env.flowControlLock off = 0) {bytes : List UInt8}
    (hread : env.result = .data bytes) {rx : RxState} {kept : List UInt8}
    (h : rx.Holds d kept) (info : AntChannelInfo) :
    let r := readChannelMsg d env rx info
    r.received = bytes.take (antHciMaxMsgSize - kept.length) ∧
      r.actions.filterMap RxAction.frame? =
        (d.format.frames (kept ++ r.received)).map d.frameOf ∧
      r.rx.Holds d (d.format.rest (kept ++ r.received)) ∧ r.iRet = 0 := by
  simp only [readChannelMsg, hread, h.length]
  generalize hchunk : bytes.take (antHciMaxMsgSize - kept.length) = chunk
  have hroom : kept.length + chunk.length ≤ antHciMaxMsgSize := by
    have := RxBuffer.length_le_of_take h.buffer
    have := congrArg List.length hchunk
    rw [List.length_take] at this
    omega
  have hbuf := RxBuffer.store_take _ _ h.buffer hroom
  have hlen : chunk.length + kept.length = (kept ++ chunk).length := by
    rw [List.length_append, Nat.add_comm]
  rw [hlen]
  have htest := HciDefines.complete_drop_iff (d := d) env.beyond hbuf
    (Nat.zero_le (kept ++ chunk).length)
  rw [List.drop_zero, Nat.zero_add, Nat.add_zero] at htest
  split
  · have hinc : ¬ d.format.Complete (kept ++ chunk) := by
      rw [htest]
      omega
    obtain ⟨h₁, h₂⟩ := Format.frames_of_incomplete hinc
    rw [h₁, h₂]
    exact ⟨rfl, rfl, ⟨rfl, hbuf, hinc⟩, rfl⟩
  · obtain ⟨h₁, h₂, h₃⟩ := frameLoop_spec hlock (kept ++ chunk) (kept ++ chunk).length 0
      (Nat.le_add_right _ _) (Nat.zero_le _)
      ⟨rx.aucRxBuffer.store kept.length chunk, 0⟩ rfl hbuf info
    rw [List.drop_zero] at h₁ h₂
    simp only [handlePackets, hopcode]
    exact ⟨trivial, h₁, h₂, h₃⟩

/-- The action is a frame classified by `classify`, at some place of the buffer. -/
def Dispatches (d : HciDefines) (registered : Bool) (a : RxAction) : Prop :=
  ∃ (env : ReadEnv) (b : RxBuffer) (info : AntChannelInfo) (msg n : Nat),
    info.fnRxCallback = registered ∧
      a = .frame n (b.slice env.beyond msg n) (classify d env b info msg)

theorem frameLoop_dispatches (iRxLenRead fuel off : Nat) (rx : RxState)
    (info : AntChannelInfo) :
    let r := frameLoop d env iRxLenRead fuel off rx info
    r.info.fnRxCallback = info.fnRxCallback ∧
      ∀ a ∈ r.actions, Dispatches d info.fnRxCallback a := by
  induction fuel generalizing off rx info with
  | zero => exact ⟨rfl, fun _ h => nomatch h⟩
  | succ fuel ih =>
      simp only [frameLoop]
      split
      · split
        · exact ih _ _ info
        · have hkeep : ∀ lock (h : Handling),
              (h.apply lock info).2.fnRxCallback = info.fnRxCallback := by
            intro lock h
            cases h <;> simp only [Handling.apply, setFlowControl]
            split <;> rfl
          split
          · refine ⟨hkeep _ _, fun a ha => ?_⟩
            rw [List.mem_singleton.mp ha]
            exact ⟨env, rx.aucRxBuffer, info, _, _, rfl, rfl⟩
          · obtain ⟨ih₁, ih₂⟩ := ih _ rx _
            refine ⟨ih₁.trans (hkeep _ _), fun a ha => ?_⟩
            rcases List.mem_cons.mp ha with rfl | ha
            · exact ⟨env, rx.aucRxBuffer, info, _, _, rfl, rfl⟩
            · exact hkeep _ _ ▸ ih₂ a ha
      · exact ⟨rfl, fun _ h => nomatch h⟩

theorem frameLoop_info (iRxLenRead fuel off : Nat) (rx : RxState) (info : AntChannelInfo) :
    ∃ v, (frameLoop d env iRxLenRead fuel off rx info).info =
      { info with ucFlowControlResp := v } := by
  induction fuel generalizing off rx info with
  | zero => exact ⟨_, rfl⟩
  | succ fuel ih =>
      have happly : ∀ lock (h : Handling), ∃ v, (h.apply lock info).2 =
          { info with ucFlowControlResp := v } := by
        intro lock h
        cases h <;> simp only [Handling.apply, setFlowControl]
        case flowControl => split <;> exact ⟨_, rfl⟩
        all_goals exact ⟨_, rfl⟩
      simp only [frameLoop]
      split
      · split
        · exact ih _ _ info
        · split
          · exact happly _ _
          · obtain ⟨v, hv⟩ := happly (env.flowControlLock off)
              (classify d env rx.aucRxBuffer info (off + d.dataOffset))
            obtain ⟨w, hw⟩ := ih _ rx _
            refine ⟨w, hw.trans ?_⟩
            rw [hv]
      · exact ⟨_, rfl⟩

variable (env) in
theorem readChannelMsg_dispatches (hopcode : d.opcode = none) (rx : RxState)
    (info : AntChannelInfo) :
    let r := readChannelMsg d env rx info
    r.info.fnRxCallback = info.fnRxCallback ∧
      ∀ a ∈ r.actions, Dispatches d info.fnRxCallback a := by
  simp only [readChannelMsg]
  split
  · split
    · exact ⟨rfl, fun _ h => nomatch h⟩
    · simp only [handlePackets, hopcode]
      exact frameLoop_dispatches _ _ _ _ info
  all_goals exact ⟨rfl, fun _ h => nomatch h⟩

variable (d env) in
/-- A call changes nothing of the channel but its flow control response. -/
theorem readChannelMsg_info (rx : RxState) (info : AntChannelInfo) :
    ∃ v, (readChannelMsg d env rx info).info = { info with ucFlowControlResp := v } := by
  have hset : ∀ lock v, ∃ w, (setFlowControl lock info v).2 =
      { info with ucFlowControlResp := w } := by
    intro lock v
    unfold setFlowControl
    split
    · exact ⟨_, rfl⟩
    · exact ⟨_, rfl⟩
  simp only [readChannelMsg]
  split
  · split
    · exact ⟨_, rfl⟩
    · simp only [handlePackets]
      split
      · exact frameLoop_info _ _ _ _ _
      · split
        · exact hset _ _
        · split
          · split
            · split <;> exact ⟨_, rfl⟩
            · exact ⟨_, rfl⟩
          · split
            · exact frameLoop_info _ _ _ _ _
            · exact ⟨_, rfl⟩
  all_goals exact ⟨_, rfl⟩

/-- With a callback registered no frame is dropped for want of one. -/
theorem Dispatches.delivered {n : Nat} {msg : List UInt8} {handling : Handling}
    (h : Dispatches d true (.frame n msg handling)) : handling ≠ .rxCallbackNull := by
  obtain ⟨env, b, info, off, m, hreg, heq⟩ := h
  simp only [RxAction.frame.injEq] at heq
  rw [heq.2.2]
  simp only [classify, hreg, if_true]
  split
  · simp
  · split <;> simp

end oneCall

/-! ### Runs over all channels -/

/-- The receive state of all channels: aucRxBuffer, iRxBufferLength, astChannels. -/
structure Receiver where
  rx : AntChannelType → RxState
  info : AntChannelType → AntChannelInfo

/-- The receiver after start-up, for any setting of the channels. -/
def Receiver.init (info : AntChannelType → AntChannelInfo) : Receiver := ⟨fun _ => .init, info⟩

/-- Bytes that a read on one channel delivers. -/
structure Arrival where
  channel : AntChannelType
  bytes : List UInt8
  beyond : Nat → UInt8

/-- The read succeeds and the flow control mutex can be locked. -/
def Arrival.env (a : Arrival) : ReadEnv := ⟨.data a.bytes, a.beyond, fun _ => 0⟩

namespace Receiver

variable (d : HciDefines)

def read (a : Arrival) (r : Receiver) : Receiver × ReadReport :=
  let report := readChannelMsg d a.env (r.rx a.channel) (r.info a.channel)
  (⟨Function.update r.rx a.channel report.rx, Function.update r.info a.channel report.info⟩,
    report)

/-- The calls of `readChannelMsg` for a list of arrivals, with what each reports. -/
def run : List Arrival → Receiver → Receiver × List (AntChannelType × ReadReport)
  | [], r => (r, [])
  | a :: as, r =>
    let step := r.read d a
    let rest := run as step.1
    (rest.1, (a.channel, step.2) :: rest.2)

/-- Every read fits the room that the call offers. -/
def Fits : List Arrival → Receiver → Prop
  | [], _ => True
  | a :: as, r =>
    a.bytes.length ≤ antHciMaxMsgSize - (r.rx a.channel).iRxBufferLength ∧
      Fits as (r.read d a).1

end Receiver

section log
variable (ch : AntChannelType) (log : List (AntChannelType × ReadReport))

/-- What the calls on one channel report. -/
def reportsOn : List ReadReport :=
  log.filterMap fun e => if e.1 = ch then some e.2 else none

/-- The byte stream of one channel, as it went into the buffer. -/
def receivedOn : List UInt8 := ((reportsOn ch log).map ReadReport.received).flatten

/-- The frames dispatched on one channel, in order. -/
def dispatchedOn : List (Nat × List UInt8) :=
  ((reportsOn ch log).map fun r => r.actions.filterMap RxAction.frame?).flatten

end log

/-- The stream that the arrivals make on one channel. -/
def streamOn (ch : AntChannelType) (as : List Arrival) : List UInt8 :=
  (as.filterMap fun a => if a.channel = ch then some a.bytes else none).flatten

section runs
variable {d : HciDefines} {ch : AntChannelType}

theorem Receiver.read_other {a : Arrival} (h : a.channel ≠ ch) (r : Receiver) :
    (r.read d a).1.rx ch = r.rx ch ∧ (r.read d a).1.info ch = r.info ch :=
  ⟨Function.update_of_ne (Ne.symm h) _ _, Function.update_of_ne (Ne.symm h) _ _⟩

variable (ch) in
theorem Receiver.run_spec (hopcode : d.opcode = none) (as : List Arrival) (r : Receiver)
    (kept : List UInt8) (h : (r.rx ch).Holds d kept) :
    let out := r.run d as
    dispatchedOn ch out.2 =
        (d.format.frames (kept ++ receivedOn ch out.2)).map d.frameOf ∧
      (out.1.rx ch).Holds d (d.format.rest (kept ++ receivedOn ch out.2)) := by
  induction as generalizing r kept with
  | nil =>
      obtain ⟨h₁, h₂⟩ := Format.frames_of_incomplete h.incomplete
      simp only [Receiver.run, receivedOn, dispatchedOn, reportsOn, List.filterMap_nil,
        List.map_nil, List.flatten_nil, List.append_nil, h₁, h₂]
      exact ⟨trivial, h⟩
  | cons a as ih =>
      by_cases hch : a.channel = ch
      · subst hch
        obtain ⟨-, hframes, hholds, -⟩ := readChannelMsg_spec a.env hopcode
          (fun _ => rfl) rfl h (r.info a.channel)
        have hnext : ((r.read d a).1.rx a.channel).Holds d
            (d.format.rest (kept ++ (r.read d a).2.received)) := by
          simpa only [Receiver.read, Function.update_self] using hholds
        obtain ⟨ih₁, ih₂⟩ := ih _ _ hnext
        have happ := d.format.frames_append (kept ++ (r.read d a).2.received)
          (receivedOn a.channel (Receiver.run d as (r.read d a).1).2)
        simp only [Receiver.run, receivedOn, dispatchedOn, reportsOn, List.filterMap_cons,
          if_true, List.map_cons, List.flatten_cons] at ih₁ ih₂ happ ⊢
        rw [← List.append_assoc, happ.1, happ.2, List.map_append, ← ih₁]
        exact ⟨congrArg (· ++ _) hframes, ih₂⟩
      · have hnext := h
        rw [← (Receiver.read_other (d := d) hch r).1] at hnext
        simpa only [Receiver.run, receivedOn, dispatchedOn, reportsOn, List.filterMap_cons,
          hch, if_false] using ih _ _ hnext

theorem Receiver.run_dispatches (hopcode : d.opcode = none) (as : List Arrival)
    (r : Receiver) :
    ∀ report ∈ reportsOn ch (r.run d as).2, ∀ a ∈ report.actions,
      Dispatches d (r.info ch).fnRxCallback a := by
  induction as generalizing r with
  | nil => exact fun _ hmem => nomatch hmem
  | cons a as ih =>
      by_cases hch : a.channel = ch
      · subst hch
        obtain ⟨hkeep, hdis⟩ := readChannelMsg_dispatches a.env hopcode
          (r.rx a.channel) (r.info a.channel)
        have hnext : ((r.read d a).1.info a.channel).fnRxCallback =
            (r.info a.channel).fnRxCallback := by
          simpa only [Receiver.read, Function.update_self] using hkeep
        intro report hmem
        simp only [Receiver.run, reportsOn, List.filterMap_cons, if_true] at hmem
        rcases List.mem_cons.mp hmem with rfl | hmem
        · exact hdis
        · exact hnext ▸ ih _ report hmem
      · rw [← (Receiver.read_other (d := d) hch r).2]
        simpa only [Receiver.run, reportsOn, List.filterMap_cons, hch, if_false] using ih _

/-- Reads that fit the offered room make up the whole stream. -/
theorem Receiver.receivedOn_of_fits (hopcode : d.opcode = none) (as : List Arrival)
    (r : Receiver) (kept : List UInt8) (h : (r.rx ch).Holds d kept) (hfits : r.Fits d as) :
    receivedOn ch (r.run d as).2 = streamOn ch as := by
  induction as generalizing r kept with
  | nil => rfl
  | cons a as ih =>
      by_cases hch : a.channel = ch
      · subst hch
        obtain ⟨hrec, -, hholds, -⟩ := readChannelMsg_spec a.env hopcode
          (fun _ => rfl) rfl h (r.info a.channel)
        have hnext : ((r.read d a).1.rx a.channel).Holds d
            (d.format.rest (kept ++ (r.read d a).2.received)) := by
          simpa only [Receiver.read, Function.update_self] using hholds
        have hwhole : (r.read d a).2.received = a.bytes := by
          refine hrec.trans (List.take_of_length_le ?_)
          rw [← h.length]
          exact hfits.1
        have htail := ih _ _ hnext hfits.2
        simp only [receivedOn, reportsOn, streamOn, Receiver.run, List.filterMap_cons, if_true,
          List.map_cons, List.flatten_cons] at htail ⊢
        rw [hwhole, htail]
      · have hnext := h
        rw [← (Receiver.read_other (d := d) hch r).1] at hnext
        simpa only [receivedOn, reportsOn, streamOn, Receiver.run, List.filterMap_cons, hch,
          if_false] using ih _ _ hnext hfits.2

theorem RxState.init_holds : RxState.init.Holds d [] :=
  ⟨rfl, rfl, d.format.not_complete_nil⟩

end runs

/-- Reassembly does not depend on the chunks: on every channel the dispatched
frames are the frames of the stream, and the buffer holds its incomplete rest.
With a callback registered, each of them goes somewhere. -/
theorem readChannelMsg_reassembles (info : AntChannelType → AntChannelInfo)
    (as : List Arrival) (ch : AntChannelType) :
    let d := HciDefines.shipped
    let out := (Receiver.init info).run d as
    let stream := receivedOn ch out.2
    let tail := d.format.rest stream
    ((Receiver.init info).Fits d as → stream = streamOn ch as) ∧
      dispatchedOn ch out.2 = (d.format.frames stream).map d.frameOf ∧
      (out.1.rx ch).iRxBufferLength = tail.length ∧
      (out.1.rx ch).aucRxBuffer.bytes.take (out.1.rx ch).iRxBufferLength = tail ∧
      ((info ch).fnRxCallback = true → ∀ report ∈ reportsOn ch out.2,
        ∀ n msg handling, .frame n msg handling ∈ report.actions →
          handling ≠ .rxCallbackNull) := by
  obtain ⟨hframes, hholds⟩ := Receiver.run_spec (d := .shipped) ch rfl as
    (Receiver.init info) [] RxState.init_holds
  rw [List.nil_append] at hframes hholds
  refine ⟨?_, hframes, hholds.length, ?_, ?_⟩
  · exact Receiver.receivedOn_of_fits rfl as _ [] RxState.init_holds
  · rw [hholds.length]
    exact hholds.buffer
  · intro hreg report hmem n msg handling ha
    have h := Receiver.run_dispatches rfl as (Receiver.init info) report hmem _ ha
    simp only [Receiver.init, hreg] at h
    exact h.delivered

end AntHal
