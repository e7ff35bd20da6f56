import AntHal.Chardev.RoundTrip

/-!
What the loop of `readChannelMsg` decides about one complete frame.

The id byte, the flow setting and the keepalive response are read at fixed
offsets behind the size byte, whatever the size byte says. A frame that is long
enough decides by itself; a shorter one is decided by what lies behind it.
-/

namespace AntHal

/-- A place where the loop finds a complete frame with this payload. -/
structure FrameAt (d : HciDefines) (payload : List UInt8) where
  env : ReadEnv
  aucRxBuffer : RxBuffer
  iRxLenRead : Nat
  iCurrentHciPacketOffset : Nat
  inArray : iRxLenRead ≤ antHciMaxMsgSize
  size : (aucRxBuffer.get env.beyond (iCurrentHciPacketOffset + d.sizeOffset)).toNat =
    payload.length
  data : aucRxBuffer.slice env.beyond (iCurrentHciPacketOffset + d.dataOffset) payload.length =
    payload
  complete : payload.length + d.headerSize + d.footerSize + iCurrentHciPacketOffset ≤ iRxLenRead

/-- The decision of `classify` about the bytes from the payload on. -/
def classifyBytes (d : HciDefines) (info : AntChannelInfo) (xs : List UInt8) : Handling :=
  if isFlowControlMsg d (xs.getD antMsgIdOffset 0) then
    .flowControl (xs.getD antMsgDataOffset 0)
  else if xs.take keepAliveResp.length == keepAliveResp then .keepAliveResponse
  else if info.fnRxCallback then .rxCallback
  else .rxCallbackNull

/-- Five bytes from the payload on are all that is ever looked at. -/
theorem classify_eq (d : HciDefines) (env : ReadEnv) (b : RxBuffer) (info : AntChannelInfo)
    (msg : Nat) {n : Nat} (hn : keepAliveResp.length ≤ n) :
    classify d env b info msg = classifyBytes d info (b.slice env.beyond msg n) := by
  have hid : antMsgIdOffset < n := Nat.lt_of_lt_of_le (by decide) hn
  have hvalue : antMsgDataOffset < n := Nat.lt_of_lt_of_le (by decide) hn
  simp only [classify, classifyBytes, RxBuffer.take_slice _ _ _ hn,
    RxBuffer.getD_slice _ _ _ hid, RxBuffer.getD_slice _ _ _ hvalue]

namespace FrameAt

variable {d : HciDefines} {payload : List UInt8} (s : FrameAt d payload)

/-- The local variable of the loop. -/
def msg : Nat := s.iCurrentHciPacketOffset + d.dataOffset

def handling (info : AntChannelInfo) : Handling :=
  classify d s.env s.aucRxBuffer info s.msg

/-- One iteration of the loop, at this place. -/
def iteration (info : AntChannelInfo) : ReadReport :=
  frameLoop d s.env s.iRxLenRead 1 s.iCurrentHciPacketOffset ⟨s.aucRxBuffer, 0⟩ info

/-- What the frame's bytes are followed by, as far as it can matter. -/
def behind : List UInt8 :=
  s.aucRxBuffer.slice s.env.beyond (s.msg + payload.length) keepAliveResp.length

/-- The indices of aucRxBuffer that the iteration reads. -/
def consulted : List Nat :=
  (s.iCurrentHciPacketOffset + d.sizeOffset) ::
    ((if d.flowControl.isSome then [s.msg + antMsgIdOffset] else []) ++
      if isFlowControlMsg d (s.aucRxBuffer.get s.env.beyond (s.msg + antMsgIdOffset)) then
        [s.msg + antMsgDataOffset]
      else (List.range keepAliveResp.length).map (s.msg + ·))

/-- No other index is read: places that agree on these hold frames of one size, which
are handled alike. -/
theorem consulted_decides {payload' : List UInt8} (s' : FrameAt d payload')
    (hoffset : s'.iCurrentHciPacketOffset = s.iCurrentHciPacketOffset)
    (h : ∀ i ∈ s.consulted,
      s'.aucRxBuffer.get s'.env.beyond i = s.aucRxBuffer.get s.env.beyond i)
    (info : AntChannelInfo) :
    payload'.length = payload.length ∧ s'.handling info = s.handling info := by
  have hmsg : s'.msg = s.msg := congrArg (· + d.dataOffset) hoffset
  constructor
  · have hsize := h _ (List.mem_cons_self)
    rw [← s.size, ← s'.size, hoffset, hsize]
  · have hid : isFlowControlMsg d (s'.aucRxBuffer.get s'.env.beyond (s.msg + antMsgIdOffset)) =
        isFlowControlMsg d (s.aucRxBuffer.get s.env.beyond (s.msg + antMsgIdOffset)) := by
      cases hflow : d.flowControl with
      | none => simp [isFlowControlMsg, hflow]
      | some flowControl =>
          rw [h _ (by simp [consulted, hflow])]
    simp only [handling, classify, hmsg, hid]
    split
    · rename_i hcontrol
      rw [h _ (by simp [consulted, hcontrol])]
    · rename_i hdata
      have hresp : s'.aucRxBuffer.slice s'.env.beyond s.msg keepAliveResp.length =
          s.aucRxBuffer.slice s.env.beyond s.msg keepAliveResp.length := by
        apply List.map_congr_left
        intro i hi
        refine h _ ?_
        simp only [consulted, hdata, List.mem_cons, List.mem_append]
        exact .inr (.inr (List.mem_map_of_mem hi))
      rw [hresp]

/-- The iteration dispatches the frame; what is left to say is where to. -/
theorem loop_eq (fuel n : Nat) (info : AntChannelInfo) :
    let handled := (s.handling info).apply (s.env.flowControlLock s.iCurrentHciPacketOffset) info
    let action := RxAction.frame payload.length payload (s.handling info)
    frameLoop d s.env s.iRxLenRead (fuel + 1) s.iCurrentHciPacketOffset
        ⟨s.aucRxBuffer, n⟩ info =
      if handled.1 ≠ 0 then ⟨⟨s.aucRxBuffer, n⟩, handled.2, [], [action], -1⟩
      else
        (frameLoop d s.env s.iRxLenRead fuel
          (s.iCurrentHciPacketOffset + d.headerSize + d.footerSize + payload.length)
          ⟨s.aucRxBuffer, n⟩ handled.2).dispatch action := by
  have hpos : 0 < d.headerSize := Nat.zero_lt_of_lt d.sizeOffset_lt_headerSize
  have hcomplete := s.complete
  intro handled action
  simp only [frameLoop, s.size, s.data]
  rw [if_pos (by omega), if_neg (by omega)]
  rfl

theorem iteration_eq (info : AntChannelInfo) :
    let handled := (s.handling info).apply (s.env.flowControlLock s.iCurrentHciPacketOffset) info
    s.iteration info =
      ⟨⟨s.aucRxBuffer, 0⟩, handled.2, [], [.frame payload.length payload (s.handling info)],
        if handled.1 ≠ 0 then -1 else 0⟩ := by
  intro handled
  unfold iteration
  rw [s.loop_eq]
  split <;> rfl

theorem handling_eq (info : AntChannelInfo) :
    s.handling info = classifyBytes d info (payload ++ s.behind) := by
  have h := classify_eq d s.env s.aucRxBuffer info s.msg
    (Nat.le_add_left keepAliveResp.length payload.length)
  rw [RxBuffer.slice_append, msg, s.data] at h
  exact h

theorem id_eq (h : antMsgIdOffset < payload.length) :
    s.aucRxBuffer.get s.env.beyond (s.msg + antMsgIdOffset) = payload.getD antMsgIdOffset 0 := by
  rw [← RxBuffer.getD_slice _ _ _ h 0, msg, s.data]

end FrameAt

section decision
variable {payload : List UInt8}

/-- The frame has every byte that its handling depends on. -/
def DecidesAlone (payload : List UInt8) : Prop :=
  2 ≤ payload.length ∧ (payload.getD antMsgIdOffset 0 = 0xC9 → 3 ≤ payload.length) ∧
    (payload <+: keepAliveResp → keepAliveResp.length ≤ payload.length)

instance (payload : List UInt8) : Decidable (DecidesAlone payload) :=
  inferInstanceAs (Decidable (_ ∧ _ ∧ _))

/-- The frame has every byte that its handling reads. -/
def ReadsInside (payload : List UInt8) : Prop :=
  if payload.getD antMsgIdOffset 0 = 0xC9 then 3 ≤ payload.length
  else keepAliveResp.length ≤ payload.length

instance (payload : List UInt8) : Decidable (ReadsInside payload) :=
  inferInstanceAs (Decidable (if payload.getD antMsgIdOffset 0 = 0xC9 then 3 ≤ payload.length
    else keepAliveResp.length ≤ payload.length))

@[simp] theorem shipped_isFlowControlMsg (id : UInt8) :
    isFlowControlMsg .shipped id = (id == 0xC9) := rfl

theorem ReadsInside.decidesAlone (h : ReadsInside payload) : DecidesAlone payload := by
  unfold ReadsInside at h
  split at h
  case isTrue hid =>
      refine ⟨Nat.le_of_succ_le h, fun _ => h, fun ⟨rest, hrest⟩ => ?_⟩
      have hresp := congrArg (·.getD antMsgIdOffset 0) hrest
      simp only [List.getD_append _ _ _ antMsgIdOffset (Nat.lt_of_succ_lt h), hid] at hresp
      exact absurd hresp (by decide)
  case isFalse hid =>
      exact ⟨Nat.le_trans (by decide) h, fun hid' => absurd hid' hid, fun _ => h⟩

/-- What follows the payload does not matter to a frame that decides alone. -/
theorem classifyBytes_append (h : DecidesAlone payload) (info : AntChannelInfo)
    (after : List UInt8) :
    classifyBytes .shipped info (payload ++ after) = classifyBytes .shipped info payload := by
  obtain ⟨hid, hvalue, hresp⟩ := h
  unfold classifyBytes
  rw [List.getD_append _ _ _ antMsgIdOffset hid]
  by_cases hflow : payload.getD antMsgIdOffset 0 = 0xC9
  · rw [List.getD_append _ _ _ antMsgDataOffset (hvalue hflow)]
    simp only [shipped_isFlowControlMsg, hflow, beq_self_eq_true, if_true]
  · have htake : ((payload ++ after).take keepAliveResp.length == keepAliveResp) =
        (payload.take keepAliveResp.length == keepAliveResp) := by
      by_cases hlen : keepAliveResp.length ≤ payload.length
      · rw [List.take_append_of_le_length hlen]
      · have hshort : payload.take keepAliveResp.length ≠ keepAliveResp := fun heq =>
          hlen (hresp ⟨[], by
            rw [List.append_nil, ← heq, List.take_of_length_le (Nat.le_of_not_le hlen)]⟩)
        have hlong : (payload ++ after).take keepAliveResp.length ≠ keepAliveResp :=
          fun heq => hlen (hresp (by
            rw [← heq]
            exact List.prefix_take_iff.mpr
              ⟨List.prefix_append _ _, Nat.le_of_not_le hlen⟩))
        rw [beq_eq_false_iff_ne.mpr hshort, beq_eq_false_iff_ne.mpr hlong]
    rw [htake]
    simp only [shipped_isFlowControlMsg, beq_eq_false_iff_ne.mpr hflow, Bool.false_eq_true,
      if_false]

theorem classifyBytes_flow {xs : List UInt8} (h : xs.getD antMsgIdOffset 0 = 0xC9)
    (info : AntChannelInfo) :
    classifyBytes .shipped info xs = .flowControl (xs.getD antMsgDataOffset 0) := by
  simp only [classifyBytes, shipped_isFlowControlMsg, h, beq_self_eq_true, if_true]

theorem classifyBytes_other {xs : List UInt8} (h : xs.getD antMsgIdOffset 0 ≠ 0xC9)
    (info : AntChannelInfo) :
    classifyBytes .shipped info xs =
      if xs.take keepAliveResp.length = keepAliveResp then .keepAliveResponse
      else if info.fnRxCallback then .rxCallback else .rxCallbackNull := by
  simp only [classifyBytes, shipped_isFlowControlMsg, beq_eq_false_iff_ne.mpr h,
    Bool.false_eq_true, if_false, beq_iff_eq]

private theorem getD_replicate_behind {i n : Nat} (x : UInt8) (h : payload.length ≤ i)
    (hi : i < payload.length + n) : (payload ++ List.replicate n x).getD i 0 = x := by
  rw [List.getD_append_right _ _ _ _ h,
    List.getD_eq_getElem _ _ (by rw [List.length_replicate]; omega), List.getElem_replicate]

/-- A payload is handled in two ways, by what follows it in the buffer. -/
def Ambiguous (payload : List UInt8) (info : AntChannelInfo) : Prop :=
  ∃ after after' : List UInt8, after.length = keepAliveResp.length ∧
    after'.length = keepAliveResp.length ∧
    classifyBytes .shipped info (payload ++ after) ≠
      classifyBytes .shipped info (payload ++ after')

/-- The id lies behind the frame. -/
theorem ambiguous_id (h : payload.length < 2) (info : AntChannelInfo) : Ambiguous payload info := by
  have hgetId : ∀ x : UInt8, (payload ++ List.replicate 5 x).getD antMsgIdOffset 0 = x := fun x =>
    getD_replicate_behind x (by simp only [antMsgIdOffset]; omega)
      (by simp only [antMsgIdOffset]; omega)
  refine ⟨List.replicate 5 0xC9, List.replicate 5 0, rfl, rfl, ?_⟩
  rw [classifyBytes_flow (hgetId _), classifyBytes_other (by rw [hgetId]; decide)]
  split
  · simp
  · split <;> simp

/-- A flow control packet without a value. -/
theorem ambiguous_flow (hid : 2 ≤ payload.length) (hflow : payload.getD antMsgIdOffset 0 = 0xC9)
    (hshort : ¬ 3 ≤ payload.length) (info : AntChannelInfo) : Ambiguous payload info := by
  have hgetId : ∀ after, (payload ++ after).getD antMsgIdOffset 0 =
      payload.getD antMsgIdOffset 0 := fun after => List.getD_append _ _ _ _ hid
  refine ⟨List.replicate 5 0, List.replicate 5 1, rfl, rfl, ?_⟩
  rw [classifyBytes_flow (by rwa [hgetId]), classifyBytes_flow (by rwa [hgetId]),
    getD_replicate_behind _ (by simp only [antMsgDataOffset]; omega)
      (by simp only [antMsgDataOffset]; omega),
    getD_replicate_behind _ (by simp only [antMsgDataOffset]; omega)
      (by simp only [antMsgDataOffset]; omega)]
  simp

/-- The payload begins the response without ending it. -/
theorem ambiguous_response (hid : 2 ≤ payload.length) (hresp : payload <+: keepAliveResp)
    (hshort : ¬ keepAliveResp.length ≤ payload.length) (info : AntChannelInfo) :
    Ambiguous payload info := by
  obtain ⟨rest, hrest⟩ := hresp
  have hgetId : ∀ after, (payload ++ after).getD antMsgIdOffset 0 =
      payload.getD antMsgIdOffset 0 := fun after => List.getD_append _ _ _ _ hid
  have hflow : payload.getD antMsgIdOffset 0 ≠ 0xC9 := by
    rw [← hgetId rest, hrest]
    decide
  have hlast : (payload ++ List.replicate 5 0xC9).take keepAliveResp.length ≠ keepAliveResp := by
    intro heq
    have hfour : payload.length ≤ 4 := Nat.le_of_lt_succ (Nat.lt_of_not_le hshort)
    have hbyte := congrArg (·.getD 4 0) heq
    simp only [List.getD_eq_getElem?_getD] at hbyte
    rw [List.getElem?_take_of_lt (by decide), ← List.getD_eq_getElem?_getD,
      getD_replicate_behind (i := 4) _ hfour (by omega)] at hbyte
    exact absurd hbyte (by decide)
  refine ⟨(rest ++ List.replicate payload.length 0), List.replicate 5 0xC9, ?_, rfl, ?_⟩
  · rw [List.length_append, List.length_replicate, ← hrest, List.length_append, Nat.add_comm]
  · rw [classifyBytes_other (by rwa [hgetId]), classifyBytes_other (by rwa [hgetId]),
      if_neg hlast, ← List.append_assoc, hrest, if_pos List.take_left]
    split <;> simp

/-- A frame that does not decide alone is handled in two ways. -/
theorem classifyBytes_differ (h : ¬ DecidesAlone payload) (info : AntChannelInfo) :
    ∃ after after' : List UInt8, after.length = keepAliveResp.length ∧
      after'.length = keepAliveResp.length ∧
      classifyBytes .shipped info (payload ++ after) ≠
        classifyBytes .shipped info (payload ++ after') := by
  by_cases hid : 2 ≤ payload.length
  · by_cases hvalue : payload.getD antMsgIdOffset 0 = 0xC9 → 3 ≤ payload.length
    · obtain ⟨hresp, hshort⟩ := Classical.not_imp.mp fun hresp => h ⟨hid, hvalue, hresp⟩
      exact ambiguous_response hid hresp hshort info
    · obtain ⟨hflow, hshort⟩ := Classical.not_imp.mp hvalue
      exact ambiguous_flow hid hflow hshort info
  · exact ambiguous_id (Nat.lt_of_not_le hid) info

end decision

section stale
variable {payload : List UInt8}

/-- A buffer and the memory behind it, with given contents. -/
def RxBuffer.ofMemory (stream : Memory) : RxBuffer :=
  ⟨(List.range antHciMaxMsgSize).map stream, by rw [List.length_map, List.length_range]⟩

theorem RxBuffer.get_ofMemory (stream : Memory) (i : Nat) :
    (RxBuffer.ofMemory stream).get stream i = stream i := by
  unfold RxBuffer.get RxBuffer.ofMemory
  by_cases hi : i < antHciMaxMsgSize
  · rw [List.getD_eq_getElem _ _ (by simpa using hi)]
    simp only [List.getElem_map, List.getElem_range]
  · rw [List.getD_eq_default _ _ (by simpa using hi)]

theorem RxBuffer.slice_ofMemory (xs : List UInt8) {off n : Nat} (h : off + n ≤ xs.length) :
    (RxBuffer.ofMemory fun i => xs.getD i 0).slice (fun i => xs.getD i 0) off n =
      (xs.drop off).take n := by
  apply List.ext_getElem
  · rw [RxBuffer.length_slice, List.length_take, List.length_drop]
    omega
  · intro i hi _
    have hin : i < n := by rwa [RxBuffer.length_slice] at hi
    simp only [RxBuffer.slice, List.getElem_map, List.getElem_range, RxBuffer.get_ofMemory,
      List.getElem_take, List.getElem_drop]
    exact List.getD_eq_getElem _ _ (by omega)

/-- A frame of the shipped framing with stale bytes behind it. -/
def staleMemory (payload stale : List UInt8) : Memory := fun i =>
  (UInt8.ofNat payload.length :: (payload ++ stale)).getD i 0

theorem staleMemory_size (stale : List UInt8) (h : payload.length < 256) :
    ((RxBuffer.ofMemory (staleMemory payload stale)).get (staleMemory payload stale)
      (0 + HciDefines.shipped.sizeOffset)).toNat = payload.length := by
  rw [RxBuffer.get_ofMemory]
  exact UInt8.toNat_ofNat_of_lt h

theorem staleMemory_data (payload stale : List UInt8) :
    (RxBuffer.ofMemory (staleMemory payload stale)).slice (staleMemory payload stale)
      (0 + HciDefines.shipped.dataOffset) payload.length = payload := by
  have hoffset : 0 + HciDefines.shipped.dataOffset = 1 := rfl
  unfold staleMemory
  rw [hoffset, RxBuffer.slice_ofMemory]
  · exact List.take_left
  · simp only [List.length_cons, List.length_append]
    omega

theorem shipped_complete (payload : List UInt8) :
    payload.length + HciDefines.shipped.headerSize + HciDefines.shipped.footerSize + 0 ≤
      payload.length + 1 :=
  Nat.le_refl _

/-- The frame ends what was read. -/
def FrameAt.before (stale : List UInt8) (h : payload.length < 256) :
    FrameAt .shipped payload where
  env := ⟨.data [], staleMemory payload stale, fun _ => 0⟩
  aucRxBuffer := .ofMemory (staleMemory payload stale)
  iRxLenRead := payload.length + 1
  iCurrentHciPacketOffset := 0
  inArray := Nat.le_trans h (Nat.le_add_right 256 4)
  size := staleMemory_size stale h
  data := staleMemory_data payload stale
  complete := shipped_complete payload

theorem FrameAt.before_handling {stale : List UInt8} (hs : stale.length = keepAliveResp.length)
    (h : payload.length < 256) (info : AntChannelInfo) :
    (FrameAt.before stale h).handling info =
      classifyBytes .shipped info (payload ++ stale) := by
  have hbehind : (FrameAt.before stale h).behind = stale := by
    simp only [behind, before, msg]
    unfold staleMemory
    rw [RxBuffer.slice_ofMemory]
    · simp only [HciDefines.shipped, HciDefines.plain_dataOffset, SizeField.bytes, Nat.zero_add,
        Nat.add_comm 1, List.drop_succ_cons, List.drop_left, ← hs, List.take_length]
    · simp only [HciDefines.shipped, HciDefines.plain_dataOffset, SizeField.bytes,
        List.length_cons, List.length_append, hs]
      omega
  rw [FrameAt.handling_eq, hbehind]

end stale

section ownBytes
variable {payload : List UInt8}

/-- Wherever the frame lies, one decision is taken about it. -/
def HandledAlike (info : AntChannelInfo) (payload : List UInt8) : Prop :=
  ∃ handling : Handling, ∀ s : FrameAt .shipped payload,
    (s.iteration info).actions = [.frame payload.length payload handling] ∧
      (s.iteration info).info =
        (handling.apply (s.env.flowControlLock s.iCurrentHciPacketOffset) info).2

/-- Wherever the frame lies, only what was read of the array is looked at. -/
def ReadsReceived (payload : List UInt8) : Prop :=
  ∀ s : FrameAt .shipped payload, ∀ i ∈ s.consulted, i < s.iRxLenRead ∧ i < antHciMaxMsgSize

theorem handledAlike_iff (info : AntChannelInfo) (h : payload.length < 256) :
    HandledAlike info payload ↔ DecidesAlone payload := by
  constructor
  · rintro ⟨handling, hall⟩
    by_contra hnot
    obtain ⟨after, after', hlen, hlen', hne⟩ := classifyBytes_differ hnot info
    have hsame : ∀ s : FrameAt .shipped payload, s.handling info = handling := by
      intro s
      have hactions := (hall s).1
      rw [s.iteration_eq] at hactions
      simpa using hactions
    rw [← FrameAt.before_handling hlen h, ← FrameAt.before_handling hlen' h, hsame, hsame]
      at hne
    exact hne rfl
  · intro hown
    refine ⟨classifyBytes .shipped info payload, fun s => ?_⟩
    rw [← classifyBytes_append hown info s.behind, ← s.handling_eq, s.iteration_eq]
    exact ⟨rfl, rfl⟩

theorem FrameAt.mem_consulted (s : FrameAt .shipped payload) {i : Nat} :
    i ∈ s.consulted ↔
      i = s.iCurrentHciPacketOffset ∨ i = s.msg + antMsgIdOffset ∨
        if s.aucRxBuffer.get s.env.beyond (s.msg + antMsgIdOffset) = 0xC9 then
          i = s.msg + antMsgDataOffset
        else ∃ j < keepAliveResp.length, s.msg + j = i := by
  simp only [consulted, shipped_isFlowControlMsg, beq_iff_eq, List.mem_cons, List.mem_append]
  refine or_congr Iff.rfl (or_congr (by simp [HciDefines.shipped, HciDefines.plain]) ?_)
  split
  · rw [List.mem_singleton]
  · simp only [List.mem_map, List.mem_range]

theorem readsReceived_iff (h : payload.length < 256) :
    ReadsReceived payload ↔ ReadsInside payload := by
  constructor
  · intro hall
    have hread : ∀ i ∈ (FrameAt.before [] h).consulted, i < payload.length + 1 :=
      fun i hi => (hall _ i hi).1
    have hmsg : (FrameAt.before [] h).msg = 1 := rfl
    have hid : antMsgIdOffset < payload.length := by
      have := hread _ ((FrameAt.mem_consulted _).mpr (.inr (.inl rfl)))
      omega
    simp only [FrameAt.mem_consulted, FrameAt.id_eq _ hid] at hread
    unfold ReadsInside
    split
    case isTrue hflow =>
        have := hread _ (.inr (.inr (by rw [if_pos hflow])))
        simp only [hmsg, antMsgDataOffset] at this
        omega
    case isFalse hflow =>
        have := hread _ (.inr (.inr (by
          rw [if_neg hflow]
          exact ⟨4, by decide, rfl⟩)))
        have : keepAliveResp.length = 5 := rfl
        omega
  · intro hinside s i hi
    have hid := hinside.decidesAlone.1
    have hcomplete := s.complete
    have harray := s.inArray
    have hmsg : s.msg = s.iCurrentHciPacketOffset + 1 := rfl
    simp only [HciDefines.shipped, HciDefines.plain_headerSize, HciDefines.plain_footerSize,
      SizeField.bytes] at hcomplete
    suffices hlt : i < s.iRxLenRead from ⟨hlt, Nat.lt_of_lt_of_le hlt harray⟩
    rw [s.mem_consulted, s.id_eq hid] at hi
    unfold ReadsInside at hinside
    obtain rfl | rfl | hi := hi
    · omega
    · simp only [antMsgIdOffset]
      omega
    · split at hi <;> rename_i hflow
      · rw [if_pos hflow] at hinside
        simp only [antMsgDataOffset] at hi
        omega
      · rw [if_neg hflow] at hinside
        obtain ⟨j, hj, rfl⟩ := hi
        omega

/-- A frame is classified by its own bytes, and nothing beyond what was read is
looked at for it, exactly when it has every byte that its handling reads. The
decision itself is the frame's own under a weaker condition, because the
comparison with the response can fail before it leaves the frame. -/
theorem readChannelMsg_own_bytes_iff (info : AntChannelInfo) (payload : List UInt8)
    (h : payload.length < 256) :
    (HandledAlike info payload ∧ ReadsReceived payload ↔ ReadsInside payload) ∧
      (HandledAlike info payload ↔ DecidesAlone payload) := by
  rw [handledAlike_iff info h, readsReceived_iff h]
  exact ⟨⟨And.right, fun hinside => ⟨hinside.decidesAlone, hinside⟩⟩, Iff.rfl⟩

/-- The keepalive response is recognised wherever it lies. -/
theorem readChannelMsg_own_bytes_keepAlive :
    HandledAlike ⟨3, true, 0x80, 0⟩ keepAliveResp ∧ ReadsReceived keepAliveResp :=
  (readChannelMsg_own_bytes_iff ⟨3, true, 0x80, 0⟩ keepAliveResp (by decide)).1.mpr (by decide)

/-- A flow control packet without data takes its setting from the next frame. -/
theorem readChannelMsg_reads_behind :
    ¬ ∀ (info : AntChannelInfo) (payload : List UInt8), payload.length < 256 →
      HandledAlike info payload ∧ ReadsReceived payload := by
  intro hall
  have h := (hall ⟨3, true, 0x80, 0⟩ [0x00, 0xC9] (by decide)).1
  rw [handledAlike_iff _ (by decide)] at h
  exact absurd h (by decide)

end ownBytes
end AntHal
