import AntHal.Chardev.Classification

/-!
Frames that carry several ANT packets.

The driver headers allow any number of ANT packets in the data of one frame.
The loop of `readChannelMsg` looks at the first of them, and treats the whole
frame as if it were that packet.
-/

namespace AntHal

namespace AntMessage

variable (m : AntMessage)

def isFlowControl : Bool := m.id == 0xC9

/-- The first data byte, where there is one. -/
def flowSetting? : Option UInt8 := m.bytes[antMsgDataOffset]?

/-- The application has to see the packet. -/
def expected : Bool := !m.isFlowControl && m.bytes != keepAliveResp

variable {m}

theorem keepAliveResp_not_flowControl (h : m.bytes = keepAliveResp) :
    m.isFlowControl = false := by
  simp [isFlowControl, id, h, keepAliveResp, antMsgIdOffset]

theorem eq_keepAliveResp_of (hflow : m.isFlowControl = false) (h : m.expected = false) :
    m.bytes = keepAliveResp := by
  simpa [expected, hflow] using h

end AntMessage

/-- The data of a frame that carries these packets. -/
def payloadOf (ms : List AntMessage) : List UInt8 := ms.flatMap AntMessage.bytes

theorem payloadOf_eq_nil {ms : List AntMessage} : payloadOf ms = [] ↔ ms = [] := by
  cases ms with
  | nil => simp [payloadOf]
  | cons m ms =>
      have hpos : m.bytes ≠ [] := fun h => by simpa [h] using m.length_ge
      simp [payloadOf, hpos]

namespace ReadReport

/-- The flow settings that a call has stored, for a call with one frame. -/
def flowSettings (r : ReadReport) : List UInt8 :=
  if r.iRet ≠ 0 then []
  else r.actions.filterMap fun
    | .frame _ _ (.flowControl ucFlowSetting) => some ucFlowSetting
    | _ => none

/-- The bytes that the callback has got. -/
def delivered (r : ReadReport) : List UInt8 :=
  r.actions.flatMap fun
    | .frame _ msg .rxCallback => msg
    | _ => []

end ReadReport

/-- Every flow setting of the frame is stored, and what reaches the callback are
packets of the frame, with all that the application has to see. -/
structure NothingLost (ms : List AntMessage) (r : ReadReport) : Prop where
  flow : r.flowSettings.map some = (ms.filter AntMessage.isFlowControl).map AntMessage.flowSetting?
  others : ∃ seen : List AntMessage, seen.Sublist ms ∧
    (ms.filter AntMessage.expected).Sublist seen ∧ r.delivered = payloadOf seen

/-- Where the callback gets nothing, there must be nothing to see. -/
theorem others_of_nil {ms : List AntMessage} :
    (∃ seen : List AntMessage, seen.Sublist ms ∧
      (ms.filter AntMessage.expected).Sublist seen ∧ [] = payloadOf seen) ↔
        ∀ m ∈ ms, m.expected = false := by
  constructor
  · rintro ⟨seen, -, hall, hnil⟩ m hm
    rw [payloadOf_eq_nil.mp hnil.symm, List.sublist_nil, List.filter_eq_nil_iff] at hall
    simpa using hall m hm
  · intro h
    refine ⟨[], List.nil_sublist _, ?_, rfl⟩
    rw [List.sublist_nil, List.filter_eq_nil_iff]
    exact fun m hm => by simp [h m hm]

/-- Whether the treatment of the first packet is right for the whole frame. -/
def FirstDecides (iMutexResult : Nat) (fnRxCallback : Bool) (m : AntMessage)
    (rest : List AntMessage) : Prop :=
  if m.isFlowControl then
    iMutexResult = 0 ∧ m.flowSetting?.isSome ∧ ∀ x ∈ rest, x.bytes = keepAliveResp
  else if m.bytes = keepAliveResp then ∀ x ∈ rest, x.bytes = keepAliveResp
  else fnRxCallback = true ∧ ∀ x ∈ rest, x.isFlowControl = false

section frame
variable {m : AntMessage} {rest : List AntMessage}

theorem classifyBytes_message (info : AntChannelInfo) (more : List UInt8) :
    classifyBytes .shipped info (m.bytes ++ more) =
      if m.isFlowControl then .flowControl ((m.bytes ++ more).getD antMsgDataOffset 0)
      else if m.bytes = keepAliveResp then .keepAliveResponse
      else if info.fnRxCallback then .rxCallback else .rxCallbackNull := by
  have hid : (m.bytes ++ more).getD antMsgIdOffset 0 = m.id :=
    List.getD_append _ _ _ _ m.length_ge
  cases hflow : m.isFlowControl with
  | true =>
      rw [if_pos rfl]
      exact classifyBytes_flow (by rw [hid]; simpa [AntMessage.isFlowControl] using hflow) info
  | false =>
      rw [classifyBytes_other (by rw [hid]; simpa [AntMessage.isFlowControl] using hflow) info]
      simp only [AntMessage.take_append_eq_keepAliveResp, Bool.false_eq_true, if_false]

variable (s : FrameAt .shipped (payloadOf (m :: rest))) (info : AntChannelInfo)

theorem FrameAt.handling_first :
    ∃ ucFlowSetting, (∀ v, m.flowSetting? = some v → ucFlowSetting = v) ∧
      s.handling info =
        if m.isFlowControl then .flowControl ucFlowSetting
        else if m.bytes = keepAliveResp then .keepAliveResponse
        else if info.fnRxCallback then .rxCallback else .rxCallbackNull := by
  have h := s.handling_eq info
  simp only [payloadOf, List.flatMap_cons, List.append_assoc] at h
  rw [classifyBytes_message] at h
  refine ⟨_, fun v hv => ?_, h⟩
  obtain ⟨hlt, hget⟩ := List.getElem?_eq_some_iff.mp hv
  rw [List.getD_append _ _ _ _ hlt, List.getD_eq_getElem _ _ hlt, hget]

theorem FrameAt.flowSettings_iteration :
    (s.iteration info).flowSettings =
      match s.handling info with
      | .flowControl ucFlowSetting =>
        if s.env.flowControlLock s.iCurrentHciPacketOffset = 0 then [ucFlowSetting] else []
      | _ => [] := by
  rw [s.iteration_eq]
  cases hh : s.handling info with
  | flowControl v =>
      simp only [ReadReport.flowSettings, Handling.apply, setFlowControl]
      split <;> simp_all
  | keepAliveResponse | rxCallback | rxCallbackNull =>
      simp [ReadReport.flowSettings, Handling.apply]

theorem FrameAt.delivered_iteration :
    (s.iteration info).delivered =
      if s.handling info = .rxCallback then payloadOf (m :: rest) else [] := by
  rw [s.iteration_eq]
  cases hh : s.handling info <;> simp [ReadReport.delivered]

/-- A frame without flow control packets needs no setting to be stored. -/
theorem no_flow_iff {ms : List AntMessage} :
    ([] : List UInt8).map some =
      (ms.filter AntMessage.isFlowControl).map AntMessage.flowSetting? ↔
        ∀ x ∈ ms, x.isFlowControl = false := by
  rw [List.map_nil, eq_comm, List.map_eq_nil_iff, List.filter_eq_nil_iff]
  simp only [Bool.not_eq_true]

/-- Of a frame of which the callback sees nothing only keepalive responses may
be lost, its flow control packets apart. -/
theorem all_keepAliveResp_iff {ms : List AntMessage} :
    (∀ x ∈ ms, x.isFlowControl = false) ∧ (∀ x ∈ ms, x.expected = false) ↔
      ∀ x ∈ ms, x.bytes = keepAliveResp := by
  constructor
  · intro ⟨hflow, hexp⟩ x hx
    exact AntMessage.eq_keepAliveResp_of (hflow x hx) (hexp x hx)
  · intro h
    refine ⟨fun x hx => AntMessage.keepAliveResp_not_flowControl (h x hx), fun x hx => ?_⟩
    simp [AntMessage.expected, h x hx]

theorem nothingLost_of_flow {v : UInt8} (hflow : m.isFlowControl = true)
    (hv : ∀ v', m.flowSetting? = some v' → v = v') {r : ReadReport} {iMutexResult : Nat}
    (hset : r.flowSettings = if iMutexResult = 0 then [v] else []) (hdel : r.delivered = []) :
    NothingLost (m :: rest) r ↔ iMutexResult = 0 ∧ m.flowSetting?.isSome ∧
      ∀ x ∈ rest, x.bytes = keepAliveResp := by
  have hexp : m.expected = false := by simp [AntMessage.expected, hflow]
  rw [← all_keepAliveResp_iff, ← no_flow_iff]
  constructor
  · intro ⟨hf, ho⟩
    rw [hdel, others_of_nil] at ho
    rw [hset, List.filter_cons_of_pos hflow, List.map_cons] at hf
    split at hf
    case isTrue hlock =>
        obtain ⟨hsome, hnil⟩ := List.cons.inj hf
        exact ⟨hlock, hsome ▸ rfl, hnil, fun x hx => ho x (List.mem_cons_of_mem m hx)⟩
    case isFalse => exact absurd hf.symm (List.cons_ne_nil _ _)
  · intro ⟨hlock, hsome, hnil, hrest⟩
    obtain ⟨v', hv'⟩ := Option.isSome_iff_exists.mp hsome
    refine ⟨?_, ?_⟩
    · rw [hset, if_pos hlock, List.filter_cons_of_pos hflow, List.map_cons, List.map_cons, hv',
        hv v' hv', hnil]
    · rw [hdel, others_of_nil]
      exact List.forall_mem_cons.mpr ⟨hexp, hrest⟩

theorem nothingLost_of_silent {ms : List AntMessage} {r : ReadReport}
    (hset : r.flowSettings = []) (hdel : r.delivered = []) :
    NothingLost ms r ↔ ∀ x ∈ ms, x.bytes = keepAliveResp := by
  rw [← all_keepAliveResp_iff, ← no_flow_iff, ← others_of_nil]
  constructor
  · intro ⟨hf, ho⟩
    rw [hset] at hf
    rw [hdel] at ho
    exact ⟨hf, ho⟩
  · intro ⟨hf, ho⟩
    exact ⟨hset ▸ hf, hdel ▸ ho⟩

theorem nothingLost_of_callback {ms : List AntMessage} {r : ReadReport}
    (hset : r.flowSettings = []) (hdel : r.delivered = payloadOf ms) :
    NothingLost ms r ↔ ∀ x ∈ ms, x.isFlowControl = false := by
  rw [← no_flow_iff, ← hset]
  exact ⟨NothingLost.flow, fun h =>
    ⟨h, ms, List.Sublist.refl ms, List.filter_sublist, hdel⟩⟩

/-- No packet of a frame is lost exactly when the treatment of its first packet
is right for all of them. -/
theorem readChannelMsg_nothing_lost_iff (info : AntChannelInfo) (m : AntMessage)
    (rest : List AntMessage) (s : FrameAt .shipped (payloadOf (m :: rest))) :
    NothingLost (m :: rest) (s.iteration info) ↔
      FirstDecides (s.env.flowControlLock s.iCurrentHciPacketOffset) info.fnRxCallback m rest := by
  obtain ⟨v, hv, hhandling⟩ := s.handling_first info
  have hset := s.flowSettings_iteration info
  have hdel := s.delivered_iteration info
  rw [hhandling] at hset hdel
  unfold FirstDecides
  by_cases hflow : m.isFlowControl = true
  · simp only [hflow, if_true] at hset hdel ⊢
    exact nothingLost_of_flow hflow hv hset hdel
  · simp only [hflow] at hset hdel ⊢
    by_cases hresp : m.bytes = keepAliveResp
    · simp only [hresp, if_true] at hset hdel ⊢
      rw [nothingLost_of_silent hset hdel, List.forall_mem_cons]
      exact and_iff_right hresp
    · simp only [hresp, if_false] at hset hdel ⊢
      cases hreg : info.fnRxCallback with
      | true =>
          simp only [hreg, if_true] at hset hdel
          rw [nothingLost_of_callback hset hdel, List.forall_mem_cons]
          simp [hflow]
      | false =>
          simp only [hreg, Bool.false_eq_true, if_false] at hset hdel
          rw [nothingLost_of_silent hset hdel, List.forall_mem_cons]
          simp [hresp]

end frame

/-- A burst packet and the GO behind it, in one frame: the GO is not stored. -/
def dataThenGo : AntMessage × AntMessage :=
  (⟨[2, 0x50, 7, 8], _, _, _, rfl, rfl⟩, ⟨[1, 0xC9, 0x00], _, _, _, rfl, rfl⟩)

theorem readChannelMsg_loses_go :
    ¬ ∀ (info : AntChannelInfo) (m : AntMessage) (rest : List AntMessage)
      (s : FrameAt .shipped (payloadOf (m :: rest))),
      NothingLost (m :: rest) (s.iteration info) := by
  intro hall
  have h := (hall ⟨3, true, 0x80, 0⟩ dataThenGo.1 [dataThenGo.2]
    (FrameAt.before [] (by decide))).flow
  rw [FrameAt.flowSettings_iteration] at h
  exact absurd h (by decide)

end AntHal
