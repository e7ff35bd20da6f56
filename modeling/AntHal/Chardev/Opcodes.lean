import AntHal.Chardev.FrameLoop

/-!
Packets of several kinds in one buffer.

A driver with opcodes tells packets apart by their first byte. `readChannelMsg`
looks at the opcode of the first packet of a buffer and treats all of the buffer
accordingly. A receiver that looks at the opcode of every packet is stated here
beside it, and a run of calls is compared with that receiver after every call.
-/

namespace AntHal

open Framing

theorem filterMap_eq_map_iff {α β : Type} {f : α → Option β} {g : α → β} {xs : List α} :
    xs.filterMap f = xs.map g ↔ ∀ x ∈ xs, f x = some (g x) := by
  induction xs with
  | nil => simp
  | cons x xs ih =>
      rw [List.forall_mem_cons, ← ih, List.map_cons]
      cases hx : f x with
      | none =>
          rw [List.filterMap_cons_none hx]
          have hshort := List.length_filterMap_le f xs
          refine ⟨fun heq => ?_, fun hboth => absurd hboth.1 (by simp)⟩
          rw [heq, List.length_cons, List.length_map] at hshort
          omega
      | some y => rw [List.filterMap_cons_some hx, List.cons.injEq, Option.some.injEq]

theorem filterMap_cons_toList {α β : Type} (f : α → Option β) (x : α) (xs : List α) :
    (x :: xs).filterMap f = (f x).toList ++ xs.filterMap f := by
  cases hx : f x with
  | none => rw [List.filterMap_cons_none hx, Option.toList_none, List.nil_append]
  | some y => rw [List.filterMap_cons_some hx, Option.toList_some, List.singleton_append]

/-- What becomes of a packet. -/
inductive PacketEvent where
  | commandComplete
  | flowOn
  | antEvent (iHciDataSize : Nat) (msg : List UInt8)
  deriving DecidableEq

def RxAction.event : RxAction → PacketEvent
  | .frame n msg _ => .antEvent n msg
  | .commandComplete => .commandComplete
  | .resend _ | .resendCancelled => .flowOn

/-- What an action does to the channel, given the channel before and after the call. -/
def RxAction.Does (d : HciDefines) (before after : AntChannelInfo) (a : RxAction) : Prop :=
  match a with
  | .frame _ _ _ => Dispatches d before.fnRxCallback a
  | .commandComplete => after = { before with ucFlowControlResp := d.flowGo }
  | .resend n => n = before.ucResendMessageLength ∧ 0 < n
  | .resendCancelled => before.ucResendMessageLength = 0

namespace HciDefines

variable (d : HciDefines)

/-- What becomes of a packet by its own opcode. Without ANT_FLOW_RESEND there is
nothing to do on a flow on, and other opcodes are ignored. -/
def eventOf (f : List UInt8) : Option PacketEvent :=
  let antEvent : PacketEvent := .antEvent (d.frameOf f).1 (d.frameOf f).2
  match d.opcode with
  | none => some antEvent
  | some opcodes =>
    let opcode := f.getD 0 0
    if opcodes.commandComplete == opcode then some .commandComplete
    else if opcodes.flowOn == opcode then if d.flowResend then some .flowOn else none
    else if opcodes.antEvent == opcode then some antEvent
    else none

/-- What has been received may be treated as its first packet: all packets go
through the loop, or nothing behind the first one asks for anything. -/
def OneKind (stream : List UInt8) : Prop :=
  d.format.Complete stream →
    if d.loops (stream.getD 0 0) = true then
      ∀ f ∈ d.format.frames stream, d.loops (f.getD 0 0) = true
    else d.format.rest stream = [] ∧ ∀ f ∈ (d.format.frames stream).tail, d.eventOf f = none

variable {d}

theorem eventOf_of_loops {f : List UInt8} (h : d.loops (f.getD 0 0) = true) :
    d.eventOf f = some (.antEvent (d.frameOf f).1 (d.frameOf f).2) := by
  simp only [eventOf]
  cases hopcode : d.opcode with
  | none => rfl
  | some opcodes =>
      simp only [loops, hopcode, Bool.and_eq_true, bne_iff_ne] at h
      obtain ⟨⟨hcc, hflow⟩, hevent⟩ := h
      dsimp only
      rw [if_neg (by simpa using hcc), if_neg (by simpa using hflow), if_pos hevent]

theorem eventOf_ne_of_not_loops {f : List UInt8} (h : d.loops (f.getD 0 0) = false) (n : Nat)
    (msg : List UInt8) : d.eventOf f ≠ some (.antEvent n msg) := by
  simp only [eventOf]
  cases hopcode : d.opcode with
  | none => simp [loops, hopcode] at h
  | some opcodes =>
      dsimp only
      split
      · simp
      · split
        · split <;> simp
        · split
          · simp_all [loops]
          · simp

/-- A packet goes through the loop exactly if it is an ANT event. -/
theorem loops_iff_eventOf {f : List UInt8} :
    d.loops (f.getD 0 0) = true ↔
      d.eventOf f = some (.antEvent (d.frameOf f).1 (d.frameOf f).2) := by
  refine ⟨eventOf_of_loops, fun h => ?_⟩
  by_contra hnot
  exact eventOf_ne_of_not_loops (Bool.eq_false_iff.mpr hnot) _ _ h

variable (d) in
theorem getD_take_zero (xs : List UInt8) :
    (xs.take (d.format.length xs)).getD 0 0 = xs.getD 0 0 := by
  have hpos := d.format.length_pos xs
  rw [List.getD_eq_getElem?_getD, List.getElem?_take_of_lt hpos, List.getD_eq_getElem?_getD]

end HciDefines

section oneCall
variable {d : HciDefines} {env : ReadEnv} {rx : RxState} {info : AntChannelInfo}

/-- Without the loop a buffer is treated as its first packet. -/
theorem handlePackets_first {stream : List UInt8}
    (hbuf : rx.aucRxBuffer.bytes.take stream.length = stream) (hpos : 0 < stream.length)
    (hloops : d.loops (stream.getD 0 0) = false) :
    ((handlePackets d env stream.length rx info).actions.map RxAction.event) =
      (d.eventOf (stream.take (d.format.length stream))).toList := by
  have hget : rx.aucRxBuffer.get env.beyond d.opcodeOffset = stream.getD 0 0 :=
    RxBuffer.get_of_take hbuf hpos 0
  simp only [handlePackets, HciDefines.eventOf, hget, d.getD_take_zero stream]
  cases hopcode : d.opcode with
  | none => simp [HciDefines.loops, hopcode] at hloops
  | some opcodes =>
      dsimp only
      split
      · rfl
      · split
        · split
          · split <;> rfl
          · rfl
        · split
          · simp_all [HciDefines.loops]
          · rfl

theorem holds_empty_iff {b : RxBuffer} {kept : List UInt8} :
    (⟨b, 0⟩ : RxState).Holds d kept ↔ kept = [] := by
  constructor
  · intro h
    exact List.eq_nil_of_length_eq_zero h.length.symm
  · rintro rfl
    exact ⟨rfl, rfl, d.format.not_complete_nil⟩

/-- The actions of the loop are packets. -/
theorem actions_event_of_frames (as : List RxAction)
    (h : ∀ a ∈ as, ∃ n msg handling, a = .frame n msg handling) :
    as.map RxAction.event =
      (as.filterMap RxAction.frame?).map fun p => .antEvent p.1 p.2 := by
  induction as with
  | nil => rfl
  | cons a as ih =>
      obtain ⟨⟨n, msg, handling, rfl⟩, hrest⟩ := List.forall_mem_cons.mp h
      rw [List.map_cons, ih hrest]
      rfl

variable (info) in
/-- The loop treats every packet as an ANT event. -/
theorem frameLoop_events {stream : List UInt8} {b : RxBuffer}
    (hlock : ∀ off, env.flowControlLock off = 0)
    (hbuf : b.bytes.take stream.length = stream) :
    let r := frameLoop d env stream.length stream.length 0 ⟨b, 0⟩ info
    r.actions.map RxAction.event = (d.format.frames stream).map
        (fun f => .antEvent (d.frameOf f).1 (d.frameOf f).2) ∧
      r.rx.Holds d (d.format.rest stream) := by
  intro r
  obtain ⟨hframes, hholds, -⟩ := frameLoop_spec hlock stream stream.length 0
    (Nat.le_add_right _ _) (Nat.zero_le _) ⟨b, 0⟩ rfl hbuf info
  rw [List.drop_zero] at hframes hholds
  have hall : ∀ a ∈ r.actions, ∃ n msg handling, a = .frame n msg handling := by
    intro a ha
    obtain ⟨env', b', info', msg, n, -, rfl⟩ := (frameLoop_dispatches _ _ _ _ info).2 a ha
    exact ⟨_, _, _, rfl⟩
  refine ⟨?_, hholds⟩
  rw [actions_event_of_frames _ hall, hframes, List.map_map]
  rfl

/-- One call treats every packet by its own opcode exactly when what has been
received may be treated as its first packet. -/
theorem readChannelMsg_events_iff {kept bytes : List UInt8} (h : rx.Holds d kept)
    (hread : env.result = .data bytes) (hlock : ∀ off, env.flowControlLock off = 0) :
    ((readChannelMsg d env rx info).actions.map RxAction.event =
        (d.format.frames (rx.stream bytes)).filterMap d.eventOf ∧
      (readChannelMsg d env rx info).rx.Holds d (d.format.rest (rx.stream bytes))) ↔
    d.OneKind (rx.stream bytes) := by
  simp only [HciDefines.OneKind]
  rw [h.readChannelMsg_eq hread]
  have hbuf := h.stored bytes
  generalize rx.aucRxBuffer.store _ _ = b at hbuf ⊢
  by_cases hc : d.format.Complete (rx.stream bytes)
  · rw [if_pos hc, forall_prop_of_true hc]
    dsimp only
    have hpos : 0 < (rx.stream bytes).length :=
      Nat.lt_of_lt_of_le d.format.header_pos hc.header_le
    have hget : b.get env.beyond d.opcodeOffset = (rx.stream bytes).getD 0 0 :=
      RxBuffer.get_of_take hbuf hpos 0
    cases hloops : d.loops ((rx.stream bytes).getD 0 0) with
    | true =>
        obtain ⟨hevents, hholds⟩ := frameLoop_events info hlock hbuf
        rw [handlePackets_loops (by rw [hget, hloops]), hevents, if_pos rfl, eq_comm,
          filterMap_eq_map_iff, and_iff_left hholds]
        exact forall₂_congr fun f _ => HciDefines.loops_iff_eventOf.symm
    | false =>
        obtain ⟨hfirst, htail⟩ := Format.frames_of_complete hc
        have hempty : (handlePackets d env (rx.stream bytes).length ⟨b, 0⟩ info).rx = ⟨b, 0⟩ :=
          handlePackets_other (by rw [hget, hloops])
        rw [handlePackets_first hbuf hpos hloops, hempty, if_neg Bool.false_ne_true,
          holds_empty_iff,
          and_comm, hfirst, List.tail_cons]
        refine and_congr_right fun _ => ?_
        rw [filterMap_cons_toList, List.self_eq_append_right, List.filterMap_eq_nil_iff]
  · obtain ⟨hframes, hrest⟩ := Format.frames_of_incomplete hc
    rw [if_neg hc, hframes, hrest]
    exact iff_of_true ⟨rfl, rfl, hbuf, hc⟩ fun hc' => absurd hc' hc

/-- Every action is what its name says. -/
theorem readChannelMsg_does (hlock : ∀ off, env.flowControlLock off = 0) :
    ∀ a ∈ (readChannelMsg d env rx info).actions,
      a.Does d info (readChannelMsg d env rx info).info := by
  have hloop : ∀ iRxLenRead rx', ∀ a ∈ (frameLoop d env iRxLenRead iRxLenRead 0 rx' info).actions,
      ∀ after, a.Does d info after := by
    intro iRxLenRead rx' a ha after
    obtain ⟨env', b, info', msg, n, hreg, rfl⟩ := (frameLoop_dispatches _ _ _ _ info).2 a ha
    exact ⟨env', b, info', msg, n, hreg, rfl⟩
  simp only [readChannelMsg]
  split
  · split
    · exact fun _ h => absurd h List.not_mem_nil
    · simp only [handlePackets]
      split
      · exact fun a ha => hloop _ _ a ha _
      · split
        · intro a ha
          rw [List.mem_singleton.mp ha, hlock]
          rfl
        · split
          · split
            · split
              · rename_i hpos
                intro a ha
                rw [List.mem_singleton.mp ha]
                exact ⟨rfl, hpos⟩
              · rename_i hzero
                intro a ha
                rw [List.mem_singleton.mp ha]
                exact UInt8.le_antisymm (UInt8.not_lt.mp hzero) (UInt8.zero_le)
            · exact fun _ h => absurd h List.not_mem_nil
          · split
            · exact fun a ha => hloop _ _ a ha _
            · exact fun _ h => absurd h List.not_mem_nil
  all_goals exact fun _ h => absurd h List.not_mem_nil

end oneCall

/-- Bytes that a read delivers, and the channel as the call finds it. -/
structure RxRead extends Arrival where
  info : AntChannelInfo

def RxRead.call (a : RxRead) : RxCall := ⟨a.channel, a.env, a.info⟩

/-- What the calls of a run report, with their channels. -/
def RxCall.reports (d : HciDefines) :
    List RxCall → (AntChannelType → RxState) → List (AntChannelType × ReadReport)
  | [], _ => []
  | call :: calls, rx =>
    let r := readChannelMsg d call.env (rx call.channel) call.info
    (call.channel, r) :: RxCall.reports d calls (Function.update rx call.channel r.rx)

/-- What has become of the packets of one channel, in order. -/
def eventsOn (ch : AntChannelType) (log : List (AntChannelType × ReadReport)) :
    List PacketEvent :=
  ((reportsOn ch log).map fun r => r.actions.map RxAction.event).flatten

/-- The buffers and the reports after a list of reads from start-up on. -/
def rxAfter (d : HciDefines) (reads : List RxRead) : AntChannelType → RxState :=
  RxCall.run d (reads.map RxRead.call) fun _ => .init

def logAfter (d : HciDefines) (reads : List RxRead) : List (AntChannelType × ReadReport) :=
  RxCall.reports d (reads.map RxRead.call) fun _ => .init

/-- After these reads every packet of the stream has been treated by its own
opcode, and the buffer holds the incomplete one behind them. -/
structure InSync (d : HciDefines) (reads : List RxRead) (ch : AntChannelType) : Prop where
  events : eventsOn ch (logAfter d reads) =
    (d.format.frames (receivedOn ch (logAfter d reads))).filterMap d.eventOf
  holds : (rxAfter d reads ch).Holds d (d.format.rest (receivedOn ch (logAfter d reads)))

section run
variable {d : HciDefines} {ch : AntChannelType} {log : List (AntChannelType × ReadReport)}

theorem RxCall.run_snoc (calls : List RxCall) (call : RxCall) (rx : AntChannelType → RxState) :
    RxCall.run d (calls ++ [call]) rx =
      Function.update (RxCall.run d calls rx) call.channel
        (readChannelMsg d call.env (RxCall.run d calls rx call.channel) call.info).rx := by
  induction calls generalizing rx with
  | nil => rfl
  | cons c calls ih => exact ih _

theorem RxCall.reports_snoc (calls : List RxCall) (call : RxCall)
    (rx : AntChannelType → RxState) :
    RxCall.reports d (calls ++ [call]) rx = RxCall.reports d calls rx ++
      [(call.channel,
        readChannelMsg d call.env (RxCall.run d calls rx call.channel) call.info)] := by
  induction calls generalizing rx with
  | nil => rfl
  | cons c calls ih => exact congrArg (_ :: ·) (ih _)

theorem rxAfter_snoc (reads : List RxRead) (a : RxRead) :
    rxAfter d (reads ++ [a]) = Function.update (rxAfter d reads) a.channel
      (readChannelMsg d a.env (rxAfter d reads a.channel) a.info).rx := by
  rw [rxAfter, List.map_append, List.map_singleton, RxCall.run_snoc]
  rfl

theorem logAfter_snoc (reads : List RxRead) (a : RxRead) :
    logAfter d (reads ++ [a]) = logAfter d reads ++
      [(a.channel, readChannelMsg d a.env (rxAfter d reads a.channel) a.info)] := by
  rw [logAfter, List.map_append, List.map_singleton, RxCall.reports_snoc]
  rfl

theorem reportsOn_snoc (r : ReadReport) (ch' : AntChannelType) :
    reportsOn ch (log ++ [(ch', r)]) = reportsOn ch log ++ if ch' = ch then [r] else [] := by
  rw [reportsOn, List.filterMap_append]
  by_cases hch : ch' = ch
  · simp [reportsOn, hch]
  · simp [reportsOn, hch]

theorem eventsOn_snoc (r : ReadReport) (ch' : AntChannelType) :
    eventsOn ch (log ++ [(ch', r)]) =
      eventsOn ch log ++ if ch' = ch then r.actions.map RxAction.event else [] := by
  rw [eventsOn, reportsOn_snoc, List.map_append, List.flatten_append]
  by_cases hch : ch' = ch
  · simp [eventsOn, hch]
  · simp [eventsOn, hch]

theorem receivedOn_snoc (r : ReadReport) (ch' : AntChannelType) :
    receivedOn ch (log ++ [(ch', r)]) =
      receivedOn ch log ++ if ch' = ch then r.received else [] := by
  rw [receivedOn, reportsOn_snoc, List.map_append, List.flatten_append]
  by_cases hch : ch' = ch
  · simp [receivedOn, hch]
  · simp [receivedOn, hch]

theorem readChannelMsg_received {env : ReadEnv} {bytes : List UInt8}
    (hread : env.result = .data bytes) (rx : RxState) (info : AntChannelInfo) :
    (readChannelMsg d env rx info).received =
      bytes.take (antHciMaxMsgSize - rx.iRxBufferLength) := by
  simp only [readChannelMsg, hread]
  split
  · rfl
  · rfl

theorem inSync_nil : InSync d [] ch := by
  obtain ⟨hframes, hrest⟩ := Format.frames_of_incomplete d.format.not_complete_nil
  refine ⟨?_, ?_⟩
  · change [] = (d.format.frames []).filterMap d.eventOf
    rw [hframes]
    rfl
  · change RxState.init.Holds d (d.format.rest [])
    rw [hrest]
    exact RxState.init_holds

/-- A read leaves the other channels as they are. -/
theorem inSync_other {reads : List RxRead} {a : RxRead} (hch : a.channel ≠ ch)
    (h : InSync d reads ch) : InSync d (reads ++ [a]) ch := by
  refine ⟨?_, ?_⟩
  · simpa only [logAfter_snoc, eventsOn_snoc, receivedOn_snoc, if_neg hch, List.append_nil]
      using h.events
  · simpa only [logAfter_snoc, rxAfter_snoc, receivedOn_snoc, if_neg hch, List.append_nil,
      Function.update_of_ne (Ne.symm hch)] using h.holds

/-- On its own channel a read has to treat what has been received by its opcodes. -/
theorem inSync_self {reads : List RxRead} (a : RxRead) (h : InSync d reads a.channel) :
    InSync d (reads ++ [a]) a.channel ↔
      d.OneKind ((rxAfter d reads a.channel).stream a.bytes) := by
  have hread : a.env.result = .data a.bytes := rfl
  have hlock : ∀ off, a.env.flowControlLock off = 0 := fun _ => rfl
  have hevents := h.events
  have hholds := h.holds
  have hlog := logAfter_snoc (d := d) reads a
  have hrx := congrFun (rxAfter_snoc (d := d) reads a) a.channel
  rw [Function.update_self] at hrx
  generalize logAfter d reads = log at *
  generalize rxAfter d reads a.channel = rx at *
  obtain ⟨hframes, hrest⟩ := d.format.frames_append (receivedOn a.channel log)
    (a.bytes.take (antHciMaxMsgSize - rx.iRxBufferLength))
  rw [← hholds.stream_eq a.bytes] at hframes hrest
  rw [← readChannelMsg_events_iff hholds hread hlock]
  constructor
  · intro ⟨hnext, hkept⟩
    simp only [hlog, hrx, eventsOn_snoc, receivedOn_snoc, if_true,
      readChannelMsg_received hread, hframes, hrest, List.filterMap_append, hevents,
      List.append_cancel_left_eq] at hnext hkept
    exact ⟨hnext, hkept⟩
  · intro ⟨hnext, hkept⟩
    refine ⟨?_, ?_⟩
    · simp only [hlog, eventsOn_snoc, receivedOn_snoc, if_true, readChannelMsg_received hread,
        hframes, List.filterMap_append, hevents, hnext]
    · simpa only [hlog, hrx, receivedOn_snoc, if_true, readChannelMsg_received hread, hrest]
        using hkept

/-- One more read keeps the run in sync exactly when what has been received on
its channel may be treated as its first packet. -/
theorem inSync_snoc {reads : List RxRead} (a : RxRead) (h : ∀ ch, InSync d reads ch) :
    (∀ ch, InSync d (reads ++ [a]) ch) ↔
      d.OneKind ((rxAfter d reads a.channel).stream a.bytes) := by
  rw [← inSync_self a (h a.channel)]
  refine ⟨fun hnext => hnext a.channel, fun hself ch => ?_⟩
  by_cases hch : a.channel = ch
  · exact hch ▸ hself
  · exact inSync_other hch (h ch)

/-- A run treats every packet by its own opcode, after every read, exactly when
with every read what has been received may be treated as its first packet. -/
theorem readChannelMsg_own_opcode_iff (d : HciDefines) (reads : List RxRead) :
    ((∀ n ch, InSync d (reads.take n) ch) ↔
      ∀ n a, reads[n]? = some a →
        d.OneKind ((rxAfter d (reads.take n) a.channel).stream a.bytes)) ∧
    ∀ n a, reads[n]? = some a →
      let r := readChannelMsg d a.env (rxAfter d (reads.take n) a.channel) a.info
      ∀ x ∈ r.actions, x.Does d a.info r.info := by
  have htake : ∀ n a, reads[n]? = some a → reads.take (n + 1) = reads.take n ++ [a] := by
    intro n a ha
    rw [List.take_add_one, ha, Option.toList_some]
  refine ⟨⟨fun hsync n a ha => ?_, fun hkind n => ?_⟩,
    fun n a _ => readChannelMsg_does fun _ => rfl⟩
  · refine (inSync_snoc a (hsync n)).mp ?_
    rw [← htake n a ha]
    exact hsync (n + 1)
  · induction n with
    | zero => exact fun ch => inSync_nil
    | succ n ih =>
        cases ha : reads[n]? with
        | none =>
            have hlen : reads.length ≤ n := List.getElem?_eq_none_iff.mp ha
            rw [List.take_of_length_le hlen] at ih
            rwa [List.take_of_length_le (Nat.le_succ_of_le hlen)]
        | some a =>
            rw [htake n a ha]
            exact (inSync_snoc a ih).mpr (hkind n a ha)

/-- An ANT event and a command complete behind it, in one read. -/
def eventThenComplete : RxRead := ⟨⟨.data, [0x20, 1, 7, 0x21, 0], fun _ => 0⟩, ⟨3, true, 0x80, 0⟩⟩

/-- A driver with opcodes and a size byte behind them. -/
def withOpcodes : HciDefines :=
  { HciDefines.shipped with opcode := some ⟨0x21, 0x22, 0x20, 0x23⟩ }

/-- The command complete goes to the callback as if it were an ANT event. -/
theorem readChannelMsg_mixes_opcodes :
    ¬ ∀ (d : HciDefines) (reads : List RxRead) (n : Nat) (ch : AntChannelType),
      InSync d (reads.take n) ch := by
  intro hall
  have h := (hall withOpcodes [eventThenComplete] 1 .data).events
  revert h
  decide

end run
end AntHal
