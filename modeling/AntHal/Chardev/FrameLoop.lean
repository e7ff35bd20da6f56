import AntHal.Chardev.ReceiveRefinement
import Mathlib.Logic.Relation

/-!
The loop of `readChannelMsg`, one iteration after the other.

The size of a packet is read before the iteration changes the buffer, so the
offset moves forward whatever the buffer holds. As long as the loop goes on it
scans what has been received; an incomplete packet is moved to the front by the
last iteration.
-/

namespace AntHal

open Framing Relation

/-- The loop at its guard. -/
structure LoopState where
  iCurrentHciPacketOffset : Nat
  rx : RxState
  info : AntChannelInfo

namespace LoopState

variable (d : HciDefines) (env : ReadEnv) (iRxLenRead : Nat) (s : LoopState)

def iHciDataSize : Nat :=
  (s.rx.aucRxBuffer.get env.beyond (s.iCurrentHciPacketOffset + d.sizeOffset)).toNat

/-- The test for a packet that has not arrived as a whole. -/
def Incomplete : Prop :=
  s.iHciDataSize d env + d.headerSize + d.footerSize + s.iCurrentHciPacketOffset > iRxLenRead

instance : Decidable (s.Incomplete d env iRxLenRead) :=
  inferInstanceAs (Decidable (_ > _))

/-- The length that is moved to the front. -/
def remainder : Nat := iRxLenRead - s.iCurrentHciPacketOffset

/-- What the body does with a whole packet. -/
def handled : Int × AntChannelInfo :=
  (classify d env s.rx.aucRxBuffer s.info (s.iCurrentHciPacketOffset + d.dataOffset)).apply
    (env.flowControlLock s.iCurrentHciPacketOffset) s.info

def action : RxAction :=
  .frame (s.iHciDataSize d env)
    (s.rx.aucRxBuffer.slice env.beyond (s.iCurrentHciPacketOffset + d.dataOffset)
      (s.iHciDataSize d env))
    (classify d env s.rx.aucRxBuffer s.info (s.iCurrentHciPacketOffset + d.dataOffset))

/-- The body of the loop, none where it jumps out of the function. -/
def iterate : Option LoopState :=
  let next := s.iCurrentHciPacketOffset + d.headerSize + d.footerSize + s.iHciDataSize d env
  if s.Incomplete d env iRxLenRead then
    let moved := s.rx.aucRxBuffer.store 0 (s.rx.aucRxBuffer.slice env.beyond
      s.iCurrentHciPacketOffset (s.remainder iRxLenRead))
    some ⟨next, ⟨moved, s.remainder iRxLenRead⟩, s.info⟩
  else if (s.handled d env).1 ≠ 0 then none
  else some ⟨next, s.rx, (s.handled d env).2⟩

/-- The guard is true and the body goes on. -/
def Iteration (s' : LoopState) : Prop :=
  s.iCurrentHciPacketOffset < iRxLenRead ∧ s.iterate d env iRxLenRead = some s'

/-- The guard is true at `s'`, which the loop comes to from `s`. -/
def Visits (s' : LoopState) : Prop :=
  ReflTransGen (Iteration d env iRxLenRead) s s' ∧ s'.iCurrentHciPacketOffset < iRxLenRead

/-- The loop ends here: by its guard, or by the jump out of the function. -/
def Ends (r : ReadReport) : Prop :=
  r.rx = s.rx ∧
    (iRxLenRead ≤ s.iCurrentHciPacketOffset ∧ r.iRet = 0 ∨
      s.iCurrentHciPacketOffset < iRxLenRead ∧ s.iterate d env iRxLenRead = none ∧ r.iRet = -1)

variable {d env iRxLenRead s} {s' : LoopState}

/-- The offset moves forward, also where the buffer is rewritten. -/
theorem iterate_offset (h : s.iterate d env iRxLenRead = some s') :
    s'.iCurrentHciPacketOffset =
      s.iCurrentHciPacketOffset + d.headerSize + d.footerSize + s.iHciDataSize d env := by
  simp only [iterate] at h
  split at h
  · cases h
    rfl
  · split at h
    · cases h
    · cases h
      rfl

theorem iterate_lt (h : s.iterate d env iRxLenRead = some s') :
    s.iCurrentHciPacketOffset < s'.iCurrentHciPacketOffset := by
  have := d.sizeOffset_lt_headerSize
  rw [iterate_offset h]
  omega

/-- No run of the loop is infinite. -/
theorem iteration_wellFounded (d : HciDefines) (env : ReadEnv) (iRxLenRead : Nat) :
    WellFounded fun s' s => Iteration d env iRxLenRead s s' := by
  refine Subrelation.wf (r := InvImage (· < ·) fun s : LoopState =>
    iRxLenRead - s.iCurrentHciPacketOffset) ?_ (InvImage.wf _ Nat.lt_wfRel.wf)
  intro s' s h
  have := iterate_lt h.2
  have := h.1
  simp only [InvImage]
  omega

theorem iterate_incomplete (h : s.Incomplete d env iRxLenRead) :
    s.iterate d env iRxLenRead =
      some ⟨s.iCurrentHciPacketOffset + d.headerSize + d.footerSize + s.iHciDataSize d env,
        ⟨s.rx.aucRxBuffer.store 0 (s.rx.aucRxBuffer.slice env.beyond
          s.iCurrentHciPacketOffset (s.remainder iRxLenRead)), s.remainder iRxLenRead⟩,
        s.info⟩ := by
  simp only [iterate, if_pos h]

theorem iterate_whole (h : ¬ s.Incomplete d env iRxLenRead) :
    s.iterate d env iRxLenRead =
      if (s.handled d env).1 ≠ 0 then none
      else some
        ⟨s.iCurrentHciPacketOffset + d.headerSize + d.footerSize + s.iHciDataSize d env, s.rx,
          (s.handled d env).2⟩ := by
  simp only [iterate, if_neg h]

/-- One round of `frameLoop` is one iteration. -/
theorem frameLoop_iterate (fuel : Nat) (hguard : s.iCurrentHciPacketOffset < iRxLenRead) :
    frameLoop d env iRxLenRead (fuel + 1) s.iCurrentHciPacketOffset s.rx s.info =
      match s.iterate d env iRxLenRead with
      | none => ⟨s.rx, (s.handled d env).2, [], [s.action d env], -1⟩
      | some s' =>
        let r := frameLoop d env iRxLenRead fuel s'.iCurrentHciPacketOffset s'.rx s'.info
        if s.Incomplete d env iRxLenRead then r else r.dispatch (s.action d env) := by
  by_cases hmove : s.Incomplete d env iRxLenRead
  · rw [iterate_incomplete hmove]
    dsimp only
    rw [if_pos hmove]
    simp only [frameLoop, if_pos hguard]
    exact if_pos hmove
  · rw [iterate_whole hmove]
    simp only [frameLoop, if_pos hguard]
    refine (if_neg hmove).trans ?_
    by_cases herr : (s.handled d env).1 ≠ 0
    · rw [if_pos herr]
      exact if_pos herr
    · rw [if_neg herr]
      dsimp only
      rw [if_neg hmove]
      exact if_neg herr

/-- With the fuel that `readChannelMsg` gives it, the loop runs to its end. -/
theorem frameLoop_runs (fuel : Nat) (s : LoopState)
    (hfuel : iRxLenRead ≤ fuel + s.iCurrentHciPacketOffset) :
    ∃ e, ReflTransGen (Iteration d env iRxLenRead) s e ∧
      e.Ends d env iRxLenRead
        (frameLoop d env iRxLenRead fuel s.iCurrentHciPacketOffset s.rx s.info) := by
  induction fuel generalizing s with
  | zero => exact ⟨s, .refl, rfl, .inl ⟨by omega, rfl⟩⟩
  | succ fuel ih =>
      by_cases hguard : s.iCurrentHciPacketOffset < iRxLenRead
      · rw [frameLoop_iterate fuel hguard]
        cases hiter : s.iterate d env iRxLenRead with
        | none => exact ⟨s, .refl, rfl, .inr ⟨hguard, hiter, rfl⟩⟩
        | some s' =>
            have hlt := iterate_lt hiter
            obtain ⟨e, hrun, hend⟩ := ih s' (by omega)
            refine ⟨e, .head ⟨hguard, hiter⟩ hrun, ?_⟩
            dsimp only
            split
            · exact hend
            · exact hend
      · refine ⟨s, .refl, ?_⟩
        rw [frameLoop_end (Nat.not_lt.mp hguard)]
        exact ⟨rfl, .inl ⟨Nat.not_lt.mp hguard, rfl⟩⟩

/-- What the loop dispatches is what it finds where it comes to a whole packet. -/
theorem frameLoop_actions (fuel : Nat) (s : LoopState) :
    ∀ a ∈ (frameLoop d env iRxLenRead fuel s.iCurrentHciPacketOffset s.rx s.info).actions,
      ∃ s', Visits d env iRxLenRead s s' ∧ ¬ s'.Incomplete d env iRxLenRead ∧
        a = s'.action d env := by
  induction fuel generalizing s with
  | zero => exact fun a ha => absurd ha List.not_mem_nil
  | succ fuel ih =>
      intro a ha
      by_cases hguard : s.iCurrentHciPacketOffset < iRxLenRead
      · rw [frameLoop_iterate fuel hguard] at ha
        cases hiter : s.iterate d env iRxLenRead with
        | none =>
            rw [hiter] at ha
            have hwhole : ¬ s.Incomplete d env iRxLenRead := fun hmove => by
              cases (iterate_incomplete hmove).symm.trans hiter
            exact ⟨s, ⟨.refl, hguard⟩, hwhole, List.mem_singleton.mp ha⟩
        | some s' =>
            have hrest : a ∈ (frameLoop d env iRxLenRead fuel s'.iCurrentHciPacketOffset s'.rx
                s'.info).actions → ∃ x, Visits d env iRxLenRead s x ∧
                  ¬ x.Incomplete d env iRxLenRead ∧ a = x.action d env := by
              intro hmem
              obtain ⟨x, hvisits, hx⟩ := ih s' a hmem
              exact ⟨x, ⟨.head ⟨hguard, hiter⟩ hvisits.1, hvisits.2⟩, hx⟩
            rw [hiter] at ha
            dsimp only at ha
            split at ha
            · exact hrest ha
            · rename_i hwhole
              obtain rfl | hmem := List.mem_cons.mp ha
              · exact ⟨s, ⟨.refl, hguard⟩, hwhole, rfl⟩
              · exact hrest hmem
      · rw [frameLoop_end (Nat.not_lt.mp hguard)] at ha
        exact absurd ha List.not_mem_nil

section scan
variable {stream : List UInt8} {rx : RxState} {info : AntChannelInfo}

/-- The buffer is as it was received, and the offset is at the start of a packet
or behind the last one. -/
structure Scans (d : HciDefines) (stream : List UInt8) (rx : RxState) (s : LoopState) : Prop where
  rx : s.rx = rx
  offset : s.iCurrentHciPacketOffset ≤ stream.length
  rest : d.format.rest (stream.drop s.iCurrentHciPacketOffset) = d.format.rest stream

theorem scans_start : Scans d stream rx ⟨0, rx, info⟩ := ⟨rfl, Nat.zero_le _, rfl⟩

theorem Scans.incomplete_iff (h : Scans d stream rx s)
    (hbuf : rx.aucRxBuffer.bytes.take stream.length = stream) :
    s.Incomplete d env stream.length ↔
      ¬ d.format.Complete (stream.drop s.iCurrentHciPacketOffset) := by
  rw [HciDefines.complete_drop_iff env.beyond hbuf h.offset, ← h.rx]
  exact Nat.not_le.symm

theorem Scans.whole_offset (h : Scans d stream rx s)
    (hbuf : rx.aucRxBuffer.bytes.take stream.length = stream)
    (hwhole : ¬ s.Incomplete d env stream.length)
    (hiter : s.iterate d env stream.length = some s') :
    s'.iCurrentHciPacketOffset = s.iCurrentHciPacketOffset +
      d.format.length (stream.drop s.iCurrentHciPacketOffset) := by
  have hc := not_not.mp (mt (h.incomplete_iff hbuf).mpr hwhole)
  have hlong := (HciDefines.complete_drop_iff env.beyond hbuf h.offset).mp hc
  have hbyte : s.iHciDataSize d env =
      ((stream.drop s.iCurrentHciPacketOffset).getD d.sizeOffset 0).toNat := by
    have := d.sizeOffset_lt_headerSize
    rw [iHciDataSize, h.rx, RxBuffer.get_of_take hbuf (by omega) 0, List.getD_eq_getElem?_getD,
      List.getD_eq_getElem?_getD, List.getElem?_drop]
  rw [iterate_offset hiter, hbyte]
  simp only [HciDefines.format]
  omega

/-- A whole packet is left behind. -/
theorem Scans.whole (h : Scans d stream rx s)
    (hbuf : rx.aucRxBuffer.bytes.take stream.length = stream)
    (hwhole : ¬ s.Incomplete d env stream.length)
    (hiter : s.iterate d env stream.length = some s') : Scans d stream rx s' := by
  have hc := not_not.mp (mt (h.incomplete_iff hbuf).mpr hwhole)
  have hlen := h.whole_offset hbuf hwhole hiter
  have hle : d.format.length (stream.drop s.iCurrentHciPacketOffset) ≤
      stream.length - s.iCurrentHciPacketOffset := by
    simpa only [Format.Complete, List.length_drop] using hc
  have hoffset := h.offset
  refine ⟨?_, by omega, ?_⟩
  · rw [iterate_whole hwhole] at hiter
    split at hiter
    · cases hiter
    · cases hiter
      exact h.rx
  · rw [hlen, ← List.drop_drop, ← (Format.frames_of_complete hc).2, h.rest]

/-- An incomplete packet is moved, and is all that is kept. -/
theorem Scans.moved (h : Scans d stream rx s)
    (hbuf : rx.aucRxBuffer.bytes.take stream.length = stream)
    (hmove : s.Incomplete d env stream.length)
    (hguard : s.iCurrentHciPacketOffset < stream.length)
    (hiter : s.iterate d env stream.length = some s') :
    stream.length ≤ s'.iCurrentHciPacketOffset ∧ s'.rx.Holds d (d.format.rest stream) := by
  have hinc := (h.incomplete_iff hbuf).mp hmove
  have hrest : d.format.rest stream = stream.drop s.iCurrentHciPacketOffset :=
    h.rest.symm.trans (Format.frames_of_incomplete hinc).2
  have hnext := iterate_offset hiter
  have hlong : stream.length < s.iHciDataSize d env + d.headerSize + d.footerSize +
      s.iCurrentHciPacketOffset := hmove
  refine ⟨by omega, ?_⟩
  rw [iterate_incomplete hmove] at hiter
  cases hiter
  have hdrop : (stream.drop s.iCurrentHciPacketOffset).length =
      stream.length - s.iCurrentHciPacketOffset := List.length_drop
  have hroom := RxBuffer.length_le_of_take hbuf
  have hslice : s.rx.aucRxBuffer.slice env.beyond s.iCurrentHciPacketOffset
      (s.remainder stream.length) = stream.drop s.iCurrentHciPacketOffset := by
    rw [h.rx, remainder, RxBuffer.slice_of_take hbuf (by omega), ← hdrop, List.take_length]
  rw [hrest]
  refine ⟨hdrop.symm, ?_, hinc⟩
  rw [hslice]
  have hstore := RxBuffer.store_take (b := s.rx.aucRxBuffer) []
    (stream.drop s.iCurrentHciPacketOffset) rfl (by simp only [List.length_nil]; omega)
  simpa only [List.nil_append, List.length_nil] using hstore

/-- What holds wherever the loop comes to. -/
theorem scans_or_moved (hbuf : rx.aucRxBuffer.bytes.take stream.length = stream)
    (h : ReflTransGen (Iteration d env stream.length) ⟨0, rx, info⟩ s) :
    Scans d stream rx s ∨
      stream.length ≤ s.iCurrentHciPacketOffset ∧ s.rx.Holds d (d.format.rest stream) := by
  induction h with
  | refl => exact .inl scans_start
  | tail _ hstep ih =>
      obtain ⟨hguard, hiter⟩ := hstep
      obtain hscans | ⟨hend, -⟩ := ih
      · rename_i x y _
        by_cases hmove : x.Incomplete d env stream.length
        · exact .inr (hscans.moved hbuf hmove hguard hiter)
        · exact .inl (hscans.whole hbuf hmove hiter)
      · exact absurd hguard (Nat.not_lt.mpr hend)

theorem Visits.scans (hbuf : rx.aucRxBuffer.bytes.take stream.length = stream)
    (h : Visits d env stream.length ⟨0, rx, info⟩ s) : Scans d stream rx s :=
  (scans_or_moved hbuf h.1).resolve_right fun hmoved => Nat.not_lt.mpr hmoved.1 h.2

/-- However the loop ends, what is kept is an incomplete packet. -/
theorem frameLoop_holds (hzero : rx.iRxBufferLength = 0)
    (hbuf : rx.aucRxBuffer.bytes.take stream.length = stream) (info : AntChannelInfo) :
    ∃ kept, (frameLoop d env stream.length stream.length 0 rx info).rx.Holds d kept := by
  have hruns : ∃ e, ReflTransGen (Iteration d env stream.length) ⟨0, rx, info⟩ e ∧
      e.Ends d env stream.length (frameLoop d env stream.length stream.length 0 rx info) :=
    frameLoop_runs stream.length ⟨0, rx, info⟩ (Nat.le_refl _)
  obtain ⟨e, hrun, hrx, -⟩ := hruns
  have hnone : rx.Holds d [] := ⟨hzero, rfl, d.format.not_complete_nil⟩
  rw [hrx]
  obtain hscans | ⟨-, hholds⟩ := scans_or_moved hbuf hrun
  · exact ⟨[], hscans.rx ▸ hnone⟩
  · exact ⟨_, hholds⟩

/-- With the lock the loop comes to the first packet that is not complete. -/
theorem scans_run (hlock : ∀ off, env.flowControlLock off = 0)
    (hbuf : rx.aucRxBuffer.bytes.take stream.length = stream) (xs : List UInt8)
    (s : LoopState) (hs : stream.drop s.iCurrentHciPacketOffset = xs)
    (hscans : Scans d stream rx s) :
    ∃ s', ReflTransGen (Iteration d env stream.length) s s' ∧ Scans d stream rx s' ∧
      ¬ d.format.Complete (stream.drop s'.iCurrentHciPacketOffset) := by
  induction xs using d.format.induct generalizing s with
  | incomplete xs hinc => exact ⟨s, .refl, hscans, hs ▸ hinc⟩
  | complete xs hc ih =>
      subst hs
      have hwhole : ¬ s.Incomplete d env stream.length := by
        rw [hscans.incomplete_iff hbuf]
        exact not_not.mpr hc
      have hok : (s.handled d env).1 = 0 := by
        rw [handled, hlock]
        exact (Handling.apply_unlocked _ _).1
      have hiter := iterate_whole hwhole
      rw [if_neg (not_not.mpr hok)] at hiter
      have hguard : s.iCurrentHciPacketOffset < stream.length := by
        have hpos := d.format.length_pos (stream.drop s.iCurrentHciPacketOffset)
        simp only [Format.Complete, List.length_drop] at hc
        omega
      have hnext := hscans.whole_offset hbuf hwhole hiter
      obtain ⟨s', hrun, hscans', hinc⟩ := ih _ (by rw [hnext, ← List.drop_drop])
        (hscans.whole hbuf hwhole hiter)
      exact ⟨s', .head ⟨hguard, hiter⟩ hrun, hscans', hinc⟩

theorem visits_rest (hlock : ∀ off, env.flowControlLock off = 0)
    (hbuf : rx.aucRxBuffer.bytes.take stream.length = stream) (info : AntChannelInfo)
    (hrest : d.format.rest stream ≠ []) :
    ∃ s, Visits d env stream.length ⟨0, rx, info⟩ s ∧ s.Incomplete d env stream.length ∧
      s.iCurrentHciPacketOffset + (d.format.rest stream).length = stream.length := by
  obtain ⟨s, hrun, hscans, hinc⟩ := scans_run hlock hbuf _ ⟨0, rx, info⟩ rfl scans_start
  have htail : d.format.rest stream = stream.drop s.iCurrentHciPacketOffset :=
    hscans.rest.symm.trans (Format.frames_of_incomplete hinc).2
  have hguard : s.iCurrentHciPacketOffset < stream.length := by
    rw [htail, ne_eq, List.drop_eq_nil_iff] at hrest
    omega
  refine ⟨s, ⟨hrun, hguard⟩, (hscans.incomplete_iff hbuf).mpr hinc, ?_⟩
  rw [htail, List.length_drop]
  exact Nat.add_sub_cancel' (Nat.le_of_lt hguard)

end scan

end LoopState

/-- The packets of a buffer that starts with this opcode go through the loop. -/
def HciDefines.loops (d : HciDefines) (opcode : UInt8) : Bool :=
  match d.opcode with
  | none => true
  | some opcodes => opcodes.commandComplete != opcode && opcodes.flowOn != opcode &&
      opcodes.antEvent == opcode

section call
variable (d : HciDefines) (env : ReadEnv) (rx : RxState) (info : AntChannelInfo)

/-- Where the call comes to the loop: iRxLenRead, and the state before the first
iteration. -/
def loopStart : Option (Nat × LoopState) :=
  match env.result with
  | .data bytes =>
    let chunk := bytes.take (antHciMaxMsgSize - rx.iRxBufferLength)
    let buffer := rx.aucRxBuffer.store rx.iRxBufferLength chunk
    let iRxLenRead := chunk.length + rx.iRxBufferLength
    if iRxLenRead <
        (buffer.get env.beyond d.sizeOffset).toNat + d.headerSize + d.footerSize then none
    else if d.loops (buffer.get env.beyond d.opcodeOffset) then
      some (iRxLenRead, ⟨0, ⟨buffer, 0⟩, info⟩)
    else none
  | .enodev | .enxio | .otherError _ => none

variable {d env rx info}

theorem handlePackets_loops {iRxLenRead : Nat}
    (h : d.loops (rx.aucRxBuffer.get env.beyond d.opcodeOffset) = true) :
    handlePackets d env iRxLenRead rx info = frameLoop d env iRxLenRead iRxLenRead 0 rx info := by
  simp only [handlePackets]
  cases hopcode : d.opcode with
  | none => rfl
  | some opcodes =>
      simp only [HciDefines.loops, hopcode, Bool.and_eq_true, bne_iff_ne] at h
      obtain ⟨⟨hcc, hflow⟩, hevent⟩ := h
      dsimp only
      rw [if_neg (by simpa using hcc), if_neg (by simpa using hflow), if_pos hevent]

theorem handlePackets_other {iRxLenRead : Nat}
    (h : d.loops (rx.aucRxBuffer.get env.beyond d.opcodeOffset) = false) :
    (handlePackets d env iRxLenRead rx info).rx = rx := by
  simp only [handlePackets]
  cases hopcode : d.opcode with
  | none => simp [HciDefines.loops, hopcode] at h
  | some opcodes =>
      dsimp only
      split
      · rfl
      · split
        · split
          · split <;> rfl
          · rfl
        · split
          · simp_all [HciDefines.loops]
          · rfl

/-- Outside of the loop no frame is dispatched. -/
theorem handlePackets_frameless {iRxLenRead : Nat}
    (h : d.loops (rx.aucRxBuffer.get env.beyond d.opcodeOffset) = false) :
    ∀ a ∈ (handlePackets d env iRxLenRead rx info).actions, a.frame? = none := by
  simp only [handlePackets]
  cases hopcode : d.opcode with
  | none => simp [HciDefines.loops, hopcode] at h
  | some opcodes =>
      dsimp only
      split
      · simp [RxAction.frame?]
      · split
        · split
          · split <;> simp [RxAction.frame?]
          · simp
        · split
          · simp_all [HciDefines.loops]
          · simp

/-- The rest of the call is the loop. -/
theorem readChannelMsg_loopStart {iRxLenRead : Nat} {s : LoopState}
    (h : loopStart d env rx info = some (iRxLenRead, s)) :
    ∃ received, readChannelMsg d env rx info =
      { frameLoop d env iRxLenRead iRxLenRead s.iCurrentHciPacketOffset s.rx s.info with
        received := received } := by
  simp only [loopStart] at h
  split at h
  · rename_i bytes hread
    split at h
    · cases h
    · rename_i hwhole
      split at h
      · rename_i hloops
        cases h
        refine ⟨bytes.take (antHciMaxMsgSize - rx.iRxBufferLength), ?_⟩
        simp only [readChannelMsg, hread, if_neg hwhole]
        rw [handlePackets_loops]
        exact hloops
      · cases h
  all_goals cases h

/-- What has been received when a read delivers `bytes`. -/
def RxState.stream (rx : RxState) (bytes : List UInt8) : List UInt8 :=
  rx.aucRxBuffer.bytes.take rx.iRxBufferLength ++
    bytes.take (antHciMaxMsgSize - rx.iRxBufferLength)

section holds
variable {kept bytes : List UInt8}

theorem RxState.Holds.stream_eq (h : rx.Holds d kept) (bytes : List UInt8) :
    rx.stream bytes = kept ++ bytes.take (antHciMaxMsgSize - rx.iRxBufferLength) := by
  rw [RxState.stream, h.length, h.buffer]

theorem RxState.Holds.stream_length (h : rx.Holds d kept) (bytes : List UInt8) :
    (bytes.take (antHciMaxMsgSize - rx.iRxBufferLength)).length + rx.iRxBufferLength =
      (rx.stream bytes).length := by
  rw [h.stream_eq, List.length_append, h.length, Nat.add_comm]

/-- The read has put the stream into the buffer. -/
theorem RxState.Holds.stored (h : rx.Holds d kept) (bytes : List UInt8) :
    (rx.aucRxBuffer.store rx.iRxBufferLength
      (bytes.take (antHciMaxMsgSize - rx.iRxBufferLength))).bytes.take
        (rx.stream bytes).length = rx.stream bytes := by
  have hroom := RxBuffer.length_le_of_take h.buffer
  rw [h.stream_eq, h.length]
  refine RxBuffer.store_take _ _ h.buffer ?_
  rw [List.length_take]
  omega

theorem RxState.Holds.complete_iff (h : rx.Holds d kept) (bytes : List UInt8) (env : ReadEnv) :
    d.format.Complete (rx.stream bytes) ↔
      ¬ (bytes.take (antHciMaxMsgSize - rx.iRxBufferLength)).length + rx.iRxBufferLength <
        ((rx.aucRxBuffer.store rx.iRxBufferLength
          (bytes.take (antHciMaxMsgSize - rx.iRxBufferLength))).get env.beyond
            d.sizeOffset).toNat + d.headerSize + d.footerSize := by
  have htest := HciDefines.complete_drop_iff (d := d) env.beyond (h.stored bytes) (Nat.zero_le _)
  rw [List.drop_zero, Nat.zero_add, Nat.add_zero] at htest
  rw [htest, h.stream_length, Nat.not_lt]

/-- A call that reads bytes, in terms of what has been received. -/
theorem RxState.Holds.readChannelMsg_eq (h : rx.Holds d kept) (hread : env.result = .data bytes)
    (info : AntChannelInfo) :
    let chunk := bytes.take (antHciMaxMsgSize - rx.iRxBufferLength)
    let buffer := rx.aucRxBuffer.store rx.iRxBufferLength chunk
    readChannelMsg d env rx info =
      if d.format.Complete (rx.stream bytes) then
        { handlePackets d env (rx.stream bytes).length ⟨buffer, 0⟩ info with received := chunk }
      else ⟨⟨buffer, (rx.stream bytes).length⟩, info, chunk, [], 0⟩ := by
  intro chunk buffer
  simp only [readChannelMsg, hread]
  rw [← h.stream_length bytes]
  by_cases hc : d.format.Complete (rx.stream bytes)
  · rw [if_pos hc, if_neg ((h.complete_iff bytes env).mp hc)]
  · rw [if_neg hc, if_pos (not_not.mp (mt (h.complete_iff bytes env).mpr hc))]

/-- The loop is entered where a packet with its opcode has arrived as a whole. -/
theorem RxState.Holds.loopStart_eq (h : rx.Holds d kept) (hread : env.result = .data bytes) :
    loopStart d env rx info =
      if d.format.Complete (rx.stream bytes) ∧ d.loops ((rx.stream bytes).getD 0 0) = true then
        some ((rx.stream bytes).length, ⟨0, ⟨rx.aucRxBuffer.store rx.iRxBufferLength
          (bytes.take (antHciMaxMsgSize - rx.iRxBufferLength)), 0⟩, info⟩)
      else none := by
  simp only [loopStart, hread]
  by_cases hc : d.format.Complete (rx.stream bytes)
  · have hpos : 0 < (rx.stream bytes).length :=
      Nat.lt_of_lt_of_le d.format.header_pos hc.header_le
    have hopcode : (rx.aucRxBuffer.store rx.iRxBufferLength
        (bytes.take (antHciMaxMsgSize - rx.iRxBufferLength))).get env.beyond 0 =
          (rx.stream bytes).getD 0 0 := RxBuffer.get_of_take (h.stored bytes) hpos 0
    rw [if_neg ((h.complete_iff bytes env).mp hc), HciDefines.opcodeOffset, hopcode,
      h.stream_length]
    simp only [hc, true_and]
  · rw [if_pos (not_not.mp (mt (h.complete_iff bytes env).mpr hc)),
      if_neg (fun hboth => hc hboth.1)]

theorem handlePackets_holds {stream : List UInt8} (hzero : rx.iRxBufferLength = 0)
    (hbuf : rx.aucRxBuffer.bytes.take stream.length = stream) (env : ReadEnv)
    (info : AntChannelInfo) :
    ∃ kept, (handlePackets d env stream.length rx info).rx.Holds d kept := by
  cases hloops : d.loops (rx.aucRxBuffer.get env.beyond d.opcodeOffset) with
  | true =>
      rw [handlePackets_loops hloops]
      exact LoopState.frameLoop_holds hzero hbuf info
  | false =>
      rw [handlePackets_other hloops]
      exact ⟨[], hzero, rfl, d.format.not_complete_nil⟩

/-- Whatever ends a call, the buffer is left with an incomplete packet. -/
theorem readChannelMsg_holds (h : rx.Holds d kept) (env : ReadEnv) (info : AntChannelInfo) :
    ∃ kept', (readChannelMsg d env rx info).rx.Holds d kept' := by
  cases hread : env.result with
  | data bytes =>
      rw [h.readChannelMsg_eq hread]
      split
      · exact handlePackets_holds rfl (h.stored bytes) env info
      · rename_i hinc
        exact ⟨rx.stream bytes, rfl, h.stored bytes, hinc⟩
  | enodev | enxio | otherError errno =>
      simp only [readChannelMsg, hread]
      exact ⟨kept, h⟩

end holds
end call

/-- A call of `readChannelMsg`. Between two calls the information of a channel
may have changed in any way, as by a reset. -/
structure RxCall where
  channel : AntChannelType
  env : ReadEnv
  info : AntChannelInfo

/-- The buffers after a list of calls. -/
def RxCall.run (d : HciDefines) :
    List RxCall → (AntChannelType → RxState) → AntChannelType → RxState
  | [], rx => rx
  | call :: calls, rx =>
    RxCall.run d calls (Function.update rx call.channel
      (readChannelMsg d call.env (rx call.channel) call.info).rx)

theorem RxCall.run_holds (d : HciDefines) (calls : List RxCall)
    (rx : AntChannelType → RxState) (h : ∀ ch, ∃ kept, (rx ch).Holds d kept)
    (ch : AntChannelType) : ∃ kept, (RxCall.run d calls rx ch).Holds d kept := by
  induction calls generalizing rx with
  | nil => exact h ch
  | cons call calls ih =>
      refine ih _ fun ch' => ?_
      by_cases hch : ch' = call.channel
      · subst hch
        obtain ⟨kept, hkept⟩ := h call.channel
        rw [Function.update_self]
        exact readChannelMsg_holds hkept call.env call.info
      · rw [Function.update_of_ne hch]
        exact h ch'

end AntHal
