import AntHal.Chardev.FrameLoop

/-!
The move of an incomplete packet to the front of the buffer.

The move is a `memcpy`, whose ranges must not overlap. The bytes that are moved
end where the received bytes end, so the ranges are apart only if the whole
packets in front of them are at least as long.
-/

namespace AntHal

open Framing

/-- The contract of `memcpy` for two ranges of one array. -/
def MemcpyAllowed (dest src n : Nat) : Prop := ∀ i < n, ∀ j < n, dest + i ≠ src + j

theorem memcpyAllowed_front_iff {src n : Nat} : MemcpyAllowed 0 src n ↔ n ≤ src := by
  constructor
  · intro h
    by_contra hlt
    exact h src (by omega) 0 (by omega) (by omega)
  · intro hle i hi j _
    omega

/-- Every move of a call that reads `bytes` keeps to the contract, with any
channel settings and whichever locks are obtained. -/
def MovesAllowed (d : HciDefines) (rx : RxState) (bytes : List UInt8) : Prop :=
  ∀ (env : ReadEnv) (info : AntChannelInfo) (iRxLenRead : Nat) (start s : LoopState),
    env.result = .data bytes → loopStart d env rx info = some (iRxLenRead, start) →
    LoopState.Visits d env iRxLenRead start s → s.Incomplete d env iRxLenRead →
    MemcpyAllowed 0 s.iCurrentHciPacketOffset (s.remainder iRxLenRead)

section proof
variable {d : HciDefines} {env : ReadEnv} {rx : RxState} {info : AntChannelInfo}
  {kept bytes : List UInt8} {iRxLenRead : Nat} {start s : LoopState}

theorem RxState.Holds.starts (h : rx.Holds d kept) (hread : env.result = .data bytes)
    (hstart : loopStart d env rx info = some (iRxLenRead, start)) :
    d.format.Complete (rx.stream bytes) ∧ d.loops ((rx.stream bytes).getD 0 0) = true ∧
      iRxLenRead = (rx.stream bytes).length ∧
      ∃ b : RxBuffer, start = ⟨0, ⟨b, 0⟩, info⟩ ∧
        b.bytes.take (rx.stream bytes).length = rx.stream bytes := by
  rw [h.loopStart_eq hread] at hstart
  split at hstart
  · rename_i hloops
    cases hstart
    exact ⟨hloops.1, hloops.2, rfl, _, rfl, h.stored bytes⟩
  · cases hstart

/-- What is moved is the incomplete rest of the stream. -/
theorem remainder_of_visits {stream : List UInt8} {b : RxBuffer}
    (hbuf : b.bytes.take stream.length = stream)
    (hvisit : LoopState.Visits d env stream.length ⟨0, ⟨b, 0⟩, info⟩ s)
    (hinc : s.Incomplete d env stream.length) :
    s.remainder stream.length = (d.format.rest stream).length ∧
      s.iCurrentHciPacketOffset + (d.format.rest stream).length = stream.length := by
  have hscans := hvisit.scans hbuf
  have hrest : d.format.rest stream = stream.drop s.iCurrentHciPacketOffset :=
    hscans.rest.symm.trans (Format.frames_of_incomplete ((hscans.incomplete_iff hbuf).mp hinc)).2
  have hoffset := hscans.offset
  rw [hrest, List.length_drop, LoopState.remainder]
  exact ⟨rfl, Nat.add_sub_cancel' hoffset⟩

theorem movesAllowed_of_rest (h : rx.Holds d kept)
    (hrest : d.format.Complete (rx.stream bytes) → d.loops ((rx.stream bytes).getD 0 0) = true →
      2 * (d.format.rest (rx.stream bytes)).length ≤ (rx.stream bytes).length) :
    MovesAllowed d rx bytes := by
  intro env info iRxLenRead start s hread hstart hvisit hinc
  obtain ⟨hc, hloops, rfl, b, rfl, hbuf⟩ := h.starts hread hstart
  obtain ⟨hlen, hsum⟩ := remainder_of_visits hbuf hvisit hinc
  have hshort := hrest hc hloops
  rw [memcpyAllowed_front_iff, hlen]
  omega

/-- With the locks the loop comes to the move, so the rest has to be short. -/
theorem rest_of_movesAllowed (h : rx.Holds d kept) (hmoves : MovesAllowed d rx bytes)
    (hc : d.format.Complete (rx.stream bytes))
    (hloops : d.loops ((rx.stream bytes).getD 0 0) = true) :
    2 * (d.format.rest (rx.stream bytes)).length ≤ (rx.stream bytes).length := by
  by_cases hnil : d.format.rest (rx.stream bytes) = []
  · rw [hnil]
    exact Nat.zero_le _
  · let env : ReadEnv := ⟨.data bytes, fun _ => 0, fun _ => 0⟩
    let info : AntChannelInfo := ⟨-1, false, 0, 0⟩
    let rx' : RxState := ⟨rx.aucRxBuffer.store rx.iRxBufferLength
      (bytes.take (antHciMaxMsgSize - rx.iRxBufferLength)), 0⟩
    have hread : env.result = .data bytes := rfl
    have hstart : loopStart d env rx info = some ((rx.stream bytes).length, ⟨0, rx', info⟩) := by
      rw [h.loopStart_eq hread, if_pos ⟨hc, hloops⟩]
    have hbuf : rx'.aucRxBuffer.bytes.take (rx.stream bytes).length = rx.stream bytes :=
      h.stored bytes
    have hlock : ∀ off, env.flowControlLock off = 0 := fun _ => rfl
    obtain ⟨s, hvisit, hinc, hsum⟩ := LoopState.visits_rest hlock hbuf info hnil
    have hallowed := hmoves env info _ _ s hread hstart hvisit hinc
    rw [memcpyAllowed_front_iff, LoopState.remainder] at hallowed
    omega

/-- In every buffer that calls lead to, and for every chunk, the moves keep to
the contract exactly when the incomplete packet is not longer than the whole
packets in front of it. -/
theorem readChannelMsg_moves_allowed_iff (d : HciDefines) (calls : List RxCall)
    (ch : AntChannelType) (bytes : List UInt8) :
    let rx := RxCall.run d calls (fun _ => .init) ch
    MovesAllowed d rx bytes ↔
      (d.format.Complete (rx.stream bytes) → d.loops ((rx.stream bytes).getD 0 0) = true →
        2 * (d.format.rest (rx.stream bytes)).length ≤ (rx.stream bytes).length) := by
  obtain ⟨kept, hholds⟩ := RxCall.run_holds d calls (fun _ => .init)
    (fun _ => ⟨[], RxState.init_holds⟩) ch
  exact ⟨rest_of_movesAllowed hholds, movesAllowed_of_rest hholds⟩

/-- A flow control packet, and five bytes of a longer packet behind it. -/
def shortThenLong : List UInt8 := [3, 1, 0xC9, 0, 11, 9, 0x4E, 0, 1]

theorem readChannelMsg_overlaps :
    ¬ ∀ (d : HciDefines) (calls : List RxCall) (ch : AntChannelType) (bytes : List UInt8),
      MovesAllowed d (RxCall.run d calls (fun _ => .init) ch) bytes := by
  intro hall
  have h := rest_of_movesAllowed RxState.init_holds (hall .shipped [] .data shortThenLong)
    (by decide) (by decide)
  exact absurd h (by decide)

end proof
end AntHal
