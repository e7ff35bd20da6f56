import AntHal.Chardev.LockInvariant

/-!
Sessions of the receive path.

A session lasts from an `ant_enable` that succeeds to the end of the next
`ant_disable`; it includes what is read while either of them runs. Sessions are
read off the log. What a session dispatches should be the frames of its own
bytes. Nothing clears the receive buffers between two sessions, so this holds if
every session starts with empty ones.
-/

namespace AntHal

open Concurrency Framing

/-- One call of `readChannelMsg`: what was read, and what it dispatched. -/
structure Reading where
  channel : AntChannelType
  bytes : List UInt8
  actions : List RxAction

inductive Phase where
  | closed
  /-- Inside the `ant_enable` that may start a session. -/
  | opening
  | opened
  deriving DecidableEq

/-- The sessions of a log. -/
structure Sessions where
  phase : Phase
  /-- What has been read since the last session was begun. -/
  current : List Reading
  past : List (List Reading)

namespace Sessions

def empty : Sessions := ⟨.closed, [], []⟩

def begin (t : Sessions) : Sessions :=
  if t.phase = .closed then { t with phase := .opening, current := [] } else t

/-- An `ant_enable` inside a session belongs to it, whatever it returns. -/
def enabled (t : Sessions) (ret : Return) : Sessions :=
  if t.phase = .opening then
    { t with phase := if ret = .int 0 then .opened else .closed }
  else t

def finish (t : Sessions) : Sessions where
  phase := .closed
  current := []
  past := if t.phase = .opened then t.past ++ [t.current] else t.past

def note (t : Sessions) : Event → Sessions
  | .funcStart .antEnable => t.begin
  | .funcEnd .antEnable ret => t.enabled ret
  | .funcEnd .antDisable _ => t.finish
  | .received ch bytes actions => { t with current := t.current ++ [⟨ch, bytes, actions⟩] }
  | _ => t

/-- All sessions, with the one that has not ended. -/
def all (t : Sessions) : List (List Reading) :=
  t.past ++ if t.phase = .opened then [t.current] else []

end Sessions

namespace Shared

def sessions (s : Shared) : Sessions := s.events.foldl Sessions.note .empty

@[simp] theorem log_rx (s : Shared) (e : Event) : (s.log e).rx = s.rx := rfl

@[simp] theorem log_sessions (s : Shared) (e : Event) :
    (s.log e).sessions = s.sessions.note e := by
  simp [sessions, log]

end Shared

section reading
variable (ch : AntChannelType) (session : List Reading)

def bytesOn : List UInt8 :=
  (session.filterMap fun r => if r.channel = ch then some r.bytes else none).flatten

def framesOn : List (Nat × List UInt8) :=
  (session.filterMap fun r =>
    if r.channel = ch then some (r.actions.filterMap RxAction.frame?) else none).flatten

@[simp] theorem bytesOn_snoc (r : Reading) : bytesOn ch (session ++ [r]) =
    bytesOn ch session ++ if r.channel = ch then r.bytes else [] := by
  by_cases h : r.channel = ch <;> simp [bytesOn, h]

@[simp] theorem framesOn_snoc (r : Reading) : framesOn ch (session ++ [r]) =
    framesOn ch session ++
      if r.channel = ch then r.actions.filterMap RxAction.frame? else [] := by
  by_cases h : r.channel = ch <;> simp [framesOn, h]

/-- On every channel the frames of a session are those of its own bytes. -/
def Isolated (b : Build) : Prop :=
  ∀ ch ∈ b.channels,
    framesOn ch session = (b.hci.format.frames (bytesOn ch session)).map b.hci.frameOf

end reading

/-- A session is begun only with empty receive buffers. -/
def beginsClean (b : Build) (c : ThreadConfig) : Move Label Tid Env → Bool
  | .start _ _ => true
  | .act t _ =>
    match (c.pool t).bind Thread.head? with
    | some (.funcStart .antEnable) =>
      c.shared.sessions.phase ≠ .closed ||
        b.channels.all fun ch => (c.shared.rx ch).iRxBufferLength = 0
    | _ => true

section proof
variable {b : Build} {t : Tid} {env : Env} {s : Shared}

theorem RxState.holds_nil {d : HciDefines} {rx : RxState} (h : rx.iRxBufferLength = 0) :
    rx.Holds d [] :=
  ⟨h, rfl, d.format.not_complete_nil⟩

/-- The readings of a session so far, and the buffers they have led to. -/
structure Follows (b : Build) (rx : AntChannelType → RxState) (session : List Reading) :
    Prop where
  isolated : Isolated session b
  holds : ∀ ch ∈ b.channels, (rx ch).Holds b.hci (b.hci.format.rest (bytesOn ch session))

theorem follows_nil {rx : AntChannelType → RxState}
    (h : ∀ ch ∈ b.channels, (rx ch).iRxBufferLength = 0) : Follows b rx [] := by
  obtain ⟨hframes, hrest⟩ := Format.frames_of_incomplete b.hci.format.not_complete_nil
  refine ⟨fun ch _ => ?_, fun ch hch => ?_⟩
  · change [] = (b.hci.format.frames []).map b.hci.frameOf
    rw [hframes]
    rfl
  · change (rx ch).Holds b.hci (b.hci.format.rest [])
    rw [hrest]
    exact RxState.holds_nil (h ch hch)

/-- One call of `readChannelMsg` extends the session by its own frames. -/
theorem Follows.read (hopcode : b.hci.opcode = none) {session : List Reading}
    (h : Follows b s.rx session) (ch : AntChannelType) :
    let r := readChannelMsg b.hci ⟨env.read, env.beyond, fun _ => 0⟩ (s.rx ch)
      (s.astChannels ch)
    Follows b (Function.update s.rx ch r.rx) (session ++ [⟨ch, r.received, r.actions⟩]) := by
  intro r
  have hone : ch ∈ b.channels →
      r.actions.filterMap RxAction.frame? = (b.hci.format.frames
        (b.hci.format.rest (bytesOn ch session) ++ r.received)).map b.hci.frameOf ∧
      r.rx.Holds b.hci
        (b.hci.format.rest (b.hci.format.rest (bytesOn ch session) ++ r.received)) := by
    intro hch
    have hholds := h.holds ch hch
    cases hread : env.read with
    | data bytes =>
        obtain ⟨-, hframes, hrest, -⟩ := readChannelMsg_spec
          ⟨env.read, env.beyond, fun _ => 0⟩ hopcode (fun _ => rfl) hread hholds
          (s.astChannels ch)
        exact ⟨hframes, hrest⟩
    | enodev | enxio | otherError _ =>
        have hr : r = ⟨s.rx ch, s.astChannels ch, [], [], -1⟩ := by
          simp [r, readChannelMsg, hread]
        obtain ⟨hframes, hrest⟩ := Format.frames_of_incomplete hholds.incomplete
        rw [hr]
        simp only [List.append_nil, hframes, hrest]
        exact ⟨rfl, hholds⟩
  refine ⟨fun ch' hch' => ?_, fun ch' hch' => ?_⟩
  · by_cases hsame : ch = ch'
    · subst hsame
      have happ := b.hci.format.frames_append (bytesOn ch session) r.received
      simp only [framesOn_snoc, bytesOn_snoc, if_true, h.isolated ch hch', (hone hch').1,
        happ.1, List.map_append]
    · simp only [framesOn_snoc, bytesOn_snoc, hsame, if_false, List.append_nil]
      exact h.isolated ch' hch'
  · by_cases hsame : ch = ch'
    · subst hsame
      have happ := b.hci.format.frames_append (bytesOn ch session) r.received
      simp only [bytesOn_snoc, if_true, Function.update_self, happ.2]
      exact (hone hch').2
    · simp only [bytesOn_snoc, hsame, if_false, List.append_nil,
        Function.update_of_ne (Ne.symm hsame)]
      exact h.holds ch' hch'

/-- Ended sessions are isolated, and the buffers go with the current one. -/
structure InSession (b : Build) (s : Shared) : Prop where
  past : ∀ session ∈ s.sessions.past, Isolated session b
  current : s.sessions.phase ≠ .closed → Follows b s.rx s.sessions.current

theorem InSession.begin (h : InSession b s)
    (hclean : s.sessions.phase = .closed → ∀ ch ∈ b.channels, (s.rx ch).iRxBufferLength = 0) :
    InSession b (s.log (.funcStart .antEnable)) := by
  by_cases hphase : s.sessions.phase = .closed
  · refine ⟨?_, fun _ => ?_⟩
    · simpa [Sessions.note, Sessions.begin, hphase] using h.past
    · simpa [Sessions.note, Sessions.begin, hphase] using follows_nil (hclean hphase)
  · have hsame : (s.log (.funcStart .antEnable)).sessions = s.sessions := by
      simp [Sessions.note, Sessions.begin, hphase]
    exact ⟨hsame ▸ h.past, hsame ▸ h.current⟩

theorem InSession.enabled (h : InSession b s) (ret : Return) :
    InSession b (s.log (.funcEnd .antEnable ret)) := by
  by_cases hphase : s.sessions.phase = .opening
  · refine ⟨?_, fun _ => ?_⟩
    · simpa [Sessions.note, Sessions.enabled, hphase] using h.past
    · simpa [Sessions.note, Sessions.enabled, hphase] using h.current (by simp [hphase])
  · have hsame : (s.log (.funcEnd .antEnable ret)).sessions = s.sessions := by
      simp [Sessions.note, Sessions.enabled, hphase]
    exact ⟨hsame ▸ h.past, hsame ▸ h.current⟩

theorem InSession.finish (h : InSession b s) (ret : Return) :
    InSession b (s.log (.funcEnd .antDisable ret)) := by
  refine ⟨?_, fun hne => ?_⟩
  · simp only [Shared.log_sessions, Sessions.note, Sessions.finish]
    split
    · rename_i hphase
      intro session hmem
      rcases List.mem_append.mp hmem with hmem | hmem
      · exact h.past session hmem
      · rw [List.mem_singleton.mp hmem]
        exact (h.current (by simp [hphase])).isolated
    · exact h.past
  · simp [Sessions.note, Sessions.finish] at hne

/-- An event that says nothing about sessions, from an operation that reads nothing. -/
theorem InSession.quiet {s' : Shared} (h : InSession b s) (hrx : s'.rx = s.rx)
    (hsessions : s'.sessions = s.sessions) : InSession b s' := by
  refine ⟨?_, ?_⟩
  · rw [hsessions]
    exact h.past
  · rw [hsessions, hrx]
    exact h.current

theorem inSession_effect (hopcode : b.hci.opcode = none) (h : InSession b s) {o : Op}
    (hclean : o = .funcStart .antEnable → s.sessions.phase = .closed →
      ∀ ch ∈ b.channels, (s.rx ch).iRxBufferLength = 0) :
    InSession b (effect b t env o s).2 := by
  cases o with
  | funcStart f =>
      cases f with
      | antEnable => exact h.begin (hclean rfl)
      | _ => exact h.quiet rfl (Shared.log_sessions _ _)
  | funcEnd f ret =>
      cases f with
      | antEnable => exact h.enabled ret
      | antDisable => exact h.finish ret
      | _ => exact h.quiet rfl (Shared.log_sessions _ _)
  | readChannelMsg ch =>
      let r := readChannelMsg b.hci ⟨env.read, env.beyond, fun _ => 0⟩ (s.rx ch)
        (s.astChannels ch)
      have hnote : (effect b t env (.readChannelMsg ch) s).2.sessions =
          s.sessions.note (.received ch r.received r.actions) := Shared.log_sessions _ _
      refine ⟨?_, fun hphase => ?_⟩
      · rw [hnote]
        exact h.past
      · rw [hnote] at hphase ⊢
        exact (h.current hphase).read hopcode ch
  | mutexTrylock | openDevice | eventfdWrite | pthreadCreate | keepAliveCreate =>
      simp only [effect]
      split
      all_goals first | exact h.quiet rfl rfl | exact h.quiet rfl (Shared.log_sessions _ _)
  | _ => first | exact h.quiet rfl rfl | exact h.quiet rfl (Shared.log_sessions _ _)

/-- In a run that begins every session with empty buffers, each session is parsed
from a frame boundary and by itself. -/
theorem sessions_isolated (hopcode : b.hci.opcode = none) {stateCallback rxCallback : Bool}
    {c : ThreadConfig} (h : (machine b).Path (fun x mv => beginsClean b x mv = true)
      (initConfig stateCallback rxCallback) c) :
    ∀ session ∈ c.shared.sessions.all, Isolated session b := by
  have hI : InSession b c.shared := by
    refine h.invariant (I := fun c => InSession b c.shared) (fun c mv d hc hclean hs => ?_)
      ⟨fun _ hmem => (List.not_mem_nil hmem).elim, fun hne => absurd rfl hne⟩
    cases mv with
    | start t l =>
        obtain ⟨-, -, rfl⟩ := Machine.step_start hs
        exact hc
    | act t env =>
        obtain ⟨l, o, k, ha⟩ := Machine.step_act hs
        rw [show d.shared = (effect b t env o c.shared).2 from ha.shared]
        refine inSession_effect hopcode hc ?_
        rintro rfl hphase
        simpa [beginsClean, ha.thread, Thread.head?, hphase] using hclean
  intro session hmem
  rcases List.mem_append.mp hmem with hmem | hmem
  · exact hI.past session hmem
  · split at hmem
    · rename_i hphase
      rw [List.mem_singleton.mp hmem]
      exact (hI.current (by simp [hphase])).isolated
    · exact absurd hmem List.not_mem_nil

def firstRead (h : Nat) (bytes : List UInt8) : List (Move Label Tid Env) :=
  List.replicate 9 (.act (.rx h)
    { poll := ⟨1, fun ch => if ch = .data then eventDataAvailable else 0, 0⟩
      read := .data bytes })

/-- Two sessions with an orderly disable between them, and one read in each. -/
def twoSessions (first second : List UInt8) : List (Move Label Tid Env) :=
  enabling ++ firstRead 1 first ++
    .start (.app 1) .disableRadio :: List.replicate 14 (.act (.app 1) {}) ++
    List.replicate 3 (.act (.rx 1) {}) ++ List.replicate 18 (.act (.app 1) {}) ++
    .start (.app 2) .enableRadio :: List.replicate 29 (.act (.app 2) { handle := 1 }) ++
    firstRead 2 second

theorem sessions_isolated_whole :
    ∃ c : ThreadConfig, c.shared.sessions.all.length = 2 ∧
      ∀ session ∈ c.shared.sessions.all, Isolated session .smd := by
  obtain ⟨c, hpath, hc⟩ := Machine.exec_any (machine .smd) (beginsClean .smd)
    (twoSessions [1, 5] [1, 170]) (initConfig true true)
    (fun c => c.shared.sessions.all.length = 2) (by decide +kernel)
  exact ⟨c, of_decide_eq_true hc, sessions_isolated rfl hpath⟩

/-- The size byte of a frame that the first session leaves unfinished swallows
the frame of the second one. -/
theorem sessions_mixed :
    ¬ ∀ (b : Build) (stateCallback rxCallback : Bool) (c : ThreadConfig),
      b.hci.opcode = none → (machine b).Reachable (initConfig stateCallback rxCallback) c →
      ∀ session ∈ c.shared.sessions.all, Isolated session b := by
  intro h
  obtain ⟨c, hpath, hc⟩ := Machine.exec_any (machine .smd) (fun _ _ => true)
    (twoSessions [5] [1, 170]) (initConfig true true)
    (fun c => c.shared.sessions.all.any fun session =>
      framesOn .data session = [] && bytesOn .data session = [1, 170]) (by decide +kernel)
  simp only [List.any_eq_true, Bool.and_eq_true, decide_eq_true_eq] at hc
  obtain ⟨session, hmem, hframes, hbytes⟩ := hc
  have hisolated := h .smd true true c rfl hpath.reachable session hmem .data (by decide)
  rw [hframes, hbytes] at hisolated
  revert hisolated
  decide

end proof
end AntHal
