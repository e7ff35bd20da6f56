import AntHal.Concurrency.Trace
import AntHal.Bluez.Wired

/-!
The retries of `ant_tx_message`.

The two loops of the source go on with whatever status the last packet has left.
Here a call is the list of its operations with their answers, and what the loops
keep to is said of all lists: when a message is sent again, and with which
answer the call returns.
-/

namespace AntHal.Bluez

open Concurrency

abbrev CallStep : Type := Step Op Op.Res

namespace CallStep

def isWrite (e : CallStep) : Bool :=
  match e with
  | ⟨.writev _ _, _⟩ => true
  | _ => false

/-- The message has been written as a whole. -/
def wrote (e : CallStep) : Bool :=
  match e with
  | ⟨.writev _ bytes, r⟩ =>
    match r with
    | .ok n => bytes.length ≤ n
    | _ => false
  | _ => false

/-- The call waits for the chip or reads, with any outcome. -/
def waits (e : CallStep) : Bool :=
  match e with
  | ⟨.poll _, _⟩ | ⟨.read _, _⟩ => true
  | _ => false

def packet? (e : CallStep) : Option (Nat × Memory) :=
  match e with
  | ⟨.read _, r⟩ =>
    match r with
    | .ok packet => some packet
    | _ => none
  | _ => none

/-- The result of a valid Command Complete for ANT_COMMAND_OPCODE. -/
def commandComplete? (board : Board) (e : CallStep) : Option UInt8 :=
  match e.packet? with
  | some (len, buf) =>
    if len = commandCompletePacketSize ∧ isCommandComplete board buf (buf 6) = true then
      some (buf 6)
    else none
  | none => none

def returned? (e : CallStep) : Option AntStatus :=
  match e with
  | ⟨.funcEnd .antTxMessage (.status status), _⟩ => some status
  | _ => none

end CallStep

/-- The status with which `ant_tx_message` returns. -/
def returned (es : List CallStep) : Option AntStatus := es.findSome? CallStep.returned?

/-- No packet is read, and nothing is written. -/
def Silent (es : List CallStep) : Prop := ∀ e ∈ es, e.isWrite = false ∧ e.packet? = none

/-- The last packet that was read is a Command Complete with result 0, and no
write follows it. -/
def LastSuccess (board : Board) (es : List CallStep) : Prop :=
  ∃ pre e post, es = pre ++ e :: post ∧ e.commandComplete? board = some 0 ∧ Silent post

/-- The first write, if there is one, follows on a Command Complete with another
result, without any waiting between them. -/
def FirstAnswered (board : Board) (es : List CallStep) : Prop :=
  ∀ mid e post, es = mid ++ e :: post → e.isWrite = true → (∀ x ∈ mid, x.isWrite = false) →
    ∃ pre cc gap result, mid = pre ++ cc :: gap ∧ cc.commandComplete? board = some result ∧
      result ≠ 0 ∧ ∀ x ∈ gap, x.waits = false

/-- A message that has been written is written again only for such an answer. -/
def Answered (board : Board) (es : List CallStep) : Prop :=
  ∀ pre e post, es = pre ++ e :: post → e.wrote = true → FirstAnswered board post

/-- A write for which a Command Complete is the cause, with the last reading of
the clock between them. -/
structure Resend where
  result : UInt8
  clock : Option Nat

/-- The cause of a write that may follow. -/
def causeAfter (board : Board) (cause : Option Resend) (e : CallStep) : Option Resend :=
  match e with
  | ⟨.time, now⟩ => cause.map fun c => { c with clock := now }
  | ⟨.poll _, _⟩ => none
  | ⟨.read _, _⟩ => (e.commandComplete? board).map fun result => ⟨result, none⟩
  | _ => cause

/-- The resends of a call, with their causes. -/
def resends (board : Board) : Option Resend → List CallStep → List Resend
  | _, [] => []
  | cause, e :: es =>
    if e.isWrite then cause.toList ++ resends board none es
    else resends board (causeAfter board cause e) es

/-- How many resends are not for HCI_UNSPECIFIED_ERROR. -/
def otherCauses (rs : List Resend) : Nat := rs.countP fun r => r.result ≠ hciUnspecifiedError

/-- Resends for HCI_UNSPECIFIED_ERROR come at clock readings before `endTime`. -/
def Timely (endTime : Nat) (rs : List Resend) : Prop :=
  ∀ r ∈ rs, r.result = hciUnspecifiedError → ∃ now, r.clock = some now ∧ now < endTime

section lists
variable {board : Board} {e : CallStep} {es : List CallStep} {cause : Option Resend}

theorem returned_cons (he : e.returned? = none) : returned (e :: es) = returned es := by
  rw [returned, List.findSome?_cons, he]
  rfl

theorem lastSuccess_cons : LastSuccess board (e :: es) ↔
    e.commandComplete? board = some 0 ∧ Silent es ∨ LastSuccess board es := by
  constructor
  · intro ⟨pre, cc, post, hes, hcc, hsilent⟩
    cases pre with
    | nil =>
        cases hes
        exact .inl ⟨hcc, hsilent⟩
    | cons x pre =>
        cases hes
        exact .inr ⟨pre, cc, post, rfl, hcc, hsilent⟩
  · intro h
    obtain ⟨hcc, hsilent⟩ | ⟨pre, cc, post, rfl, hcc, hsilent⟩ := h
    · exact ⟨[], e, es, rfl, hcc, hsilent⟩
    · exact ⟨e :: pre, cc, post, rfl, hcc, hsilent⟩

theorem lastSuccess_other (he : e.commandComplete? board ≠ some 0) :
    LastSuccess board (e :: es) ↔ LastSuccess board es :=
  lastSuccess_cons.trans (or_iff_right fun h => he h.1)

theorem Silent.not_lastSuccess (h : Silent es) : ¬ LastSuccess board es := by
  intro ⟨pre, cc, post, hes, hcc, _⟩
  have hnone := (h cc (by rw [hes]; simp)).2
  simp [CallStep.commandComplete?, hnone] at hcc

theorem Silent.firstAnswered (h : Silent es) : FirstAnswered board es := by
  intro mid x post hes hx _
  have hfalse := (h x (by rw [hes]; simp)).1
  rw [hfalse] at hx
  cases hx

theorem FirstAnswered.cons (h : FirstAnswered board es) (he : e.isWrite = false) :
    FirstAnswered board (e :: es) := by
  intro mid x post hes hx hmid
  cases mid with
  | nil =>
      cases hes
      rw [he] at hx
      cases hx
  | cons y mid =>
      cases hes
      obtain ⟨pre, cc, gap, result, rfl, hcc⟩ := h mid x post rfl hx fun z hz =>
        hmid z (List.mem_cons_of_mem e hz)
      exact ⟨e :: pre, cc, gap, result, rfl, hcc⟩

theorem answered_cons : Answered board (e :: es) ↔
    (e.wrote = true → FirstAnswered board es) ∧ Answered board es := by
  constructor
  · intro h
    refine ⟨fun he => h [] e es rfl he, fun pre x post hes hx => ?_⟩
    exact h (e :: pre) x post (by rw [hes]; rfl) hx
  · intro ⟨hhead, htail⟩ pre x post hes hx
    cases pre with
    | nil =>
        cases hes
        exact hhead hx
    | cons y pre =>
        cases hes
        exact htail pre x post rfl hx

theorem CallStep.wrote_isWrite (h : e.wrote = true) : e.isWrite = true := by
  obtain ⟨o, r⟩ := e
  cases o <;> simp_all [CallStep.wrote, CallStep.isWrite]

theorem Silent.answered (h : Silent es) : Answered board es := by
  intro pre x post hes hx
  have hfalse := (h x (by rw [hes]; simp)).1
  rw [CallStep.wrote_isWrite hx] at hfalse
  cases hfalse

theorem Silent.resends_eq (h : Silent es) : resends board cause es = [] := by
  induction es generalizing cause with
  | nil => rfl
  | cons e es ih =>
      obtain ⟨he, hes⟩ := List.forall_mem_cons.mp h
      rw [resends, he.1]
      exact ih hes

end lists

/-- What a packet that has been read says, and the status that comes of it. -/
theorem commandComplete_cases (board : Board) (fd : Int) (len : Nat) (buf : Memory) :
    let e : CallStep := ⟨.read fd, .ok (len, buf)⟩
    let status := commandCompleteStatus board buf len
    (e.commandComplete? board = some 0 ∧ status = .success) ∨
    (e.commandComplete? board = some hciUnspecifiedError ∧
      status = .transportUnspecifiedError) ∨
    (∃ result, e.commandComplete? board = some result ∧ result ≠ 0 ∧
      result ≠ hciUnspecifiedError ∧ status = .commandWriteFailed) ∨
    (e.commandComplete? board = none ∧ (status = .failed ∨ status = .noValueAvailable)) := by
  intro e status
  have hpacket : e.packet? = some (len, buf) := rfl
  have hint : (len : Int) ≠ commandCompletePacketSize ↔ len ≠ commandCompletePacketSize :=
    not_congr Int.ofNat_inj
  simp only [CallStep.commandComplete?, hpacket, status, commandCompleteStatus, hint]
  by_cases hlen : len = commandCompletePacketSize
  · by_cases hcc : isCommandComplete board buf (buf 6) = true
    · rw [if_pos ⟨hlen, hcc⟩]
      simp only [isCommandComplete, Bool.and_eq_true, decide_eq_true_eq] at hcc
      obtain ⟨⟨⟨htype, hevt⟩, hopcode⟩, -⟩ := hcc
      simp only [hlen, htype, hevt, hopcode, ne_eq, not_true, if_false]
      by_cases hzero : buf 6 = 0
      · exact .inl ⟨by rw [hzero], if_pos hzero⟩
      · rw [if_neg hzero]
        by_cases herror : buf 6 = hciUnspecifiedError
        · exact .inr (.inl ⟨by rw [herror], if_pos herror⟩)
        · exact .inr (.inr (.inl ⟨buf 6, rfl, hzero, herror, if_neg herror⟩))
    · rw [if_neg fun h => hcc h.2, if_neg (not_not.mpr hlen)]
      refine .inr (.inr (.inr ⟨rfl, .inr ?_⟩))
      simp only [isCommandComplete, Bool.and_eq_true, decide_eq_true_eq, and_true] at hcc
      by_cases htype : buf 0 = hciEventPkt
      · rw [if_neg (not_not.mpr htype)]
        by_cases hevt : buf 1 = evtCmdComplete
        · rw [if_neg (not_not.mpr hevt), if_pos fun hopcode => hcc ⟨⟨htype, hevt⟩, hopcode⟩]
        · rw [if_pos hevt]
      · rw [if_pos htype]
  · rw [if_neg fun h => hlen h.1, if_pos hlen]
    exact .inr (.inr (.inr ⟨rfl, .inl rfl⟩))

/-- The first write comes without any waiting. -/
def Direct (es : List CallStep) : Prop :=
  ∀ mid e post, es = mid ++ e :: post → e.isWrite = true → (∀ x ∈ mid, x.isWrite = false) →
    ∀ x ∈ mid, x.waits = false

/-- What holds of the rest of a call anywhere in the send loop. -/
structure Looping (b : Build) (tx : Sending) (es : List CallStep) : Prop where
  success : returned es = some .success ↔ LastSuccess b.board es
  answered : Answered b.board es
  few : otherCauses (resends b.board none es) + tx.commandWriteFailRetries < maxRetriesWriteFail
  timely : Timely tx.endTime (resends b.board none es)
  bytes : ∀ fd bytes r, ⟨.writev fd bytes, r⟩ ∈ es → bytes = writeDataBytes b tx.pucMesg

/-- The rest of a call from an attempt to write on. -/
structure Writing (b : Build) (tx : Sending) (es : List CallStep) : Prop where
  looping : Looping b tx es
  direct : Direct es
  caused : ∀ cause, resends b.board cause es = cause.toList ++ resends b.board none es ∨
    resends b.board cause es = resends b.board none es
  wrote : returned es = some .success → ∃ e ∈ es, e.wrote = true

/-- The rest of a call that waits for the chip. -/
structure Waiting (b : Build) (tx : Sending) (es : List CallStep) : Prop where
  looping : Looping b tx es
  first : FirstAnswered b.board es

/-- The rest of a call that gives up or has succeeded. -/
structure Closing (tx : Sending) (es : List CallStep) : Prop where
  returned : returned es = some tx.status
  silent : Silent es

/-- What the loop takes for granted: the status is not that of a success, and
there are retries left. -/
structure Sending.Fresh (tx : Sending) : Prop where
  status : tx.status ≠ .success
  retries : tx.commandWriteFailRetries < maxRetriesWriteFail

/-- The rest of a call, from the labels of the loop. -/
def Disciplined (b : Build) : Label → List CallStep → Prop
  | .txWrite tx, es => tx.Fresh → Writing b tx es
  | .txWait tx, es | .txRead tx, es => tx.Fresh → Waiting b tx es
  | .txClose tx, es => Closing tx es
  | _, _ => True

section loop
variable {b : Build} {tx : Sending} {es : List CallStep} {e : CallStep}

theorem Silent.cons (h : Silent es) (hwrite : e.isWrite = false) (hpacket : e.packet? = none) :
    Silent (e :: es) :=
  List.forall_mem_cons.mpr ⟨⟨hwrite, hpacket⟩, h⟩

theorem Silent.direct (h : Silent es) : Direct es := by
  intro mid x post hes hx _
  have hfalse := (h x (by rw [hes]; simp)).1
  rw [hfalse] at hx
  cases hx

theorem Direct.cons (h : Direct es) (hwaits : e.waits = false) : Direct (e :: es) := by
  intro mid x post hes hx hmid
  cases mid with
  | nil => exact fun y hy => absurd hy List.not_mem_nil
  | cons y mid =>
      cases hes
      refine List.forall_mem_cons.mpr ⟨hwaits, ?_⟩
      exact h mid x post rfl hx fun z hz => hmid z (List.mem_cons_of_mem _ hz)

theorem Closing.looping {tx' : Sending} (h : Closing tx' es) (hstatus : tx'.status ≠ .success)
    (hretries : tx.commandWriteFailRetries < maxRetriesWriteFail) : Looping b tx es where
  success := by
    rw [h.returned]
    exact iff_of_false (fun heq => hstatus (Option.some.inj heq)) h.silent.not_lastSuccess
  answered := h.silent.answered
  few := by
    rw [h.silent.resends_eq]
    exact (Nat.zero_add _).symm ▸ hretries
  timely := by
    rw [h.silent.resends_eq]
    exact fun r hr => absurd hr List.not_mem_nil
  bytes := fun fd bytes r hmem => Bool.noConfusion (h.silent _ hmem).1

/-- A step that says nothing of a command complete. -/
structure Neutral (board : Board) (e : CallStep) : Prop where
  returned : e.returned? = none
  isWrite : e.isWrite = false
  commandComplete : e.commandComplete? board ≠ some 0
  cause : causeAfter board none e = none

theorem Looping.cons (h : Looping b tx es) (he : Neutral b.board e) : Looping b tx (e :: es) where
  success := by rw [returned_cons he.returned, h.success, lastSuccess_other he.commandComplete]
  answered := by
    refine answered_cons.mpr ⟨fun hwrote => ?_, h.answered⟩
    have hwrite := CallStep.wrote_isWrite hwrote
    rw [he.isWrite] at hwrite
    cases hwrite
  few := by
    rw [resends, he.isWrite, he.cause]
    exact h.few
  timely := by
    rw [resends, he.isWrite, he.cause]
    exact h.timely
  bytes := fun fd bytes r hmem => by
    obtain rfl | hmem := List.mem_cons.mp hmem
    · exact Bool.noConfusion he.isWrite
    · exact h.bytes fd bytes r hmem

theorem Looping.write {fd : Int} {out : Outcome Nat} (h : Looping b tx es)
    (hfirst : CallStep.wrote ⟨.writev fd (writeDataBytes b tx.pucMesg), out⟩ = true →
      FirstAnswered b.board es) :
    Looping b tx (⟨.writev fd (writeDataBytes b tx.pucMesg), out⟩ :: es) where
  success := by
    rw [returned_cons rfl, h.success, lastSuccess_other]
    exact fun heq => nomatch heq
  answered := answered_cons.mpr ⟨hfirst, h.answered⟩
  few := h.few
  timely := h.timely
  bytes := fun fd' bytes r hmem => by
    obtain heq | hmem := List.mem_cons.mp hmem
    · cases heq
      rfl
    · exact h.bytes fd' bytes r hmem

/-- With the same message and end time, and no fewer retries used. -/
theorem Looping.of_later {tx' : Sending} (h : Looping b tx' es) (hmesg : tx'.pucMesg = tx.pucMesg)
    (htime : tx'.endTime = tx.endTime)
    (hretries : tx.commandWriteFailRetries ≤ tx'.commandWriteFailRetries) : Looping b tx es where
  success := h.success
  answered := h.answered
  few := Nat.lt_of_le_of_lt (Nat.add_le_add_left hretries _) h.few
  timely := htime ▸ h.timely
  bytes := hmesg ▸ h.bytes

end loop

section trace
variable {b : Build} {tx : Sending} {es : List CallStep}

/-- The steps of the labels of the loop, and where the call goes on. -/
theorem callTrace_txWrite (h : CallTrace (body b) (.txWrite tx) es) :
    ∃ socket fs, es = ⟨.getCmdSocket, socket⟩ :: fs ∧
      (CallTrace (body b) (.txClose { tx with status := .failed }) fs ∨
        ∃ out gs, fs = ⟨.writev socket (writeDataBytes b tx.pucMesg), out⟩ :: gs ∧
          (out = .again ∧ CallTrace (body b) (.txWrite tx) gs ∨
            CallStep.wrote ⟨.writev socket (writeDataBytes b tx.pucMesg), out⟩ = false ∧
              CallTrace (body b) (.txClose { tx with status := .failed }) gs ∨
            CallStep.wrote ⟨.writev socket (writeDataBytes b tx.pucMesg), out⟩ = true ∧
              CallTrace (body b) (.txWait tx) gs)) := by
  obtain ⟨fs, gs, a, rfl, hsteps, hrest⟩ := h.inv
  simp only [body, txWrite, Prog.op_bind, Prog.ret_bind, Prog.pure_eq] at hsteps
  obtain ⟨socket, fs, rfl, hafter⟩ := Prog.steps_op_iff.mp hsteps
  refine ⟨socket, fs ++ gs, rfl, ?_⟩
  split at hafter
  · obtain ⟨rfl, rfl⟩ := Prog.steps_ret_iff.mp hafter
    exact .inl hrest
  · obtain ⟨out, fs', rfl, hend⟩ := Prog.steps_op_iff.mp hafter
    obtain ⟨rfl, rfl⟩ := Prog.steps_ret_iff.mp hend
    refine .inr ⟨out, gs, rfl, ?_⟩
    cases out with
    | again => exact .inl ⟨rfl, hrest⟩
    | error => exact .inr (.inl ⟨rfl, hrest⟩)
    | ok n =>
        by_cases hshort : n < (writeDataBytes b tx.pucMesg).length
        · simp only [hshort, if_true] at hrest
          exact .inr (.inl ⟨decide_eq_false (Nat.not_le.mpr hshort), hrest⟩)
        · simp only [hshort, if_false] at hrest
          exact .inr (.inr ⟨decide_eq_true (Nat.not_lt.mp hshort), hrest⟩)

theorem callTrace_txWait (h : CallTrace (body b) (.txWait tx) es) :
    ∃ n fs, es = ⟨.poll tx.txSocket, n⟩ :: fs ∧
      (CallTrace (body b) (.txWait tx) fs ∨ CallTrace (body b) (.txClose tx) fs ∨
        CallTrace (body b) (.txRead tx) fs) := by
  obtain ⟨fs, gs, a, rfl, hsteps, hrest⟩ := h.inv
  simp only [body, txWait, Prog.op_bind, Prog.ret_bind, Prog.pure_eq] at hsteps
  obtain ⟨n, fs, rfl, hend⟩ := Prog.steps_op_iff.mp hsteps
  obtain ⟨rfl, rfl⟩ := Prog.steps_ret_iff.mp hend
  refine ⟨n, gs, rfl, ?_⟩
  cases n with
  | again => exact .inl hrest
  | error => exact .inr (.inl hrest)
  | ok n =>
      by_cases hzero : n = 0
      · simp only [hzero, if_true] at hrest
        exact .inr (.inl hrest)
      · simp only [hzero, if_false] at hrest
        exact .inr (.inr hrest)

/-- Where the call goes on behind a packet, by its status. -/
def AfterPacket (b : Build) (tx : Sending) (es : List CallStep) : Prop :=
  match tx.status with
  | .noValueAvailable => CallTrace (body b) (.txWait tx) es
  | .commandWriteFailed =>
    let tx' := { tx with commandWriteFailRetries := tx.commandWriteFailRetries + 1 }
    if tx'.commandWriteFailRetries < maxRetriesWriteFail then CallTrace (body b) (.txWrite tx') es
    else CallTrace (body b) (.txClose tx') es
  | .transportUnspecifiedError =>
    ∃ now fs, es = ⟨.nanosleep, ()⟩ :: ⟨.time, now⟩ :: fs ∧
      (CallTrace (body b) (.txClose tx) fs ∨
        (∃ clock, now = some clock ∧ clock < tx.endTime) ∧ CallTrace (body b) (.txWrite tx) fs)
  | _ => CallTrace (body b) (.txClose tx) es

theorem afterPacket_of_steps {fs gs : List CallStep} {a : Option Label}
    (hsteps : (handleCommandComplete tx).Steps fs (.ret a)) (hrest : Continues (body b) a gs) :
    AfterPacket b tx (fs ++ gs) := by
  cases hstatus : tx.status <;> simp only [AfterPacket, handleCommandComplete, hstatus] at hsteps ⊢
  case noValueAvailable =>
    obtain ⟨rfl, rfl⟩ := Prog.steps_ret_iff.mp hsteps
    exact hrest
  case commandWriteFailed =>
    split at hsteps
    · rename_i hmore
      obtain ⟨rfl, rfl⟩ := Prog.steps_ret_iff.mp hsteps
      rw [if_pos hmore, ← hstatus]
      rw [← hstatus] at hrest
      exact hrest
    · rename_i hmore
      obtain ⟨rfl, rfl⟩ := Prog.steps_ret_iff.mp hsteps
      rw [if_neg hmore]
      exact hrest
  case transportUnspecifiedError =>
    simp only [Prog.op_bind, Prog.ret_bind, Prog.pure_eq] at hsteps
    obtain ⟨_, fs, rfl, hafter⟩ := Prog.steps_op_iff.mp hsteps
    obtain ⟨now, fs, rfl, hend⟩ := Prog.steps_op_iff.mp hafter
    refine ⟨now, fs ++ gs, rfl, ?_⟩
    cases now with
    | none =>
        obtain ⟨rfl, rfl⟩ := Prog.steps_ret_iff.mp hend
        exact .inl hrest
    | some clock =>
        obtain ⟨rfl, rfl⟩ := Prog.steps_ret_iff.mp hend
        by_cases hearly : clock < tx.endTime
        · simp only [hearly, if_true] at hrest
          exact .inr ⟨⟨clock, rfl, hearly⟩, hrest⟩
        · simp only [hearly, if_false] at hrest
          exact .inl hrest
  all_goals
    obtain ⟨rfl, rfl⟩ := Prog.steps_ret_iff.mp hsteps
    exact hrest

theorem callTrace_txRead (h : CallTrace (body b) (.txRead tx) es) :
    ∃ packet fs, es = ⟨.read tx.txSocket, packet⟩ :: fs ∧
      match packet with
      | .again => CallTrace (body b) (.txRead tx) fs
      | .error => CallTrace (body b) (.txClose { tx with status := .failed }) fs
      | .ok (len, buf) =>
        AfterPacket b { tx with status := commandCompleteStatus b.board buf len } fs := by
  obtain ⟨fs, gs, a, rfl, hsteps, hrest⟩ := h.inv
  simp only [body, txRead, Prog.op_bind, Prog.ret_bind, Prog.pure_eq] at hsteps
  obtain ⟨packet, fs, rfl, hafter⟩ := Prog.steps_op_iff.mp hsteps
  refine ⟨packet, fs ++ gs, rfl, ?_⟩
  cases packet with
  | again =>
      obtain ⟨rfl, rfl⟩ := Prog.steps_ret_iff.mp hafter
      exact hrest
  | error => exact afterPacket_of_steps hafter hrest
  | ok packet => exact afterPacket_of_steps hafter hrest

theorem closing_of_steps {fs : List CallStep} {a : Option Label}
    (hsteps : Prog.Steps (Prog.op (Op.mutexUnlock .txLock) fun _ =>
      Prog.op (Op.funcEnd .antTxMessage (.status tx.status)) fun _ =>
        Prog.ret (none : Option Label))
        fs (.ret a)) :
    Closing tx fs ∧ a = none := by
  obtain ⟨_, fs, rfl, hafter⟩ := Prog.steps_op_iff.mp hsteps
  obtain ⟨_, fs, rfl, hend⟩ := Prog.steps_op_iff.mp hafter
  obtain ⟨rfl, rfl⟩ := Prog.steps_ret_iff.mp hend
  refine ⟨⟨rfl, ?_⟩, rfl⟩
  exact List.forall_mem_cons.mpr ⟨⟨rfl, rfl⟩, List.forall_mem_singleton.mpr ⟨rfl, rfl⟩⟩

/-- A call that closes its socket returns its status, and does nothing else. -/
theorem callTrace_txClose (h : CallTrace (body b) (.txClose tx) es) : Closing tx es := by
  obtain ⟨fs, gs, a, rfl, hsteps, hrest⟩ := h.inv
  by_cases hsocket : 0 < tx.txSocket
  · simp only [body, txClose, antCloseTxTransport, if_pos hsocket, Prog.op_bind, Prog.ret_bind,
      Prog.pure_eq] at hsteps
    obtain ⟨_, fs, rfl, hafter⟩ := Prog.steps_op_iff.mp hsteps
    obtain ⟨hclosing, rfl⟩ := closing_of_steps hafter
    obtain rfl : gs = [] := hrest
    rw [List.append_nil]
    exact ⟨(returned_cons rfl).trans hclosing.returned, hclosing.silent.cons rfl rfl⟩
  · simp only [body, txClose, antCloseTxTransport, if_neg hsocket, Prog.op_bind, Prog.ret_bind,
      Prog.pure_eq] at hsteps
    obtain ⟨hclosing, rfl⟩ := closing_of_steps hsteps
    obtain rfl : gs = [] := hrest
    rwa [List.append_nil]

end trace

section discipline
variable {b : Build} {tx : Sending} {es : List CallStep}

theorem Closing.writing {tx' : Sending} (h : Closing tx' es) (hstatus : tx'.status ≠ .success)
    (hretries : tx.commandWriteFailRetries < maxRetriesWriteFail) : Writing b tx es where
  looping := h.looping hstatus hretries
  direct := h.silent.direct
  caused := fun cause => .inr (by rw [h.silent.resends_eq, h.silent.resends_eq])
  wrote := fun hreturned => absurd (Option.some.inj (h.returned.symm.trans hreturned)) hstatus

theorem Closing.waiting (h : Closing tx es) (hfresh : tx.Fresh) : Waiting b tx es :=
  ⟨h.looping hfresh.status hfresh.retries, h.silent.firstAnswered⟩

theorem Closing.cons {e : CallStep} (h : Closing tx es) (hreturned : e.returned? = none)
    (hwrite : e.isWrite = false) (hpacket : e.packet? = none) : Closing tx (e :: es) :=
  ⟨(returned_cons hreturned).trans h.returned, h.silent.cons hwrite hpacket⟩

theorem neutral_getCmdSocket (board : Board) (socket : Int) :
    Neutral board ⟨.getCmdSocket, socket⟩ :=
  ⟨rfl, rfl, by simp [CallStep.commandComplete?, CallStep.packet?], rfl⟩

theorem neutral_nanosleep (board : Board) : Neutral board ⟨.nanosleep, ()⟩ :=
  ⟨rfl, rfl, by simp [CallStep.commandComplete?, CallStep.packet?], rfl⟩

theorem neutral_time (board : Board) (now : Option Nat) : Neutral board ⟨.time, now⟩ :=
  ⟨rfl, rfl, by simp [CallStep.commandComplete?, CallStep.packet?], rfl⟩

theorem neutral_poll (board : Board) (fd : Int) (n : Outcome Nat) : Neutral board ⟨.poll fd, n⟩ :=
  ⟨rfl, rfl, by simp [CallStep.commandComplete?, CallStep.packet?], rfl⟩

/-- A step in front of an attempt to write. -/
theorem Writing.getCmdSocket (h : Writing b tx es) (socket : Int) :
    Writing b tx (⟨.getCmdSocket, socket⟩ :: es) where
  looping := h.looping.cons (neutral_getCmdSocket b.board socket)
  direct := h.direct.cons rfl
  caused := h.caused
  wrote := fun hreturned => by
    rw [returned_cons rfl] at hreturned
    obtain ⟨e, hmem, he⟩ := h.wrote hreturned
    exact ⟨e, List.mem_cons_of_mem _ hmem, he⟩

theorem Looping.writing {socket : Int} {out : Outcome Nat} (h : Looping b tx es)
    (hfirst : CallStep.wrote ⟨.writev socket (writeDataBytes b tx.pucMesg), out⟩ = true →
      FirstAnswered b.board es)
    (hwrote : returned es = some .success →
      CallStep.wrote ⟨.writev socket (writeDataBytes b tx.pucMesg), out⟩ = true ∨
        ∃ e ∈ es, e.wrote = true) :
    Writing b tx (⟨.writev socket (writeDataBytes b tx.pucMesg), out⟩ :: es) where
  looping := h.write hfirst
  direct := by
    intro mid x post hes hx hmid
    cases mid with
    | nil => exact fun y hy => absurd hy List.not_mem_nil
    | cons y mid =>
        cases hes
        exact Bool.noConfusion (hmid _ List.mem_cons_self)
  caused := fun cause => .inl rfl
  wrote := fun hreturned => by
    rw [returned_cons rfl] at hreturned
    obtain he | ⟨e, hmem, he⟩ := hwrote hreturned
    · exact ⟨_, List.mem_cons_self, he⟩
    · exact ⟨e, List.mem_cons_of_mem _ hmem, he⟩

theorem Looping.waiting {e : CallStep} (h : Looping b tx es) (hfirst : FirstAnswered b.board es)
    (he : Neutral b.board e) : Waiting b tx (e :: es) :=
  ⟨h.cons he, hfirst.cons he.isWrite⟩

/-- A packet that is no Command Complete. -/
theorem neutral_read {board : Board} {fd : Int} {r : Outcome (Nat × Memory)}
    (h : CallStep.commandComplete? board ⟨.read fd, r⟩ = none) : Neutral board ⟨.read fd, r⟩ :=
  ⟨rfl, rfl, by simp [h], by simp only [causeAfter, h, Option.map_none]⟩

/-- With the answer in front of it, the next write is answered for. -/
theorem Direct.firstAnswered {cc : CallStep} {result : UInt8} (h : Direct es)
    (hcc : cc.commandComplete? b.board = some result) (hresult : result ≠ 0)
    (hwrite : cc.isWrite = false) : FirstAnswered b.board (cc :: es) := by
  intro mid x post hes hx hmid
  cases mid with
  | nil =>
      cases hes
      rw [hwrite] at hx
      cases hx
  | cons y mid =>
      cases hes
      exact ⟨[], cc, mid, result, rfl, hcc, hresult,
        h mid x post rfl hx fun z hz => hmid z (List.mem_cons_of_mem _ hz)⟩

section packet
variable {tx' : Sending} {fd : Int} {r : Outcome (Nat × Memory)} {result : UInt8}

theorem Looping.packet (h : Looping b tx es) (cause : Option Resend)
    (hcc : CallStep.commandComplete? b.board ⟨.read fd, r⟩ ≠ some 0)
    (hcause : causeAfter b.board none ⟨.read fd, r⟩ = cause)
    (hfew : otherCauses (resends b.board cause es) + tx.commandWriteFailRetries <
      maxRetriesWriteFail)
    (htimely : Timely tx.endTime (resends b.board cause es)) :
    Looping b tx (⟨.read fd, r⟩ :: es) where
  success := by rw [returned_cons rfl, h.success, lastSuccess_other hcc]
  answered := answered_cons.mpr ⟨fun hwrote => Bool.noConfusion hwrote, h.answered⟩
  few := by
    change otherCauses (resends b.board (causeAfter b.board none ⟨.read fd, r⟩) es) + _ < _
    rwa [hcause]
  timely := by
    change Timely _ (resends b.board (causeAfter b.board none ⟨.read fd, r⟩) es)
    rwa [hcause]
  bytes := fun fd' bytes r' hmem => by
    obtain heq | hmem := List.mem_cons.mp hmem
    · cases heq
    · exact h.bytes fd' bytes r' hmem

theorem causeAfter_read
    (hcc : CallStep.commandComplete? b.board ⟨.read fd, r⟩ = some result) :
    causeAfter b.board none ⟨.read fd, r⟩ = some ⟨result, none⟩ := by
  simp only [causeAfter, hcc, Option.map_some]

/-- The last packet: the call returns a success exactly if the packet is one. -/
theorem Closing.packet (h : Closing tx' es) (hfresh : tx.Fresh)
    (hstatus : tx'.status = .success ↔
      CallStep.commandComplete? b.board ⟨.read fd, r⟩ = some 0) :
    Waiting b tx (⟨.read fd, r⟩ :: es) where
  looping := {
    success := by
      rw [returned_cons rfl, h.returned, Option.some.injEq, hstatus, lastSuccess_cons,
        and_iff_left h.silent, or_iff_left h.silent.not_lastSuccess]
    answered := answered_cons.mpr ⟨fun hwrote => Bool.noConfusion hwrote, h.silent.answered⟩
    few := by
      change otherCauses (resends b.board _ es) + _ < _
      rw [h.silent.resends_eq]
      exact (Nat.zero_add _).symm ▸ hfresh.retries
    timely := by
      change Timely _ (resends b.board _ es)
      rw [h.silent.resends_eq]
      exact fun x hx => absurd hx List.not_mem_nil
    bytes := fun fd' bytes r' hmem => by
      obtain heq | hmem := List.mem_cons.mp hmem
      · cases heq
      · exact Bool.noConfusion (h.silent _ hmem).1 }
  first := h.silent.firstAnswered.cons rfl

/-- A result other than HCI_UNSPECIFIED_ERROR uses up one retry. -/
theorem Writing.writeFailed (h : Writing b tx' es)
    (hcc : CallStep.commandComplete? b.board ⟨.read fd, r⟩ = some result) (hresult : result ≠ 0)
    (hother : result ≠ hciUnspecifiedError) (hmesg : tx'.pucMesg = tx.pucMesg)
    (htime : tx'.endTime = tx.endTime)
    (hretries : tx'.commandWriteFailRetries = tx.commandWriteFailRetries + 1) :
    Waiting b tx (⟨.read fd, r⟩ :: es) := by
  have hloop : Looping b tx es := h.looping.of_later hmesg htime (by omega)
  have hfew := h.looping.few
  refine ⟨hloop.packet _ ?_ (causeAfter_read hcc) ?_ ?_, h.direct.firstAnswered hcc hresult rfl⟩
  · rw [hcc]
    exact fun heq => hresult (Option.some.inj heq)
  · obtain hcaused | hcaused := h.caused (some ⟨result, none⟩)
    · rw [hcaused, otherCauses, Option.toList_some, List.singleton_append,
        List.countP_cons_of_pos (by simpa using hother)]
      simp only [otherCauses] at hfew
      omega
    · rw [hcaused]
      omega
  · obtain hcaused | hcaused := h.caused (some ⟨result, none⟩)
    · rw [hcaused, Option.toList_some, List.singleton_append]
      exact List.forall_mem_cons.mpr ⟨fun heq => absurd heq hother, hloop.timely⟩
    · rw [hcaused]
      exact hloop.timely

/-- HCI_UNSPECIFIED_ERROR costs no retry, but the clock has to be early. -/
theorem Writing.unspecified {clock : Nat} (h : Writing b tx' es)
    (hcc : CallStep.commandComplete? b.board ⟨.read fd, r⟩ = some hciUnspecifiedError)
    (hmesg : tx'.pucMesg = tx.pucMesg) (htime : tx'.endTime = tx.endTime)
    (hretries : tx'.commandWriteFailRetries = tx.commandWriteFailRetries)
    (hclock : clock < tx.endTime) :
    Waiting b tx (⟨.read fd, r⟩ :: ⟨.nanosleep, ()⟩ :: ⟨.time, some clock⟩ :: es) := by
  have hloop : Looping b tx es := h.looping.of_later hmesg htime (Nat.le_of_eq hretries.symm)
  have hfew := hloop.few
  have hcaused : resends b.board (some ⟨hciUnspecifiedError, some clock⟩) es =
      ⟨hciUnspecifiedError, some clock⟩ :: resends b.board none es ∨
        resends b.board (some ⟨hciUnspecifiedError, some clock⟩) es = resends b.board none es :=
    h.caused (some ⟨hciUnspecifiedError, some clock⟩)
  have hdirect : Direct (⟨.nanosleep, ()⟩ :: ⟨.time, some clock⟩ :: es) :=
    (h.direct.cons rfl).cons rfl
  have hgap := (hloop.cons (neutral_time b.board (some clock))).cons (neutral_nanosleep b.board)
  refine ⟨hgap.packet _ ?_ (causeAfter_read hcc) ?_ ?_,
    hdirect.firstAnswered hcc (by decide) rfl⟩
  · rw [hcc]
    decide
  · change otherCauses (resends b.board (some ⟨hciUnspecifiedError, some clock⟩) es) + _ < _
    obtain heq | heq := hcaused
    · rw [heq, otherCauses, List.countP_cons_of_neg (by simp)]
      exact hfew
    · rw [heq]
      exact hfew
  · change Timely _ (resends b.board (some ⟨hciUnspecifiedError, some clock⟩) es)
    obtain heq | heq := hcaused
    · rw [heq]
      exact List.forall_mem_cons.mpr ⟨fun _ => ⟨clock, rfl, hclock⟩, hloop.timely⟩
    · rw [heq]
      exact hloop.timely

end packet

/-- What is done behind a packet keeps to the discipline, if the rest does. -/
theorem disciplined_afterPacket {fd : Int} {len : Nat} {buf : Memory} (hfresh : tx.Fresh)
    (hrest : ∀ l fs, fs.length ≤ es.length → CallTrace (body b) l fs → Disciplined b l fs)
    (h : AfterPacket b { tx with status := commandCompleteStatus b.board buf len } es) :
    Waiting b tx (⟨.read fd, .ok (len, buf)⟩ :: es) := by
  have hclosing : ∀ {tx' : Sending} {fs : List CallStep}, fs.length ≤ es.length →
      CallTrace (body b) (.txClose tx') fs → Closing tx' fs := fun hle hc => hrest _ _ hle hc
  obtain ⟨hcc, hstatus⟩ | ⟨hcc, hstatus⟩ | ⟨result, hcc, hresult, hother, hstatus⟩ |
    ⟨hcc, hstatus⟩ := commandComplete_cases b.board fd len buf
  · simp only [AfterPacket, hstatus] at h
    exact (hclosing (Nat.le_refl _) h).packet hfresh (iff_of_true rfl hcc)
  · simp only [AfterPacket, hstatus] at h
    obtain ⟨now, fs, rfl, hclose | ⟨⟨clock, rfl, hclock⟩, hwrite⟩⟩ := h
    · have hrest' := hclosing (by simp only [List.length_cons]; omega) hclose
      have hgap := (hrest'.cons (e := ⟨.time, now⟩) rfl rfl rfl).cons
        (e := ⟨.nanosleep, ()⟩) rfl rfl rfl
      exact hgap.packet hfresh (iff_of_false (by simp) (by rw [hcc]; decide))
    · have hwriting : Writing b _ fs := hrest _ fs (by simp only [List.length_cons]; omega) hwrite
        ⟨by simp, hfresh.retries⟩
      exact hwriting.unspecified hcc rfl rfl rfl hclock
  · simp only [AfterPacket, hstatus] at h
    split at h
    · rename_i hmore
      have hwriting : Writing b _ es := hrest _ es (Nat.le_refl _) h ⟨by simp, hmore⟩
      exact hwriting.writeFailed hcc hresult hother rfl rfl rfl
    · refine (hclosing (Nat.le_refl _) h).packet hfresh (iff_of_false (by simp) ?_)
      rw [hcc]
      exact fun heq => hresult (Option.some.inj heq)
  · have hclose : ∀ tx' : Sending, tx'.status ≠ .success → CallTrace (body b) (.txClose tx') es →
        Waiting b tx (⟨.read fd, .ok (len, buf)⟩ :: es) := fun tx' hne hc =>
      (hclosing (Nat.le_refl _) hc).packet hfresh (iff_of_false hne (by rw [hcc]; simp))
    obtain hstatus | hstatus := hstatus
    · simp only [AfterPacket, hstatus] at h
      exact hclose _ (by simp) h
    · simp only [AfterPacket, hstatus] at h
      have hwaiting : Waiting b _ es := hrest _ es (Nat.le_refl _) h ⟨by simp, hfresh.retries⟩
      have hloop : Looping b tx es := hwaiting.looping.of_later rfl rfl (Nat.le_refl _)
      exact hloop.waiting hwaiting.first (neutral_read hcc)

/-- A write is answered first, or the call ends; one that has not gone out is
made again. -/
theorem disciplined_txWrite
    (hrest : ∀ l fs, fs.length < es.length → CallTrace (body b) l fs → Disciplined b l fs)
    (h : CallTrace (body b) (.txWrite tx) es) : Disciplined b (.txWrite tx) es := by
  intro hfresh
  have hclosing : ∀ fs : List CallStep,
      CallTrace (body b) (.txClose { tx with status := .failed }) fs →
        Closing { tx with status := .failed } fs := fun fs hc => callTrace_txClose hc
  obtain ⟨socket, fs, rfl, hclose | ⟨out, gs, rfl, hnext⟩⟩ := callTrace_txWrite h
  · exact ((hclosing fs hclose).writing (by simp) hfresh.retries).getCmdSocket socket
  · have hlt : gs.length < gs.length + 1 + 1 := by omega
    refine Writing.getCmdSocket ?_ socket
    obtain ⟨rfl, hagain⟩ | ⟨hfail, hclose⟩ | ⟨hwrote, hwait⟩ := hnext
    · have hwriting := hrest _ gs hlt hagain hfresh
      exact hwriting.looping.writing (fun hw => Bool.noConfusion hw)
        fun hreturned => .inr (hwriting.wrote hreturned)
    · have hwriting := (hclosing gs hclose).writing (b := b) (by simp) hfresh.retries
      exact hwriting.looping.writing (fun hw => by rw [hfail] at hw; cases hw)
        fun hreturned => .inr (hwriting.wrote hreturned)
    · have hwaiting := hrest _ gs hlt hwait hfresh
      exact hwaiting.looping.writing (fun _ => hwaiting.first) fun _ => .inl hwrote

theorem disciplined_txWait
    (hrest : ∀ l fs, fs.length < es.length → CallTrace (body b) l fs → Disciplined b l fs)
    (h : CallTrace (body b) (.txWait tx) es) : Disciplined b (.txWait tx) es := by
  intro hfresh
  obtain ⟨r, fs, rfl, hnext⟩ := callTrace_txWait h
  have hlt : fs.length < fs.length + 1 := Nat.lt_succ_self _
  have hwaiting : Waiting b tx fs := by
    obtain hwait | hclose | hread := hnext
    · exact hrest _ fs hlt hwait hfresh
    · exact (callTrace_txClose hclose).waiting hfresh
    · exact hrest _ fs hlt hread hfresh
  exact hwaiting.looping.waiting hwaiting.first (neutral_poll _ _ _)

theorem disciplined_txRead
    (hrest : ∀ l fs, fs.length < es.length → CallTrace (body b) l fs → Disciplined b l fs)
    (h : CallTrace (body b) (.txRead tx) es) : Disciplined b (.txRead tx) es := by
  intro hfresh
  obtain ⟨r, fs, rfl, hnext⟩ := callTrace_txRead h
  cases r with
  | again =>
      have hwaiting := hrest _ fs (Nat.lt_succ_self _) hnext hfresh
      exact hwaiting.looping.waiting hwaiting.first (neutral_read rfl)
  | error =>
      refine (callTrace_txClose hnext).packet hfresh (iff_of_false (by simp) ?_)
      simp [CallStep.commandComplete?, CallStep.packet?]
  | ok packet =>
      exact disciplined_afterPacket hfresh
        (fun l gs hgs hc => hrest l gs (Nat.lt_succ_of_le hgs) hc) hnext

/-- The discipline holds from every label of the loop on, by induction on the
steps that are left. -/
theorem callTrace_disciplined (l : Label) (es : List CallStep) (h : CallTrace (body b) l es) :
    Disciplined b l es := by
  induction hn : es.length using Nat.strongRecOn generalizing l es with
  | _ n ih =>
      subst hn
      have hrest : ∀ l fs, fs.length < es.length → CallTrace (body b) l fs → Disciplined b l fs :=
        fun l fs hlt hc => ih _ hlt l fs hc rfl
      cases l with
      | txWrite tx => exact disciplined_txWrite hrest h
      | txWait tx => exact disciplined_txWait hrest h
      | txRead tx => exact disciplined_txRead hrest h
      | txClose tx => exact callTrace_txClose h
      | _ => trivial

end discipline

section begin
variable {b : Build} {tx : Sending} {es : List CallStep}

/-- The first reading of the clock is the last thing before the loop. -/
def firstClock (es : List CallStep) : Option (Option Nat) :=
  es.findSome? fun e => match e with
    | ⟨.time, now⟩ => some now
    | _ => none

/-- The operations that have nothing to do with the loop. -/
def outsideLoop : Op → Bool
  | .writev _ _ | .read _ | .poll _ | .time | .funcEnd .antTxMessage _ => false
  | _ => true

theorem returned_outsideLoop {e : CallStep} (h : outsideLoop e.1 = true) :
    e.returned? = none := by
  obtain ⟨o, r⟩ := e
  cases o with
  | funcEnd f ret => cases f <;> first | rfl | cases h
  | _ => rfl

theorem neutral_outsideLoop (board : Board) {e : CallStep} (h : outsideLoop e.1 = true) :
    Neutral board e := by
  obtain ⟨o, r⟩ := e
  have hpacket : CallStep.packet? ⟨o, r⟩ = none := by
    cases o <;> first | rfl | cases h
  refine ⟨returned_outsideLoop h, ?_, by simp [CallStep.commandComplete?, hpacket], ?_⟩
  · cases o <;> first | rfl | cases h
  · cases o <;> first | rfl | cases h

theorem firstClock_cons {e : CallStep} (h : ∀ now, e ≠ ⟨.time, now⟩) :
    firstClock (e :: es) = firstClock es := by
  obtain ⟨o, r⟩ := e
  cases o with
  | time => exact absurd rfl (h r)
  | _ => rfl

theorem firstClock_append {fs : List CallStep} (h : ∀ e ∈ fs, outsideLoop e.1 = true) :
    firstClock (fs ++ es) = firstClock es := by
  induction fs with
  | nil => rfl
  | cons e fs ih =>
      obtain ⟨he, hfs⟩ := List.forall_mem_cons.mp h
      refine (firstClock_cons fun now heq => ?_).trans (ih hfs)
      rw [heq] at he
      cases he

theorem Looping.append {fs : List CallStep} (h : Looping b tx es)
    (hfs : ∀ e ∈ fs, outsideLoop e.1 = true) : Looping b tx (fs ++ es) := by
  induction fs with
  | nil => exact h
  | cons e fs ih =>
      obtain ⟨he, hfs⟩ := List.forall_mem_cons.mp hfs
      exact (ih hfs).cons (neutral_outsideLoop b.board he)

/-- Such an operation is none of the loop's. -/
def IsOutside (o : Op) : Prop := outsideLoop o = true

theorem only_getAndSetRadioStatus :
    (getAndSetRadioStatus b).Only IsOutside fun _ => True := by
  have hreport : reportRadioStatus.Only IsOutside fun _ => True := by
    simp [reportRadioStatus, IsOutside, outsideLoop]
  have hrefresh : (withPowerLibrary b refreshRadioStatus).Only IsOutside fun _ => True := by
    refine Prog.only_ite.mpr ⟨fun _ => ?_, fun _ => trivial⟩
    simp [refreshRadioStatus, IsOutside, outsideLoop] at hreport ⊢
    exact fun _ _ _ => hreport
  refine (Prog.only_op _ _).mpr ⟨rfl, fun _ => hrefresh.bind fun _ _ => ?_⟩
  simp [IsOutside, outsideLoop]

theorem only_antOpenTxTransport :
    antOpenTxTransport.Only IsOutside fun _ => True := by
  simp [antOpenTxTransport, IsOutside, outsideLoop]

/-- The call gives up before its loop. -/
structure Refused (es : List CallStep) : Prop where
  clock : firstClock es = none
  returned : returned es ≠ some .success
  isWrite : ∀ e ∈ es, e.isWrite = false

theorem isWrite_outsideLoop {e : CallStep} (h : outsideLoop e.1 = true) : e.isWrite = false := by
  obtain ⟨o, r⟩ := e
  cases o <;> first | rfl | cases h

theorem returned_append {fs : List CallStep} (h : ∀ e ∈ fs, outsideLoop e.1 = true) :
    returned (fs ++ es) = returned es := by
  induction fs with
  | nil => rfl
  | cons e fs ih =>
      obtain ⟨he, hfs⟩ := List.forall_mem_cons.mp h
      exact (returned_cons (returned_outsideLoop he)).trans (ih hfs)

theorem Refused.append {fs : List CallStep} (h : Refused es)
    (hfs : ∀ e ∈ fs, outsideLoop e.1 = true) : Refused (fs ++ es) where
  clock := (firstClock_append hfs).trans h.clock
  returned := by
    rw [returned_append hfs]
    exact h.returned
  isWrite := List.forall_mem_append.mpr ⟨fun e he => isWrite_outsideLoop (hfs e he), h.isWrite⟩

/-- The last steps of a call that gives up before its loop. -/
theorem refused_unlock {status : AntStatus} (h : status ≠ .success) :
    Refused [⟨.mutexUnlock .txLock, ()⟩, ⟨.funcEnd .antTxMessage (.status status), ()⟩] := by
  refine ⟨rfl, fun heq => h (Option.some.inj heq), ?_⟩
  simp [CallStep.isWrite]

theorem steps_unlock {status : AntStatus} {a : Option Label} (hstatus : status ≠ .success)
    (h : Prog.Steps (do
      mutexUnlock .txLock
      funcEnd .antTxMessage (.status status)
      return none : Cmd (Option Label)) es (.ret a)) : a = none ∧ Refused es := by
  obtain ⟨_, fs, rfl, hafter⟩ := Prog.steps_op_iff.mp h
  obtain ⟨_, gs, rfl, hend⟩ := Prog.steps_op_iff.mp hafter
  obtain ⟨rfl, rfl⟩ := Prog.steps_ret_iff.mp hend
  exact ⟨rfl, refused_unlock hstatus⟩

/-- Before the loop the call gives up, or it reads the clock last. -/
theorem steps_beginSending {pucMesg : List UInt8} {status : RadioStatus} {a : Option Label}
    (h : (beginSending pucMesg status).Steps es (.ret a)) :
    a = none ∧ Refused es ∨
      ∃ fs startTime txSocket, es = fs ++ [⟨.time, startTime⟩] ∧
        (∀ e ∈ fs, outsideLoop e.1 = true) ∧
        a = some (.txWrite ⟨pucMesg, txSocket, txEndTime startTime, 0, .failed⟩) := by
  unfold beginSending at h
  split at h
  · exact .inl (steps_unlock (by simp) h)
  · obtain ⟨fs, gs, txSocket, rfl, hopen, hafter⟩ := Prog.steps_bind_iff.mp h
    have hfs : ∀ e ∈ fs, outsideLoop e.1 = true := (only_antOpenTxTransport.steps hopen).1
    split at hafter
    · obtain ⟨rfl, hrefused⟩ := steps_unlock (by simp) hafter
      exact .inl ⟨rfl, hrefused.append hfs⟩
    · obtain ⟨startTime, gs, rfl, hend⟩ := Prog.steps_op_iff.mp hafter
      obtain ⟨rfl, rfl⟩ := Prog.steps_ret_iff.mp hend
      exact .inr ⟨fs, startTime, txSocket, rfl, hfs, rfl⟩

/-- A whole call gives up before its loop, or reads the clock and enters it. -/
theorem callTrace_txMessage {pucMesg : List UInt8}
    (h : CallTrace (body b) (.txMessage pucMesg) es) :
    Refused es ∨
      ∃ fs startTime txSocket gs, es = fs ++ ⟨.time, startTime⟩ :: gs ∧
        (∀ e ∈ fs, outsideLoop e.1 = true) ∧
        CallTrace (body b)
          (.txWrite ⟨pucMesg, txSocket, txEndTime startTime, 0, .failed⟩) gs := by
  obtain ⟨fs, gs, a, rfl, hsteps, hrest⟩ := h.inv
  simp only [body, antTxMessage, Prog.op_bind, Prog.ret_bind, Prog.pure_eq] at hsteps
  obtain ⟨_, fs, rfl, hlock⟩ := Prog.steps_op_iff.mp hsteps
  obtain ⟨lockResult, fs, rfl, hafter⟩ := Prog.steps_op_iff.mp hlock
  split at hafter
  · obtain ⟨_, fs, rfl, hend⟩ := Prog.steps_op_iff.mp hafter
    obtain ⟨rfl, rfl⟩ := Prog.steps_ret_iff.mp hend
    obtain rfl : gs = [] := hrest
    refine .inl ⟨rfl, ?_, by simp [CallStep.isWrite]⟩
    exact fun heq => AntStatus.noConfusion (Option.some.inj heq)
  · obtain ⟨fs, fs', status, rfl, hstatus, hbegin⟩ := Prog.steps_bind_iff.mp hafter
    have hfs : ∀ e ∈ (⟨.funcStart .antTxMessage, ()⟩ : CallStep) ::
        ⟨.mutexLock .txLock, lockResult⟩ :: fs, outsideLoop e.1 = true :=
      List.forall_mem_cons.mpr ⟨rfl, List.forall_mem_cons.mpr
        ⟨rfl, (only_getAndSetRadioStatus.steps hstatus).1⟩⟩
    obtain ⟨rfl, hrefused⟩ | ⟨ks, startTime, txSocket, rfl, hks, rfl⟩ := steps_beginSending hbegin
    · obtain rfl : gs = [] := hrest
      rw [List.append_nil]
      exact .inl (hrefused.append hfs)
    · refine .inr ⟨_ :: _ :: fs ++ ks, startTime, txSocket, gs, ?_,
        List.forall_mem_append.mpr ⟨hfs, hks⟩, hrest⟩
      simp only [List.cons_append, List.append_assoc, List.nil_append]

end begin

section success
variable (b : Build) (pucMesg : List UInt8)

theorem commandCompleteStatus_packet (board : Board) :
    commandCompleteStatus board (commandCompletePacket board 0) 7 = .success := by
  cases board <;> rfl

/-- The status of an enabled radio. -/
def enabledSteps : List CallStep :=
  ⟨.funcStart .getAndSetRadioStatus, ()⟩ ::
    (if b.useExternalPowerLibrary then
      [⟨.getRadioStatus, RadioStatus.enabled⟩, ⟨.antIsEnabled, (1 : Int)⟩,
        ⟨.setRadioStatus .enabled, ()⟩, ⟨.getRadioStatus, RadioStatus.enabled⟩]
    else []) ++ [⟨.returnRadioStatus, RadioStatus.enabled⟩]

/-- The steps of a call whose message is written once and answered by a success. -/
def successTrace : List CallStep :=
  ⟨.funcStart .antTxMessage, ()⟩ :: ⟨.mutexLock .txLock, (0 : Int)⟩ :: enabledSteps b ++
    [⟨.createHciSock, (3 : Int)⟩, ⟨.setCmdSocket 3, ()⟩, ⟨.setsockopt 3, (0 : Int)⟩,
      ⟨.time, some 0⟩, ⟨.getCmdSocket, (3 : Int)⟩,
      ⟨.writev 3 (writeDataBytes b pucMesg), .ok (writeDataBytes b pucMesg).length⟩,
      ⟨.poll 3, .ok 1⟩, ⟨.read 3, .ok (7, commandCompletePacket b.board 0)⟩, ⟨.close 3, ()⟩,
      ⟨.mutexUnlock .txLock, ()⟩, ⟨.funcEnd .antTxMessage (.status .success), ()⟩]

theorem steps_enabled :
    (getAndSetRadioStatus b).Steps (enabledSteps b) (.ret .enabled) := by
  obtain ⟨board, useExternalPowerLibrary⟩ := b
  cases useExternalPowerLibrary with
  | false => exact .head (.head (.refl _))
  | true => exact .head (.head (.head (.head (.head (.head (.refl _))))))

/-- The steps of the sending. -/
theorem steps_begin :
    (body b (.txMessage pucMesg)).Steps
      (⟨.funcStart .antTxMessage, ()⟩ :: ⟨.mutexLock .txLock, (0 : Int)⟩ :: enabledSteps b ++
        [⟨.createHciSock, (3 : Int)⟩, ⟨.setCmdSocket 3, ()⟩, ⟨.setsockopt 3, (0 : Int)⟩,
          ⟨.time, some 0⟩])
      (.ret (some (.txWrite ⟨pucMesg, 3, txEndTime (some 0), 0, .failed⟩))) := by
  simp only [body, antTxMessage, Prog.op_bind, Prog.ret_bind]
  refine .head (.head (Prog.steps_bind_iff.mpr ⟨_, _, _, rfl, steps_enabled b, ?_⟩))
  exact .head (.head (.head (.head (.refl _))))

theorem steps_write (tx : Sending) :
    (body b (.txWrite tx)).Steps
      [⟨.getCmdSocket, (3 : Int)⟩,
        ⟨.writev 3 (writeDataBytes b tx.pucMesg), .ok (writeDataBytes b tx.pucMesg).length⟩]
      (.ret (some (.txWait tx))) := by
  simp only [body, txWrite, Prog.op_bind, Prog.ret_bind]
  refine .head (.head ?_)
  simp only [Nat.lt_irrefl, if_false]
  exact .refl _

theorem steps_wait (tx : Sending) :
    (body b (.txWait tx)).Steps [⟨.poll tx.txSocket, .ok 1⟩] (.ret (some (.txRead tx))) :=
  .head (.refl _)

theorem steps_read (tx : Sending) :
    (body b (.txRead tx)).Steps [⟨.read tx.txSocket, .ok (7, commandCompletePacket b.board 0)⟩]
      (.ret (some (.txClose { tx with status := .success }))) := by
  have hpacket : commandCompleteStatus b.board (commandCompletePacket b.board 0) (7 : Nat) =
      .success := commandCompleteStatus_packet b.board
  refine .head ?_
  change (handleCommandComplete _).Steps [] _
  rw [hpacket]
  exact .refl _

theorem successTrace_callTrace :
    CallTrace (body b) (.txMessage pucMesg) (successTrace b pucMesg) := by
  let tx : Sending := ⟨pucMesg, 3, txEndTime (some 0), 0, .failed⟩
  have hclose : CallTrace (body b) (.txClose { tx with status := .success })
      [⟨.close 3, ()⟩, ⟨.mutexUnlock .txLock, ()⟩,
        ⟨.funcEnd .antTxMessage (.status .success), ()⟩] :=
    .last (.head (.head (.head (.refl _))))
  have hread := CallTrace.next (steps_read b tx) hclose
  have hwait := CallTrace.next (steps_wait b tx) hread
  have hwrite := CallTrace.next (steps_write b tx) hwait
  have hbegin := CallTrace.next (steps_begin b pucMesg) hwrite
  rw [List.append_assoc] at hbegin
  exact hbegin

theorem outsideLoop_enabledSteps : ∀ e ∈ enabledSteps b, outsideLoop e.1 = true :=
  (only_getAndSetRadioStatus.steps (steps_enabled b)).1

theorem firstClock_successTrace : firstClock (successTrace b pucMesg) = some (some 0) := by
  simp only [successTrace, List.cons_append]
  exact firstClock_append (outsideLoop_enabledSteps b)

theorem returned_successTrace : returned (successTrace b pucMesg) = some .success := by
  simp only [successTrace, List.cons_append]
  exact returned_append (outsideLoop_enabledSteps b)

end success

section property
variable {b : Build} {es : List CallStep}

/-- A resend comes less than ten seconds after the start, by a clock that worked. -/
def Resend.InTime (startTime : Option Nat) (r : Resend) : Prop :=
  ∃ start now, startTime = some start ∧ r.clock = some now ∧ now < start + maxRetryTimeSecs

theorem Timely.inTime {startTime : Option Nat} {rs : List Resend}
    (h : Timely (txEndTime startTime) rs) {r : Resend} (hr : r ∈ rs)
    (hresult : r.result = hciUnspecifiedError) : r.InTime startTime := by
  obtain ⟨now, hclock, hearly⟩ := h r hr hresult
  cases startTime with
  | none => exact absurd hearly (Nat.not_lt_zero now)
  | some start => exact ⟨start, now, rfl, hclock, hearly⟩

/-- The rest of a call that has entered its loop. -/
theorem writing_begin {pucMesg : List UInt8} {txSocket : Int} {endTime : Nat}
    (h : CallTrace (body b) (.txWrite ⟨pucMesg, txSocket, endTime, 0, .failed⟩) es) :
    Writing b ⟨pucMesg, txSocket, endTime, 0, .failed⟩ es :=
  callTrace_disciplined _ es h ⟨by simp, Nat.zero_lt_succ 9⟩

/-- The discipline of a whole call that reaches the loop. -/
theorem looping_txMessage {pucMesg : List UInt8} {startTime : Option Nat}
    (h : CallTrace (body b) (.txMessage pucMesg) es) (hstart : firstClock es = some startTime) :
    ∃ txSocket, Looping b ⟨pucMesg, txSocket, txEndTime startTime, 0, .failed⟩ es := by
  obtain hrefused | ⟨fs, startTime', txSocket, gs, rfl, hfs, hloop⟩ := callTrace_txMessage h
  · rw [hrefused.clock] at hstart
    cases hstart
  · have hclock : firstClock (fs ++ ⟨.time, startTime'⟩ :: gs) = some startTime' :=
      firstClock_append hfs
    obtain rfl : startTime' = startTime := Option.some.inj (hclock.symm.trans hstart)
    have hrest := (writing_begin hloop).looping.cons (neutral_time b.board startTime')
    exact ⟨txSocket, hrest.append hfs⟩

/-- What a call keeps to that has read the clock at `startTime` and entered its loop. -/
structure Retries (b : Build) (pucMesg : List UInt8) (startTime : Option Nat)
    (es : List CallStep) : Prop where
  success : returned es = some .success ↔ LastSuccess b.board es
  answered : Answered b.board es
  few : otherCauses (resends b.board none es) ≤ 9
  timely : ∀ r ∈ resends b.board none es, r.result = hciUnspecifiedError → r.InTime startTime
  bytes : ∀ fd bytes r, ⟨.writev fd bytes, r⟩ ∈ es → bytes = writeDataBytes b pucMesg

theorem Looping.retries {pucMesg : List UInt8} {txSocket : Int} {startTime : Option Nat}
    (h : Looping b ⟨pucMesg, txSocket, txEndTime startTime, 0, .failed⟩ es) :
    Retries b pucMesg startTime es :=
  ⟨h.success, h.answered, Nat.le_of_lt_succ h.few, fun _ hr hresult => h.timely.inTime hr hresult,
    h.bytes⟩

/-- Whatever the writes, the waits, the packets and the clock are: a call that
reaches its loop returns a success exactly if the last packet was one and no write
followed; it writes a message again only for a Command Complete with another result,
at most nine times if the result is not HCI_UNSPECIFIED_ERROR, and otherwise within
ten seconds; and what it writes is always the message. -/
theorem antTxMessage_retries (b : Build) (pucMesg : List UInt8) (es : List CallStep)
    (h : CallTrace (body b) (.txMessage pucMesg) es) (startTime : Option Nat)
    (hstart : firstClock es = some startTime) :
    (returned es = some .success ↔ LastSuccess b.board es) ∧
      Answered b.board es ∧
      otherCauses (resends b.board none es) ≤ 9 ∧
      (∀ r ∈ resends b.board none es, r.result = hciUnspecifiedError → r.InTime startTime) ∧
      ∀ fd bytes r, ⟨.writev fd bytes, r⟩ ∈ es → bytes = writeDataBytes b pucMesg := by
  obtain ⟨txSocket, hloop⟩ := looping_txMessage h hstart
  obtain ⟨hsuccess, hanswered, hfew, htimely, hbytes⟩ := hloop.retries
  exact ⟨hsuccess, hanswered, hfew, htimely, hbytes⟩

theorem antTxMessage_retries_success :
    let b : Build := ⟨.wl12xx, true⟩
    let es := successTrace b [1, 2]
    CallTrace (body b) (.txMessage [1, 2]) es ∧ firstClock es = some (some 0) ∧
      (returned es = some .success ↔ LastSuccess b.board es) ∧
      Answered b.board es ∧
      otherCauses (resends b.board none es) ≤ 9 ∧
      (∀ r ∈ resends b.board none es, r.result = hciUnspecifiedError → r.InTime (some 0)) ∧
      ∀ fd bytes r, ⟨.writev fd bytes, r⟩ ∈ es → bytes = writeDataBytes b [1, 2] :=
  have h := successTrace_callTrace ⟨.wl12xx, true⟩ [1, 2]
  have hstart := firstClock_successTrace ⟨.wl12xx, true⟩ [1, 2]
  ⟨h, hstart, antTxMessage_retries _ _ _ h _ hstart⟩

/-- In a run of all threads, whatever the others do, a call keeps to the same. -/
theorem antTxMessage_retries_run {pucMesg : List UInt8} {c d : ThreadConfig} {t : Tid}
    {l : Label} (hrun : (machine b).ThreadRun t c es d)
    (hbegin : c.pool t = some ⟨.txMessage pucMesg, body b (.txMessage pucMesg)⟩)
    (hend : d.pool t = some ⟨l, .ret none⟩) {startTime : Option Nat}
    (hstart : firstClock es = some startTime) : Retries b pucMesg startTime es := by
  obtain ⟨txSocket, hloop⟩ := looping_txMessage (hrun.callTrace hbegin hend) hstart
  exact hloop.retries

end property

end AntHal.Bluez
