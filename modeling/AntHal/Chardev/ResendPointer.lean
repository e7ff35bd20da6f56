import AntHal.Chardev.Resend

/-!
Whose buffer is sent again?

pucResendMessage points into the stack of a call. The call has to withdraw it
before it returns, and so it does when the wait times out. On its other ways out
it does not.
-/

namespace AntHal

open Concurrency

section property

/-- A registered message is that of a send that has not returned, and so is one
that the receive thread is about to write. -/
structure SenderWaits (s : ResendShared) : Prop where
  registered : 0 < s.info.ucResendMessageLength →
    ∃ n, s.pucResendMessage = some n ∧ s.returned n = none
  resend : ∀ n, s.pucTxMessage = some n → s.returned n = none

/-- A registered message leaves its send by the timeout only, and no send returns
while the receive thread is about to read or write its buffer. -/
def withdraws (d : HciDefines) (env : ResendEnv) (s : ResendShared) : ResendOp → Bool
  | .write n ucMessageLength => decide (env.write = ucMessageLength.toNat) || !s.registered n
  | .getFlowControlResp n =>
    decide (s.info.ucFlowControlResp ≠ d.flowGo) || !s.registered n
  | .condWake n =>
    decide (env.iCondWaitResult = 0 ∨ env.iCondWaitResult = etimedout) || !s.registered n
  | .returnStatus n _ =>
    !(s.resending && decide (s.pucResendMessage = some n)) && decide (s.pucTxMessage ≠ some n)
  | _ => true

def withdrawn (d : HciDefines) (c : ResendConfig) : Move ResendLabel FlowTid ResendEnv → Bool
  | .start _ _ => true
  | .act t env => ((c.pool t).bind Thread.head?).all (withdraws d env c.shared)

end property

/-- What a thread knows of the message that is registered. -/
inductive Sender where
  | entering
  /-- In a call; if it is not listed, the registered message is not its own. -/
  | sending (n : Nat) (listed : Bool)
  | returned
  /-- The receive thread; it may have found a message to send again. -/
  | receiving (found : Bool)

namespace Sender

def permits : Sender → ResendOp → Prop
  | .entering, o => o = .beginCall
  | .sending n listed, o => match o with
    | .mutexLock | .mutexUnlock | .storeFlowControlResp _ => True
    | .storeResend m _ | .write m _ | .getFlowControlResp m | .condTimedwait m | .condWake m
    | .clearResend m => m = n
    | .returnStatus m _ => m = n ∧ listed = false
    | _ => False
  | .returned, _ => False
  | .receiving found, o => match o with
    | .mutexLock | .mutexUnlock | .storeFlowControlResp _ | .nextPacket | .checkResend
    | .getResendMessageLength | .resend _ _ => True
    | .getResendMessage => found = true
    | _ => False

def next (d : HciDefines) (v : Sender) : (o : ResendOp) → o.Res → Sender
  | .beginCall, n => .sending n false
  | .storeResend n _, _ => .sending n true
  | .write n len, r => if r = len.toNat then v else .sending n false
  | .getFlowControlResp n, r => if r = d.flowGo then .sending n false else v
  | .condWake n, r => if r = 0 ∨ r = etimedout then v else .sending n false
  | .clearResend n, _ => .sending n false
  | .returnStatus _ _, _ => .returned
  | .checkResend, more => .receiving more
  | .getResendMessage, _ => .receiving false
  | _, _ => v

def enters (d : HciDefines) : ResendLabel → Sender → Prop
  | .send _, v => v = .entering
  | .waiting n, v => ∃ listed, v = .sending n listed ∧ (listed = true → d.flowResend = true)
  | .receive, v => v = .receiving false

def Owns (s : ResendShared) (t : FlowTid) : Sender → Prop
  | .sending n listed =>
    s.calls[n]? = some t ∧ s.returned n = none ∧ (listed = false → s.registered n = false)
  | .receiving found => t = .receiver ∧ (found = true → s.resending = true)
  | .entering | .returned => True

end Sender

/-- The calls that have not begun have left nothing behind. -/
structure Numbered (s : ResendShared) : Prop where
  pointer : ∀ n, s.pucResendMessage = some n → n < s.calls.length
  returned : ∀ n, s.calls.length ≤ n → s.returned n = none

section owns
variable {d : HciDefines} {s : ResendShared} {t u : FlowTid} {v w : Sender} {env : ResendEnv}
  {o : ResendOp}

namespace ResendShared

theorem registered_eq_false {n : Nat} :
    s.registered n = false ↔ s.pucResendMessage = some n → s.info.ucResendMessageLength = 0 := by
  simp [registered, UInt8.pos_iff_ne_zero]

theorem setResend_registered {n m : Nat} (h : m ≠ n) (len : UInt8) :
    (s.setResend len (some n)).registered m = false := by
  rw [registered_eq_false]
  intro heq
  exact absurd (Option.some.inj heq).symm h

theorem setResend_zero (n : Nat) (puc : Option Nat) : (s.setResend 0 puc).registered n = false :=
  registered_eq_false.mpr fun _ => rfl

end ResendShared

/-- What an operation of another thread has to leave. -/
theorem Sender.Owns.kept {s' : ResendShared} (h : w.Owns s u)
    (hcalls : ∀ n : Nat, s.calls[n]? = some u → s'.calls[n]? = some u)
    (hreturned : ∀ n : Nat, s.calls[n]? = some u → s'.returned n = s.returned n)
    (hregistered : ∀ n : Nat, s.calls[n]? = some u →
      s.registered n = false → s'.registered n = false)
    (hresending : u = .receiver → s.resending = true → s'.resending = true) : w.Owns s' u := by
  cases w with
  | entering | returned => trivial
  | receiving found => exact ⟨h.1, fun hfound => hresending h.1 (h.2 hfound)⟩
  | sending n listed =>
      obtain ⟨hcall, hnone, hlisted⟩ := h
      exact ⟨hcalls n hcall, (hreturned n hcall).trans hnone,
        fun hl => hregistered n hcall (hlisted hl)⟩

theorem Sender.Owns.ite {c : Prop} [Decidable c] (hv : c → v.Owns s t) (hw : ¬ c → w.Owns s t) :
    (if c then v else w).Owns s t := by
  split
  · exact hv ‹_›
  · exact hw ‹_›

theorem ne_of_calls {n m : Nat} (hn : s.calls[n]? = some t) (hm : s.calls[m]? = some u)
    (htu : u ≠ t) : m ≠ n := by
  rintro rfl
  exact htu (Option.some.inj (hm.symm.trans hn))

/-- An operation of another thread leaves a call its number, and registers no
message for it. -/
theorem sender_frame (ht : v.Owns s t) (hpermits : v.permits o) (htu : u ≠ t)
    (h : w.Owns s u) : w.Owns (resendEffect t env o s).2 u := by
  cases o with
  | beginCall =>
      refine h.kept (fun n hn => ?_) (fun _ _ => rfl) (fun _ _ hr => hr) fun _ hr => hr
      obtain ⟨hlt, -⟩ := List.getElem?_eq_some_iff.mp hn
      exact (List.getElem?_append_left hlt).trans hn
  | mutexLock =>
      refine h.kept (fun _ hn => ?_) (fun _ _ => ?_) (fun _ _ hr => ?_) fun _ hr => ?_
      all_goals
        simp only [resendEffect]
        split <;> first | exact hn | exact hr | rfl
  | storeResend n len =>
      cases v with
      | sending m listed =>
          obtain rfl : n = m := hpermits
          exact h.kept (fun _ hn => hn) (fun _ _ => rfl)
            (fun k hk _ => ResendShared.setResend_registered (ne_of_calls ht.1 hk htu) len)
            fun _ hr => hr
      | _ => cases hpermits
  | clearResend n =>
      exact h.kept (fun _ hn => hn) (fun _ _ => rfl)
        (fun k _ _ => ResendShared.setResend_zero k none) fun _ hr => hr
  | returnStatus n status =>
      cases v with
      | sending m listed =>
          obtain rfl : n = m := hpermits.1
          exact h.kept (fun _ hn => hn)
            (fun k hk => Function.update_of_ne (ne_of_calls ht.1 hk htu) _ _)
            (fun _ _ hr => hr) fun _ hr => hr
      | _ => cases hpermits
  | checkResend | getResendMessage =>
      cases v with
      | receiving found =>
          exact h.kept (fun _ hn => hn) (fun _ _ => rfl) (fun _ _ hr => hr)
            fun hu => absurd (hu.trans ht.1.symm) htu
      | _ => cases hpermits
  | _ => exact h.kept (fun _ hn => hn) (fun _ _ => rfl) (fun _ _ hr => hr) fun _ hr => hr

theorem Numbered.registered (h : Numbered s) : s.registered s.calls.length = false := by
  refine ResendShared.registered_eq_false.mpr fun heq => ?_
  exact absurd (h.pointer _ heq) (Nat.lt_irrefl _)

/-- In an allowed step a thread knows what its operation tells it. -/
theorem sender_self (h : v.Owns s t) (hpermits : v.permits o) (hnumbered : Numbered s)
    (hwithdraws : withdraws d env s o = true) :
    (v.next d o (resendEffect t env o s).1).Owns (resendEffect t env o s).2 t := by
  cases v with
  | entering =>
      obtain rfl : o = .beginCall := hpermits
      refine ⟨?_, hnumbered.returned _ (Nat.le_refl _), fun _ => hnumbered.registered⟩
      exact List.getElem?_concat_length
  | returned => cases hpermits
  | receiving found =>
      cases o with
      | checkResend => exact ⟨h.1, fun hmore => hmore⟩
      | getResendMessage => exact ⟨h.1, fun hfound => Bool.noConfusion hfound⟩
      | mutexLock =>
          refine ⟨h.1, fun hfound => ?_⟩
          simp only [resendEffect]
          split <;> exact h.2 hfound
      | mutexUnlock | storeFlowControlResp | nextPacket | getResendMessageLength | resend =>
          exact h
      | _ => cases hpermits
  | sending n listed =>
      obtain ⟨hcall, hnone, hlisted⟩ := h
      cases o with
      | mutexLock =>
          simp only [resendEffect]
          split <;> exact ⟨hcall, hnone, hlisted⟩
      | mutexUnlock | storeFlowControlResp | condTimedwait => exact ⟨hcall, hnone, hlisted⟩
      | storeResend m len =>
          obtain rfl : m = n := hpermits
          exact ⟨hcall, hnone, fun hl => Bool.noConfusion hl⟩
      | clearResend m =>
          obtain rfl : m = n := hpermits
          exact ⟨hcall, hnone, fun _ => ResendShared.setResend_zero m none⟩
      | write m len =>
          obtain rfl : m = n := hpermits
          simp only [withdraws, Bool.or_eq_true, decide_eq_true_eq, Bool.not_eq_true'] at hwithdraws
          exact Sender.Owns.ite (fun _ => ⟨hcall, hnone, hlisted⟩)
            fun hshort => ⟨hcall, hnone, fun _ => hwithdraws.resolve_left hshort⟩
      | getFlowControlResp m =>
          obtain rfl : m = n := hpermits
          simp only [withdraws, Bool.or_eq_true, decide_eq_true_eq, Bool.not_eq_true'] at hwithdraws
          exact Sender.Owns.ite
            (fun hgo => ⟨hcall, hnone, fun _ => hwithdraws.resolve_left (not_not.mpr hgo)⟩)
            fun _ => ⟨hcall, hnone, hlisted⟩
      | condWake m =>
          obtain rfl : m = n := hpermits
          simp only [withdraws, Bool.or_eq_true, decide_eq_true_eq, Bool.not_eq_true'] at hwithdraws
          exact Sender.Owns.ite (fun _ => ⟨hcall, hnone, hlisted⟩)
            fun herror => ⟨hcall, hnone, fun _ => hwithdraws.resolve_left herror⟩
      | returnStatus m status => trivial
      | _ => cases hpermits

end owns

section programs
variable {d : HciDefines} {n : Nat} {listed : Bool}

def sender (d : HciDefines) : Typestate (resendMachine d) Sender where
  permits := Sender.permits
  next := Sender.next d
  enters := Sender.enters d
  owns := Sender.Owns
  allow _ env o s := Numbered s ∧ withdraws d env s o = true
  entry := by
    intro t l hentry s
    cases t with
    | clock => cases l <;> cases hentry
    | sender k =>
        cases l with
        | send len => exact ⟨.entering, rfl, trivial⟩
        | _ => cases hentry
    | receiver =>
        cases l with
        | receive => exact ⟨.receiving false, rfl, rfl, fun hfound => Bool.noConfusion hfound⟩
        | _ => cases hentry
  spawn := by
    intro o r s u l hspawn
    cases hspawn
  self := by
    intro env pool t o s v howns hpermits _ hallow
    exact sender_self howns hpermits hallow.1 hallow.2
  frame := by
    intro env pool t o s v u w howns hpermits _ _ htu hother
    exact sender_frame howns hpermits htu hother

theorem done_none (v : Sender) : (sender d).Done none v := by
  intro l hl
  cases hl

theorem done_some {l : ResendLabel} {v : Sender} (h : Sender.enters d l v) :
    (sender d).Done (some l) v := by
  intro l' hl
  cases hl
  exact h

theorem sat_leaveSend (status : AntStatus) :
    (sender d).Sat (sender d).Done (.sending n false) (leaveSend n status) :=
  ⟨trivial, fun _ => ⟨⟨rfl, rfl⟩, fun _ => done_none _⟩⟩

theorem sat_testResp (hlisted : listed = true → d.flowResend = true) :
    (sender d).Sat (sender d).Done (.sending n listed) (testResp d n) := by
  refine ⟨rfl, fun ucFlowControlResp => ?_⟩
  change (sender d).Sat _ (if ucFlowControlResp = d.flowGo then _ else _)
    (if ucFlowControlResp ≠ d.flowGo then _ else _)
  by_cases hgo : ucFlowControlResp = d.flowGo
  · rw [if_pos hgo, if_neg (not_not.mpr hgo)]
    exact sat_leaveSend .success
  · rw [if_neg hgo, if_pos hgo]
    exact ⟨rfl, fun _ => done_some ⟨listed, rfl, hlisted⟩⟩

theorem sat_write (len : UInt8) (hlisted : listed = true → d.flowResend = true) :
    (sender d).Sat (sender d).Done (.sending n listed)
      (.op (.write n len) fun iResult =>
        if iResult < 0 then leaveSend n .failed
        else if iResult ≠ len.toNat then leaveSend n .failed
        else testResp d n) := by
  refine ⟨rfl, fun (iResult : Int) => ?_⟩
  change (sender d).Sat _ (if iResult = (len.toNat : Int) then _ else _)
    (if iResult < 0 then _ else if iResult ≠ (len.toNat : Int) then _ else _)
  by_cases hwhole : iResult = (len.toNat : Int)
  · rw [if_pos hwhole, if_neg (by omega), if_neg (not_not.mpr hwhole)]
    exact sat_testResp hlisted
  · rw [if_neg hwhole, if_pos hwhole, ite_self]
    exact sat_leaveSend .failed

theorem sat_sendSection (len : UInt8) :
    (sender d).Sat (sender d).Done (.sending n false) (sendSection d n len) := by
  refine ⟨trivial, fun (iMutexResult : Nat) => ?_⟩
  change (sender d).Sat _ _ (if iMutexResult ≠ 0 then _ else _)
  split
  · exact ⟨⟨rfl, rfl⟩, fun _ => done_none _⟩
  · refine ⟨trivial, fun _ => ?_⟩
    cases hresend : d.flowResend with
    | false =>
        simp only [ifFlowResend, hresend, Bool.false_eq_true, if_false]
        exact sat_write len fun hlisted => Bool.noConfusion hlisted
    | true =>
        simp only [ifFlowResend, hresend, if_true]
        exact ⟨rfl, fun _ => sat_write len fun _ => hresend⟩

theorem sat_resumeSection (hlisted : listed = true → d.flowResend = true) :
    (sender d).Sat (sender d).Done (.sending n listed) (resumeSection d n) := by
  refine ⟨rfl, fun (iCondWaitResult : Int) => ?_⟩
  change (sender d).Sat _ (if iCondWaitResult = 0 ∨ iCondWaitResult = etimedout then _ else _)
    (if iCondWaitResult ≠ 0 then if iCondWaitResult = etimedout then _ else _ else _)
  by_cases hzero : iCondWaitResult = 0
  · rw [if_pos (.inl hzero), if_neg (not_not.mpr hzero)]
    exact sat_testResp hlisted
  · rw [if_pos hzero]
    by_cases htimeout : iCondWaitResult = etimedout
    · rw [if_pos (.inr htimeout), if_pos htimeout]
      cases hresend : d.flowResend with
      | false =>
          have hunlisted : listed = false :=
            Bool.eq_false_iff.mpr fun hl => by simp [hlisted hl] at hresend
          simp only [ifFlowResend, hresend, Bool.false_eq_true, if_false, hunlisted]
          exact sat_leaveSend .hardwareErr
      | true =>
          simp only [ifFlowResend, hresend, if_true]
          exact ⟨rfl, fun _ => sat_leaveSend .hardwareErr⟩
    · rw [if_neg htimeout, if_neg (not_or.mpr ⟨hzero, htimeout⟩)]
      exact sat_leaveSend .failed

theorem sat_storeSetting (ucFlowSetting : UInt8) :
    (sender d).Sat (sender d).Done (.receiving false) (storeSetting ucFlowSetting) := by
  refine ⟨trivial, fun (iMutexResult : Nat) => ?_⟩
  change (sender d).Sat _ _ (if iMutexResult ≠ 0 then _ else _)
  split
  · exact done_none _
  · exact ⟨trivial, fun _ => ⟨trivial, fun _ => done_some rfl⟩⟩

theorem sat_resendLast :
    (sender d).Sat (sender d).Done (.receiving false) resendLast := by
  refine ⟨trivial, fun more => ?_⟩
  cases more with
  | false => exact done_some rfl
  | true => exact ⟨trivial, fun _ => ⟨rfl, fun _ => ⟨trivial, fun _ => done_some rfl⟩⟩⟩

theorem sender_checked (d : HciDefines) : (sender d).Checked := by
  intro l v hv
  cases l with
  | send len =>
      obtain rfl := hv
      exact ⟨rfl, fun _ => sat_sendSection len⟩
  | waiting n =>
      obtain ⟨listed, rfl, hlisted⟩ := hv
      exact sat_resumeSection hlisted
  | receive =>
      obtain rfl := hv
      refine ⟨trivial, fun packet => ?_⟩
      cases packet with
      | commandComplete => exact sat_storeSetting d.flowGo
      | flowControl ucFlowSetting => exact sat_storeSetting ucFlowSetting
      | other => exact done_some rfl
      | flowOn =>
          change (sender d).Sat _ _ (if d.opcode.isSome ∧ d.flowResend then _ else _)
          split
          · exact sat_resendLast
          · exact done_some rfl

end programs

section invariant
variable {d : HciDefines} {s : ResendShared} {t : FlowTid} {v : Sender} {env : ResendEnv}
  {o : ResendOp}

/-- What every allowed step keeps of the channel. -/
structure Pointed (s : ResendShared) : Prop where
  numbered : Numbered s
  waits : SenderWaits s
  resending : s.resending = true → ∀ n, s.pucResendMessage = some n → s.returned n = none

/-- An operation that leaves alone what the invariant is about. -/
theorem Pointed.kept {s' : ResendShared} (h : Pointed s)
    (hlength : s'.info.ucResendMessageLength = s.info.ucResendMessageLength)
    (hpuc : s'.pucResendMessage = s.pucResendMessage) (hcalls : s.calls.length ≤ s'.calls.length)
    (hreturned : s'.returned = s.returned)
    (hresending : s'.resending = s.resending) (htx : s'.pucTxMessage = s.pucTxMessage) :
    Pointed s' := by
  refine ⟨⟨fun n hn => ?_, fun n hn => ?_⟩, ⟨fun hlen => ?_, fun n hn => ?_⟩, fun hr n hn => ?_⟩
  · exact Nat.lt_of_lt_of_le (h.numbered.pointer n (hpuc ▸ hn)) hcalls
  · rw [hreturned]
    exact h.numbered.returned n (Nat.le_trans hcalls hn)
  · rw [hpuc, hreturned]
    exact h.waits.registered (hlength ▸ hlen)
  · rw [hreturned]
    exact h.waits.resend n (htx ▸ hn)
  · rw [hreturned]
    exact h.resending (hresending ▸ hr) n (hpuc ▸ hn)

theorem Pointed.storeResend {n : Nat} (h : Pointed s) (hcall : s.calls[n]? = some t)
    (hnone : s.returned n = none) (len : UInt8) : Pointed (s.setResend len (some n)) := by
  have hself : ∀ m, some n = some m → m = n := fun m heq => (Option.some.inj heq).symm
  refine ⟨⟨fun m hm => ?_, h.numbered.returned⟩, ⟨fun _ => ⟨n, rfl, hnone⟩, h.waits.resend⟩,
    fun _ m hm => ?_⟩
  · rw [hself m hm]
    exact (List.getElem?_eq_some_iff.mp hcall).1
  · rw [hself m hm]
    exact hnone

theorem Pointed.clearResend (h : Pointed s) : Pointed (s.setResend 0 none) where
  numbered := ⟨fun n hn => absurd hn.symm (Option.some_ne_none n), h.numbered.returned⟩
  waits := ⟨fun hlen => absurd hlen (Nat.lt_irrefl 0), h.waits.resend⟩
  resending := fun _ n hn => absurd hn.symm (Option.some_ne_none n)

/-- A call returns whose message is not registered, and whose buffer the receive
thread does not use. -/
theorem Pointed.returnStatus {n : Nat} {status : AntStatus} (h : Pointed s)
    (hcall : s.calls[n]? = some t) (hunlisted : s.registered n = false)
    (hpuc : s.resending = true → s.pucResendMessage ≠ some n) (htx : s.pucTxMessage ≠ some n) :
    Pointed { s with returned := Function.update s.returned n (some status) } := by
  have hlt : n < s.calls.length := (List.getElem?_eq_some_iff.mp hcall).1
  have hother : ∀ m, m ≠ n → Function.update s.returned n (some status) m = s.returned m :=
    fun m hm => Function.update_of_ne hm _ _
  refine ⟨⟨h.numbered.pointer, fun m hm => ?_⟩, ⟨fun hlen => ?_, fun m hm => ?_⟩,
    fun hr m hm => ?_⟩
  · refine (hother m ?_).trans (h.numbered.returned m hm)
    exact Nat.ne_of_gt (Nat.lt_of_lt_of_le hlt hm)
  · obtain ⟨m, hm, hnone⟩ := h.waits.registered hlen
    refine ⟨m, hm, (hother m ?_).trans hnone⟩
    rintro rfl
    rw [ResendShared.registered_eq_false.mp hunlisted hm] at hlen
    exact absurd hlen (by decide)
  · refine (hother m ?_).trans (h.waits.resend m hm)
    rintro rfl
    exact htx hm
  · refine (hother m ?_).trans (h.resending hr m hm)
    rintro rfl
    exact hpuc hr hm

theorem pointed_effect (h : Pointed s) (howns : v.Owns s t) (hpermits : v.permits o)
    (hwithdraws : withdraws d env s o = true) : Pointed (resendEffect t env o s).2 := by
  cases o with
  | beginCall => exact h.kept rfl rfl (by simp [resendEffect]) rfl rfl rfl
  | mutexLock =>
      simp only [resendEffect]
      split
      · exact h.kept rfl rfl (Nat.le_refl _) rfl rfl rfl
      · exact h
  | storeResend n len =>
      cases v with
      | sending m listed =>
          obtain rfl : n = m := hpermits
          exact h.storeResend howns.1 howns.2.1 len
      | _ => cases hpermits
  | clearResend n => exact h.clearResend
  | returnStatus n status =>
      cases v with
      | sending m listed =>
          obtain ⟨rfl, rfl⟩ := hpermits
          simp only [withdraws, Bool.and_eq_true, Bool.not_eq_true', Bool.and_eq_false_iff,
            decide_eq_false_iff_not, decide_eq_true_eq] at hwithdraws
          refine h.returnStatus howns.1 (howns.2.2 rfl) (fun hr => ?_) hwithdraws.2
          exact hwithdraws.1.resolve_left (ne_false_of_eq_true hr)
      | _ => cases hpermits
  | checkResend =>
      refine ⟨⟨h.numbered.pointer, h.numbered.returned⟩, ⟨h.waits.registered, h.waits.resend⟩,
        fun hr n hn => ?_⟩
      obtain ⟨m, hm, hnone⟩ := h.waits.registered (of_decide_eq_true hr)
      cases hn.symm.trans hm
      exact hnone
  | getResendMessage =>
      cases v with
      | receiving found =>
          exact ⟨⟨h.numbered.pointer, h.numbered.returned⟩,
            ⟨h.waits.registered, h.resending (howns.2 hpermits)⟩, fun hr => Bool.noConfusion hr⟩
      | _ => cases hpermits
  | resend len puc =>
      exact ⟨⟨h.numbered.pointer, h.numbered.returned⟩,
        ⟨h.waits.registered, fun n hn => absurd hn.symm (Option.some_ne_none n)⟩, h.resending⟩
  | _ => exact h.kept rfl rfl (Nat.le_refl _) rfl rfl rfl

end invariant

section runs
variable {d : HciDefines} {info : AntChannelInfo} {c c' : ResendConfig}
  {mv : Move ResendLabel FlowTid ResendEnv}

theorem pointed_init : Pointed (.init info) where
  numbered := ⟨fun n hn => absurd hn.symm (Option.some_ne_none n), fun _ _ => rfl⟩
  waits := ⟨fun hlen => absurd hlen (Nat.lt_irrefl 0),
    fun n hn => absurd hn.symm (Option.some_ne_none n)⟩
  resending := fun hr => Bool.noConfusion hr

/-- What the threads know and what holds of the channel carry each other. -/
theorem pointed_step (h : Pointed c.shared ∧ (sender d).Holds c) (hC : withdrawn d c mv = true)
    (hs : (resendMachine d).step mv c = some c') : Pointed c'.shared ∧ (sender d).Holds c' := by
  have hallowed : (sender d).Allowed c mv := by
    cases mv with
    | start t l => trivial
    | act t env =>
        intro o ho
        rw [withdrawn, ho] at hC
        exact ⟨h.1.numbered, hC⟩
  refine ⟨?_, Typestate.holds_step (sender_checked d) h.2 hallowed hs⟩
  cases mv with
  | start t l =>
      obtain ⟨-, -, rfl⟩ := Machine.step_start hs
      exact h.1
  | act t env =>
      obtain ⟨l, o, k, ha⟩ := Machine.step_act hs
      obtain ⟨v, howns, hpermits⟩ := h.2.permitted ha.thread
      rw [ha.shared]
      refine pointed_effect h.1 howns hpermits (hallowed o ?_).2
      rw [ha.thread]
      rfl

/-- While a registered message leaves its call by the timeout only, and no call
returns under the eyes of the receive thread, the sender of a message that may be
sent again is still waiting. -/
theorem resend_sender_waits (d : HciDefines) (info : AntChannelInfo) (c : ResendConfig)
    (h : (resendMachine d).Path (fun x mv => withdrawn d x mv = true) (resendInit info) c) :
    SenderWaits c.shared := by
  have hholds : Pointed c.shared ∧ (sender d).Holds c := by
    refine h.invariant (fun x mv y hx hC hs => pointed_step hx hC hs) ⟨pointed_init, ?_⟩
    intro t th hth
    cases hth
  exact hholds.1.waits

/-- A driver with opcodes and ANT_FLOW_RESEND. -/
def resendDefines : HciDefines :=
  { HciDefines.shipped with opcode := some ⟨0x0E, 0x0F, 0x10, 0x11⟩, flowResend := true }

/-- A send writes a message of five bytes and waits. -/
def sendingFive : List (Move ResendLabel FlowTid ResendEnv) :=
  .start (.sender 0) (.send 5) :: List.replicate 4 (.act (.sender 0) {}) ++
    .act (.sender 0) { write := 5 } :: List.replicate 2 (.act (.sender 0) {})

def resendsFirst (c : ResendConfig) : Bool :=
  decide (0 < c.shared.info.ucResendMessageLength) && decide (c.shared.pucTxMessage = some 0)

/-- The receive thread is about to send it again, and its sender is waiting. -/
theorem resend_sender_waits_flowOn :
    ∃ c : ResendConfig, resendsFirst c = true ∧ SenderWaits c.shared := by
  obtain ⟨c, hpath, hc⟩ := Machine.exec_any (resendMachine resendDefines)
    (withdrawn resendDefines)
    (sendingFive ++ [.start .receiver .receive, .act .receiver { packet := .flowOn },
      .act .receiver {}, .act .receiver {}, .act .receiver {}])
    (resendInit ⟨0, true, 0, 0⟩) resendsFirst (by decide)
  exact ⟨c, hc, resend_sender_waits resendDefines _ c hpath⟩

/-- After a GO the message stays registered, although its sender has returned. -/
theorem resend_sender_returned :
    ¬ ∀ (d : HciDefines) (info : AntChannelInfo) (c : ResendConfig),
      d.flowResend = true → d.opcode.isSome = true →
        (resendMachine d).Reachable (resendInit info) c → SenderWaits c.shared := by
  intro hall
  obtain ⟨c, hpath, hc⟩ := Machine.exec_any (resendMachine resendDefines) (fun _ _ => true)
    (sendingFive ++ [.start .receiver .receive, .act .receiver { packet := .commandComplete },
      .act .receiver {}, .act .receiver {}, .act .receiver {}] ++
      List.replicate 4 (.act (.sender 0) {}))
    (resendInit ⟨0, true, 0, 0⟩)
    (fun c => decide (0 < c.shared.info.ucResendMessageLength) &&
      decide (c.shared.pucResendMessage = some 0) &&
      decide (c.shared.returned 0 = some .success)) (by decide)
  simp only [Bool.and_eq_true, decide_eq_true_eq] at hc
  obtain ⟨⟨hlen, hpuc⟩, hreturned⟩ := hc
  obtain ⟨n, hn, hnone⟩ := (hall resendDefines _ c rfl rfl hpath.reachable).registered hlen
  cases hpuc.symm.trans hn
  cases hreturned.symm.trans hnone

end runs
end AntHal
