import AntHal.Concurrency.Obligation
import AntHal.Chardev.Operations
import AntHal.Chardev.Radio

/-!
RADIO_STATUS_RESETTING means that a reset is under way.

The flag behind it is written without the state lock, by `doReset` and by
`ant_radio_hard_reset`, of which any number may run at a time. Whoever raises it
lowers it on every path of its program, so that while it is up some thread still
has the lowering ahead of it; that thread may have to wait, in a deadlock for good.
-/

namespace AntHal

open Concurrency

/-- ucChipResetting, raised and lowered by the two resets. -/
def resetFlag (b : Build) : Flag (machine b) where
  raised := Shared.ucChipResetting
  raises o := o = .setChipResetting true
  lowers o := o = .setChipResetting false
  within l := l = .hardReset ∨ l = .doReset
  effect t env o s h := by
    cases o with
    | setChipResetting v =>
        cases v with
        | false => cases h
        | true => exact .inl rfl
    | mutexTrylock | openDevice | keepAliveCreate | eventfdWrite | pthreadCreate =>
        simp only [machine, effect] at h
        split at h <;> exact .inr ⟨h, by simp⟩
    | _ => exact .inr ⟨h, by simp⟩

section programs
variable {b : Build} {α : Type} {l : Label}

theorem call_ne_raise {o : Op} (h : callOp o = true) : o ≠ .setChipResetting true := by
  rintro rfl
  cases h

theorem loop_ne_raise {o : Op} (h : loopOp o = true) : o ≠ .setChipResetting true := by
  rintro rfl
  cases h

/-- A block that does not raise the flag owes nothing. -/
theorem raising_of_only {p : Cmd (Option Label)} {P : Op → Prop} {Q : Option Label → Prop}
    (h : p.Only P Q) (hP : ∀ o, P o → o ≠ .setChipResetting true) :
    p.Always ((resetFlag b).Raising l) :=
  h.always fun o _ ho hraise => absurd hraise (hP o ho)

/-- Sections before the rest of a block. -/
theorem raising_bind {p : Cmd α} {f : α → Cmd (Option Label)}
    (h : p.Only (sectionOp · = true) fun _ => True)
    (hf : ∀ a, (f a).Always ((resetFlag b).Raising l)) :
    (p >>= f).Always ((resetFlag b).Raising l) :=
  h.always_bind (fun _ _ ho hraise => absurd hraise (call_ne_raise (call_of_section ho)))
    fun a _ => hf a

theorem raising_op {o : Op} {k : o.Res → Cmd (Option Label)} (ho : o ≠ .setChipResetting true)
    (hk : ∀ r, (k r).Always ((resetFlag b).Raising l)) :
    (Prog.op o k : Cmd (Option Label)).Always ((resetFlag b).Raising l) :=
  ⟨fun hraise => absurd hraise ho, hk⟩

/-- Both ends of a hard reset lower the flag. -/
theorem hardResetLocked_raising {f : AntStatus → Cmd (Option Label)}
    (hf : ∀ status, (f status).Always ((resetFlag b).Raising .hardReset)) :
    (hardResetLocked b >>= f).Always ((resetFlag b).Raising .hardReset) := by
  simp only [hardResetLocked, Prog.op_bind, Prog.ret_bind, Prog.bind_assoc]
  refine ⟨fun _ _ => ⟨.inl rfl, ?_⟩, fun _ => raising_bind (report_section _) fun _ =>
    raising_op (by simp) fun _ => raising_bind antDisable_section fun _ =>
      raising_bind antEnable_section fun ret => ?_⟩
  · refine .bind_right _ fun _ => .inr fun _ => .bind_right _ fun _ => .bind_right _ fun ret =>
      .bind_left ?_ _
    split
    all_goals exact .bind_right _ fun _ => .inl rfl
  · split
    all_goals
      simp only [Prog.bind_assoc, Prog.op_bind]
      exact raising_bind (report_section _) fun _ => raising_op (by simp) fun _ => hf _

theorem hardReset_raising :
    (body b .hardReset).Always ((resetFlag b).Raising .hardReset) := by
  simp only [body, antRadioHardReset, Prog.op_bind, Prog.ret_bind, Prog.pure_eq]
  refine raising_op (by simp) fun _ => ?_
  split
  · exact raising_op (by simp) fun _ => trivial
  · refine raising_op (by simp) fun lock => ?_
    dsimp only
    split
    · exact raising_op (by simp) fun _ => trivial
    · change Prog.Always _ ((hardResetLocked b >>= _) >>= _)
      rw [Prog.bind_assoc]
      exact hardResetLocked_raising fun status => raising_op (by simp) fun _ =>
        raising_op (by simp) fun _ => trivial

theorem doResetLocked_passes (lock : Int) :
    (doResetLocked b lock).Passes fun o => o = .setChipResetting false := by
  unfold doResetLocked
  split
  · exact .inr fun _ => .inl rfl
  · refine .inr fun _ => Prog.Passes.bind_right (antDisable b) fun _ =>
      Prog.Passes.bind_right (antEnable b) fun _ => ?_
    exact .inl rfl

theorem doResetLocked_ne_raise (lock : Int) :
    (doResetLocked b lock).Only (· ≠ .setChipResetting true) fun _ => True := by
  have hsection {α : Type} {p : Cmd α} (h : p.Only (sectionOp · = true) fun _ => True) :
      p.Only (· ≠ .setChipResetting true) fun _ => True :=
    h.mono (fun _ ho => call_ne_raise (call_of_section ho)) fun _ h => h
  refine Prog.only_ite.mpr ⟨fun _ => by simp, fun _ => (Prog.only_op _ _).mpr
    ⟨by simp, fun _ => ?_⟩⟩
  refine (hsection antDisable_section).bind fun _ _ => (hsection antEnable_section).bind fun _ _ =>
    (Prog.only_op _ _).mpr ⟨by simp, fun _ => (hsection (report_section _)).bind fun _ _ => ?_⟩
  simp

/-- `doReset` lowers the flag, with the lock or without it. -/
theorem doReset_raising : (body b .doReset).Always ((resetFlag b).Raising .doReset) := by
  simp only [body, doReset, Prog.op_bind, Prog.ret_bind, Prog.pure_eq, Prog.bind_assoc]
  refine raising_op (by simp) fun _ => ⟨fun _ _ => ⟨.inr rfl, ?_⟩, fun _ => ?_⟩
  · exact .bind_right _ fun _ => .inr fun _ => .inr fun lock =>
      .bind_left (doResetLocked_passes lock) _
  · refine raising_bind (report_section _) fun _ => raising_op (by simp) fun _ =>
      raising_op (by simp) fun lock => ?_
    refine (doResetLocked_ne_raise lock).always_bind (fun o _ ho hraise => absurd hraise ho)
      fun _ _ => ?_
    exact raising_op (by simp) fun _ => raising_op (by simp) fun _ => trivial

theorem body_raising (l : Label) : ((machine b).body l).Always ((resetFlag b).Raising l) := by
  cases l with
  | enableRadio =>
      exact raising_of_only (Q := fun _ => True) (antEnableRadio_calls.bind fun _ _ => trivial)
        fun _ => call_ne_raise
  | disableRadio =>
      exact raising_of_only (Q := fun _ => True) (antDisableRadio_calls.bind fun _ _ => trivial)
        fun _ => call_ne_raise
  | hardReset => exact hardReset_raising
  | rxStart => exact raising_of_only rxStart_loops fun _ => loop_ne_raise
  | rxLoop => exact raising_of_only rxLoop_loops fun _ => loop_ne_raise
  | rxClose => exact raising_of_only rxClose_calls fun _ ho => call_ne_raise ho.1
  | doReset => exact doReset_raising

end programs

section runs
variable {b : Build} {stateCallback rxCallback : Bool} {c : ThreadConfig}

/-- RESETTING stands for the flag, and for nothing else. -/
theorem radioEnabledStatus_resetting_iff (s : Shared) :
    radioEnabledStatus b s = .resetting ↔ s.ucChipResetting = true := by
  have hcompute (n : Nat) (thread run : Bool) : computeStatus b n thread run ≠ .resetting := by
    unfold computeStatus
    repeat' split
    all_goals simp
  rw [radioEnabledStatus_eq, Radio.status]
  change (if s.ucChipResetting = true then _ else _) = _ ↔ _
  split
  · rename_i hflag
    exact iff_of_true rfl hflag
  · rename_i hflag
    exact iff_of_false (hcompute _ _ _) hflag

/-- While the status is RESETTING some thread is inside a reset, and on every
path ahead of it it lowers the flag. -/
theorem resetting_ends (hreach : (machine b).Reachable (initConfig stateCallback rxCallback) c)
    (hstatus : radioEnabledStatus b c.shared = .resetting) :
    ∃ t th, c.pool t = some th ∧ (th.label = .hardReset ∨ th.label = .doReset) ∧
      th.code.Passes fun o => o = .setChipResetting false := by
  have hholds : (resetFlag b).Holds c :=
    Flag.holds_reachable body_raising rfl (fun _ => rfl) hreach
  obtain ⟨t, th, hth, hlabel, hpasses⟩ :=
    hholds.owed ((radioEnabledStatus_resetting_iff _).mp hstatus)
  exact ⟨t, th, hth, hlabel, hpasses⟩

/-- The receive thread resets after a failing poll. -/
def resettingPolled : List (Move Label Tid Env) :=
  enabling ++ List.replicate 12 (.act (.rx 1) { poll := ⟨-1, fun _ => 0, 0⟩ })

theorem resetting_ends_polled : ∃ c : ThreadConfig,
    radioEnabledStatus .smd c.shared = .resetting ∧
      ∃ t th, c.pool t = some th ∧ (th.label = .hardReset ∨ th.label = .doReset) ∧
        th.code.Passes fun o => o = .setChipResetting false := by
  obtain ⟨c, hpath, hc⟩ := Machine.exec_any (machine .smd) (fun _ _ => true) resettingPolled
    (initConfig true true) (fun c => decide (radioEnabledStatus .smd c.shared = .resetting))
    (by decide)
  have hstatus := of_decide_eq_true hc
  exact ⟨c, hstatus, resetting_ends hpath.reachable hstatus⟩

end runs
end AntHal
