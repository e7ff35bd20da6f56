import Mathlib.Logic.Function.Basic

/-!
Types, threads and byte utilities shared by the back ends: ant_types.h and
ant_utils.c.
-/

namespace AntHal

/-- The values of ANTRadioEnabledStatus that a back end produces. -/
inductive RadioStatus where
  | unknown
  | enabling
  | enabled
  | disabling
  | disabled
  | resetting
  | reset
  deriving DecidableEq, Repr

/-- The values of ANTStatus that a back end returns. -/
inductive AntStatus where
  | success
  | failed
  | notSupported
  | transportInitErr
  | hardwareErr
  | commandWriteFailed
  | failedBtNotInitialized
  | transportUnspecifiedError
  | notDeInitialized
  | noValueAvailable
  | internalError
  deriving DecidableEq, Repr

/-- A thread of the application, or the receive thread with a given handle. -/
inductive Tid where
  | app (n : Nat)
  | rx (h : Nat)
  deriving DecidableEq

/-- EBUSY, the answer of pthread_mutex_trylock on a held mutex. -/
def ebusy : Int := 16

/-- Bytes in memory, seen from a pointer. -/
abbrev Memory := Nat → UInt8

/-- ANT_UTILS_StoreLE16 at an address. -/
def storeLE16 (buff : Memory) (at' : Nat) (leValue : UInt16) : Memory :=
  Function.update (Function.update buff (at' + 1) (leValue >>> 8).toUInt8) at' leValue.toUInt8

/-- ANT_UTILS_LEtoHost16 at an address. -/
def leToHost16 (num : Memory) (at' : Nat) : UInt16 :=
  (num (at' + 1)).toUInt16 <<< 8 ||| (num at').toUInt16

def memcpy (dst : Memory) (at' : Nat) (src : Memory) (n : Nat) : Memory :=
  fun i => if at' ≤ i ∧ i < at' + n then src (i - at') else dst i

end AntHal
