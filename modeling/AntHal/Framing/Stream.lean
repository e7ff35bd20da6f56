import Mathlib.Data.List.Basic

/-!
Byte streams made of frames that announce their own length.

A format fixes the size of a header and the length of the frame that the header
announces. A stream is decomposed from its start into complete frames and an
incomplete rest. The decomposition is the only one of its kind, and a receiver
that keeps the rest between two chunks finds the same frames however the stream
is cut.
-/

namespace Framing

/-- Frames over the symbols `β`. The length is read from the header alone. -/
structure Format (β : Type) where
  header : Nat
  /-- The whole length of the frame that starts here. -/
  length : List β → Nat
  header_pos : 0 < header
  header_le : ∀ xs, header ≤ length xs
  length_append : ∀ xs ys, header ≤ xs.length → length (xs ++ ys) = length xs

namespace Format

variable {β : Type} (F : Format β)

/-- The stream starts with a frame that has fully arrived. -/
def Complete (xs : List β) : Prop := F.length xs ≤ xs.length

instance : DecidablePred F.Complete := fun _ => inferInstanceAs (Decidable (_ ≤ _))

/-- A list that is one frame, no more and no less. -/
def IsFrame (f : List β) : Prop := F.length f = f.length

theorem length_pos (xs : List β) : 0 < F.length xs :=
  Nat.lt_of_lt_of_le F.header_pos (F.header_le xs)

theorem IsFrame.complete {F : Format β} {f : List β} (h : F.IsFrame f) : F.Complete f :=
  Nat.le_of_eq h

theorem Complete.header_le {F : Format β} {xs : List β} (h : F.Complete xs) :
    F.header ≤ xs.length :=
  Nat.le_trans (F.header_le xs) h

theorem Complete.length_append {F : Format β} {xs : List β} (h : F.Complete xs)
    (ys : List β) : F.length (xs ++ ys) = F.length xs :=
  F.length_append xs ys h.header_le

theorem Complete.append {F : Format β} {xs : List β} (h : F.Complete xs) (ys : List β) :
    F.Complete (xs ++ ys) := by
  unfold Complete
  rw [h.length_append ys, List.length_append]
  exact Nat.le_trans h (Nat.le_add_right _ _)

theorem not_complete_nil : ¬ F.Complete [] :=
  Nat.not_le.mpr (F.length_pos [])

/-- The decomposition, by recursion on a bound of the stream's length. -/
def decodeAux : Nat → List β → List (List β) × List β
  | 0, xs => ([], xs)
  | n + 1, xs =>
    if F.Complete xs then
      let r := decodeAux n (xs.drop (F.length xs))
      (xs.take (F.length xs) :: r.1, r.2)
    else ([], xs)

/-- The complete frames of a stream, in order. -/
def frames (xs : List β) : List (List β) := (F.decodeAux xs.length xs).1

/-- What follows the last complete frame. -/
def rest (xs : List β) : List β := (F.decodeAux xs.length xs).2

private theorem decodeAux_fuel (n : Nat) (xs : List β) (h : xs.length ≤ n) :
    F.decodeAux n xs = F.decodeAux xs.length xs := by
  induction n using Nat.strongRecOn generalizing xs with
  | ind n ih =>
      cases n with
      | zero =>
          have : xs = [] := List.eq_nil_of_length_eq_zero (Nat.le_zero.mp h)
          subst this
          rfl
      | succ n =>
          cases hlen : xs.length with
          | zero =>
              have : xs = [] := List.eq_nil_of_length_eq_zero hlen
              subst this
              simp [decodeAux, F.not_complete_nil]
          | succ k =>
              simp only [decodeAux]
              split
              · have hpos := F.length_pos xs
                have hdrop : (xs.drop (F.length xs)).length ≤ k := by
                  rw [List.length_drop]
                  omega
                rw [ih n (Nat.lt_succ_self n) _ (by omega), ih k (by omega) _ hdrop]
              · rfl

theorem frames_of_complete {F : Format β} {xs : List β} (h : F.Complete xs) :
    F.frames xs = xs.take (F.length xs) :: F.frames (xs.drop (F.length xs)) ∧
      F.rest xs = F.rest (xs.drop (F.length xs)) := by
  have hpos := F.length_pos xs
  have hlen : (xs.drop (F.length xs)).length ≤ xs.length - 1 := by
    rw [List.length_drop]
    omega
  have hcons : xs.length = (xs.length - 1) + 1 := by
    unfold Complete at h
    omega
  unfold frames rest
  rw [hcons]
  simp only [decodeAux, h, if_true]
  rw [F.decodeAux_fuel _ _ hlen]
  exact ⟨rfl, rfl⟩

theorem frames_of_incomplete {F : Format β} {xs : List β} (h : ¬ F.Complete xs) :
    F.frames xs = [] ∧ F.rest xs = xs := by
  unfold frames rest
  cases xs.length with
  | zero => exact ⟨rfl, rfl⟩
  | succ n => simp [decodeAux, h]

/-- Induction along the frames of a stream. -/
theorem induct {P : List β → Prop} (incomplete : ∀ xs, ¬ F.Complete xs → P xs)
    (complete : ∀ xs, F.Complete xs → P (xs.drop (F.length xs)) → P xs) (xs : List β) :
    P xs := by
  induction hn : xs.length using Nat.strongRecOn generalizing xs with
  | ind n ih =>
      by_cases h : F.Complete xs
      · refine complete xs h (ih _ ?_ _ rfl)
        have hpos := F.length_pos xs
        rw [List.length_drop]
        unfold Complete at h
        omega
      · exact incomplete xs h

/-- Only the incomplete rest of a stream meets what arrives later. -/
theorem frames_append (xs ys : List β) :
    F.frames (xs ++ ys) = F.frames xs ++ F.frames (F.rest xs ++ ys) ∧
      F.rest (xs ++ ys) = F.rest (F.rest xs ++ ys) := by
  induction xs using F.induct with
  | incomplete xs h => simp [frames_of_incomplete h]
  | complete xs h ih =>
      have hdrop : (xs ++ ys).drop (F.length xs) = xs.drop (F.length xs) ++ ys :=
        List.drop_append_of_le_length h
      have htake : (xs ++ ys).take (F.length xs) = xs.take (F.length xs) :=
        List.take_append_of_le_length h
      have happ := frames_of_complete (h.append ys)
      rw [h.length_append ys, hdrop, htake] at happ
      rw [happ.1, happ.2, (frames_of_complete h).1, (frames_of_complete h).2, ih.1, ih.2]
      exact ⟨rfl, rfl⟩

/-- Whole frames written one after the other are found again. -/
theorem frames_flatten_append (fs : List (List β)) (h : ∀ f ∈ fs, F.IsFrame f)
    (ys : List β) :
    F.frames (fs.flatten ++ ys) = fs ++ F.frames ys ∧
      F.rest (fs.flatten ++ ys) = F.rest ys := by
  induction fs with
  | nil => exact ⟨rfl, rfl⟩
  | cons f fs ih =>
      have hf : F.IsFrame f := h f List.mem_cons_self
      obtain ⟨ih₁, ih₂⟩ := ih fun g hg => h g (List.mem_cons_of_mem f hg)
      have hc := frames_of_complete (hf.complete.append (fs.flatten ++ ys))
      have hlen : F.length (f ++ (fs.flatten ++ ys)) = f.length :=
        (hf.complete.length_append _).trans hf
      rw [hlen, List.take_left, List.drop_left] at hc
      rw [List.flatten_cons, List.append_assoc, hc.1, hc.2, ih₁, ih₂]
      exact ⟨rfl, rfl⟩

/-- The decomposition is unique: frames in order and an incomplete rest. -/
theorem frames_unique (fs : List (List β)) (h : ∀ f ∈ fs, F.IsFrame f) (r : List β)
    (hr : ¬ F.Complete r) : F.frames (fs.flatten ++ r) = fs ∧ F.rest (fs.flatten ++ r) = r := by
  obtain ⟨h₁, h₂⟩ := F.frames_flatten_append fs h r
  rw [h₁, h₂, (frames_of_incomplete hr).1, (frames_of_incomplete hr).2, List.append_nil]
  exact ⟨rfl, rfl⟩

theorem frames_flatten (fs : List (List β)) (h : ∀ f ∈ fs, F.IsFrame f) :
    F.frames fs.flatten = fs ∧ F.rest fs.flatten = [] := by
  simpa using F.frames_unique fs h [] F.not_complete_nil

end Format
end Framing
