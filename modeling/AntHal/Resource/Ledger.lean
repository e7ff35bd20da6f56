import Mathlib.Data.List.Induction
import Mathlib.Data.Multiset.UnionInter

/-!
Ledgers of values that are handed out and given back.

A ledger is balanced as long as only values that are out are given back. What is
out is a multiset: nothing is assumed about the choice of the values.
-/

namespace Ledger

inductive Entry (α : Type) where
  | acquire (a : α)
  | release (a : α)
  deriving DecidableEq

variable {α : Type} [DecidableEq α]

/-- One more entry; only what is out can be given back. -/
def enter (values : Multiset α) : Entry α → Option (Multiset α)
  | .acquire a => some (a ::ₘ values)
  | .release a => if a ∈ values then some (values.erase a) else none

/-- The values that are out, if the ledger is balanced. -/
def out (entries : List (Entry α)) : Option (Multiset α) := entries.foldlM enter 0

/-- A value is handed out only while it is not out. -/
def Fresh (entries : List (Entry α)) : Prop :=
  ∀ before a, before ++ [.acquire a] <+: entries → ∀ values, out before = some values → a ∉ values

variable {entries : List (Entry α)} {values : Multiset α} {a : α}

@[simp] theorem out_nil : out ([] : List (Entry α)) = some 0 := rfl

theorem out_append (entries entries' : List (Entry α)) :
    out (entries ++ entries') = (out entries).bind fun values => entries'.foldlM enter values :=
  List.foldlM_append

@[simp] theorem out_concat (e : Entry α) :
    out (entries ++ [e]) = (out entries).bind fun values => enter values e := by
  simp [out_append]

/-- The books: what was handed out was given back or is out. -/
theorem count_acquire (hout : out entries = some values) (a : α) :
    entries.count (.acquire a) = entries.count (.release a) + values.count a := by
  induction entries using List.reverseRecOn generalizing values with
  | nil =>
      cases hout
      rfl
  | append_singleton entries e ih =>
      rw [out_concat] at hout
      obtain ⟨values', hvalues, henter⟩ := Option.bind_eq_some_iff.mp hout
      have hbefore := ih hvalues
      cases e with
      | acquire x =>
          cases henter
          by_cases hx : x = a
          · subst hx
            simp [List.count_append, hbefore]
            omega
          · simp [List.count_append, hbefore, hx, Multiset.count_cons_of_ne (Ne.symm hx)]
      | release x =>
          simp only [enter] at henter
          split at henter
          · rename_i hmem
            cases henter
            by_cases hx : x = a
            · subst hx
              have hpos := Multiset.count_pos.mpr hmem
              simp [List.count_append, hbefore, Multiset.count_erase_self]
              omega
            · simp [List.count_append, hbefore, hx, Multiset.count_erase_of_ne (Ne.symm hx)]
          · cases henter

theorem Fresh.nodup (h : Fresh entries) (hout : out entries = some values) : values.Nodup := by
  induction entries using List.reverseRecOn generalizing values with
  | nil =>
      cases hout
      exact Multiset.nodup_zero
  | append_singleton entries e ih =>
      rw [out_concat] at hout
      obtain ⟨values', hvalues, henter⟩ := Option.bind_eq_some_iff.mp hout
      have hbefore : values'.Nodup :=
        ih (fun before a hp => h before a (hp.trans (List.prefix_append _ _))) hvalues
      cases e with
      | acquire x =>
          cases henter
          exact Multiset.nodup_cons.mpr ⟨h entries x (List.prefix_refl _) values' hvalues, hbefore⟩
      | release x =>
          simp only [enter] at henter
          split at henter
          · cases henter
            exact hbefore.erase x
          · cases henter

theorem fresh_nil : Fresh ([] : List (Entry α)) := by
  intro before a hp
  simp at hp

theorem Fresh.release (h : Fresh entries) (a : α) : Fresh (entries ++ [.release a]) := by
  intro before x hp
  obtain heq | hp := List.prefix_concat_iff.mp hp
  · cases (List.append_inj' heq rfl).2
  · exact h before x hp

theorem Fresh.acquire (h : Fresh entries) (hout : out entries = some values) (ha : a ∉ values) :
    Fresh (entries ++ [.acquire a]) := by
  intro before x hp
  obtain heq | hp := List.prefix_concat_iff.mp hp
  · obtain ⟨rfl, hx⟩ := List.append_inj' heq rfl
    cases hx
    intro values' hvalues
    obtain rfl := Option.some.inj (hout.symm.trans hvalues)
    exact ha
  · exact h before x hp

/-- More may be out than an entry needs. -/
theorem enter_add {values' : Multiset α} {e : Entry α} (h : enter values e = some values')
    (more : Multiset α) : enter (values + more) e = some (values' + more) := by
  cases e with
  | acquire a =>
      cases h
      exact congrArg some (Multiset.cons_add a values more).symm
  | release a =>
      simp only [enter] at h ⊢
      split at h
      · rename_i hmem
        cases h
        rw [if_pos (Multiset.mem_add.mpr (.inl hmem)), Multiset.erase_add_left_pos more hmem]
      · cases h

/-- Two balanced ledgers stay balanced when they are kept as one. -/
theorem out_or {β : Type} {f g : β → Option (Entry α)} (hfg : ∀ x, f x = none ∨ g x = none)
    {l : List β} {left right : Multiset α} (hleft : out (l.filterMap f) = some left)
    (hright : out (l.filterMap g) = some right) :
    out (l.filterMap fun x => (f x).or (g x)) = some (left + right) := by
  induction l using List.reverseRecOn generalizing left right with
  | nil =>
      cases hleft
      cases hright
      rfl
  | append_singleton l x ih =>
      simp only [List.filterMap_append, List.filterMap_cons, List.filterMap_nil] at hleft hright ⊢
      cases hf : f x with
      | none =>
          simp only [hf, List.append_nil, Option.none_or] at hleft ⊢
          cases hg : g x with
          | none =>
              simp only [hg, List.append_nil] at hright ⊢
              exact ih hleft hright
          | some e =>
              simp only [hg, out_concat] at hright ⊢
              obtain ⟨right', hbefore, henter⟩ := Option.bind_eq_some_iff.mp hright
              rw [ih hleft hbefore, Option.bind_some, Multiset.add_comm, enter_add henter,
                Multiset.add_comm]
      | some e =>
          have hg : g x = none := (hfg x).resolve_left (by simp [hf])
          simp only [hf, hg, List.append_nil, Option.some_or, out_concat] at hleft hright ⊢
          obtain ⟨left', hbefore, henter⟩ := Option.bind_eq_some_iff.mp hleft
          rw [ih hbefore hright, Option.bind_some, enter_add henter]

/-- What was handed out and is not out has been given back since. -/
theorem release_mem {before after : List (Entry α)}
    (hout : out (before ++ .acquire a :: after) = some values) (ha : a ∉ values) :
    .release a ∈ after := by
  by_contra hnone
  induction after using List.reverseRecOn generalizing values with
  | nil =>
      rw [out_concat] at hout
      obtain ⟨values', -, henter⟩ := Option.bind_eq_some_iff.mp hout
      cases henter
      exact ha (Multiset.mem_cons_self a values')
  | append_singleton after e ih =>
      rw [← List.cons_append, ← List.append_assoc, out_concat] at hout
      obtain ⟨values', hvalues, henter⟩ := Option.bind_eq_some_iff.mp hout
      rw [List.mem_append, List.mem_singleton, not_or] at hnone
      have hmem : a ∈ values' := by
        by_contra hnot
        exact ih hvalues hnot hnone.1
      cases e with
      | acquire x =>
          cases henter
          exact ha (Multiset.mem_cons_of_mem hmem)
      | release x =>
          simp only [enter] at henter
          split at henter
          · cases henter
            have hne : a ≠ x := by
              rintro rfl
              exact hnone.2 rfl
            exact ha ((Multiset.mem_erase_of_ne hne).mpr hmem)
          · cases henter

/-- A value is given back before it is handed out again. -/
theorem Fresh.release_between (h : Fresh entries) {l₁ l₂ l₃ : List (Entry α)}
    (hentries : entries = l₁ ++ .acquire a :: l₂ ++ .acquire a :: l₃)
    (hout : out entries = some values) : .release a ∈ l₂ := by
  have hp : l₁ ++ .acquire a :: l₂ ++ [.acquire a] <+: entries := by
    rw [hentries]
    exact (List.prefix_append_right_inj _).mpr ⟨l₃, rfl⟩
  rw [hentries, out_append] at hout
  obtain ⟨values', hvalues, -⟩ := Option.bind_eq_some_iff.mp hout
  exact release_mem hvalues (h _ a hp values' hvalues)

end Ledger
