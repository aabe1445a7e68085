import Mathlib

/-! # Computations in steps

When a computation that may fail succeeds: step after step, and over the elements of a list.
-/

namespace Toolsmith

/-- A computation in steps succeeds when each of its steps does. -/
theorem bind_eq_ok {ε α β : Type} {value : Except ε α} {next : α → Except ε β} {result : β} :
    value >>= next = .ok result ↔ ∃ input, value = .ok input ∧ next input = .ok result := by
  cases value with
  | error error => simp [bind, Except.bind]
  | ok input => simp [bind, Except.bind]

/-- Renaming errors neither makes nor loses a success. -/
theorem mapError_eq_ok {ε ε' α : Type} {value : Except ε α} {rename : ε → ε'} {result : α} :
    value.mapError rename = .ok result ↔ value = .ok result := by
  cases value with
  | error error => simp [Except.mapError]
  | ok input => simp [Except.mapError]

theorem map_eq_ok {ε α β : Type} {value : Except ε α} {f : α → β} {result : β} :
    f <$> value = .ok result ↔ ∃ input, value = .ok input ∧ f input = result := by
  cases value with
  | error error => simp [Functor.map, Except.map]
  | ok input => simp [Functor.map, Except.map]

theorem exists_of_isOk {ε α : Type} {result : Except ε α} (succeeds : result.isOk = true) :
    ∃ value, result = .ok value := by
  cases result with
  | ok value => exact ⟨value, rfl⟩
  | error problem => cases succeeds

variable {ε α β : Type} {elements : List α}

theorem forM_of_ok {check : α → Except ε Unit}
    (each : ∀ element ∈ elements, check element = .ok ()) :
    elements.forM check = .ok () := by
  induction elements with
  | nil => rfl
  | cons element rest ih =>
      rw [List.forM_eq_forM] at ih ⊢
      rw [List.forM_cons, each element List.mem_cons_self]
      exact ih fun other among => each other (List.mem_cons_of_mem _ among)

/-- Reading a list gives what reading each of its elements gives. -/
theorem mapM_eq_ok {read : α → Except ε β} {results : List β} :
    elements.mapM read = .ok results ↔
      List.Forall₂ (fun element result => read element = .ok result) elements results := by
  induction elements generalizing results with
  | nil =>
      rw [List.mapM_nil, List.forall₂_nil_left_iff]
      constructor
      · rintro ⟨⟩
        rfl
      · rintro rfl
        rfl
  | cons element rest ih =>
      rw [List.mapM_cons, List.forall₂_cons_left_iff]
      constructor
      · intro succeeds
        obtain ⟨first, read_first, succeeds⟩ := bind_eq_ok.mp succeeds
        obtain ⟨others, read_others, kept⟩ := bind_eq_ok.mp succeeds
        cases kept
        exact ⟨first, others, read_first, ih.mp read_others, rfl⟩
      · rintro ⟨first, others, read_first, read_others, rfl⟩
        rw [read_first, ih.mpr read_others]
        rfl

end Toolsmith
