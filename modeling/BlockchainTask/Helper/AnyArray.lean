import Mathlib.Data.List.Perm.Basic

/-! # Arrays without an element type

What a request collects is an array of `any`: an element can be a value, an array
of them, or nothing at all. -/
namespace BlockchainTask.Helper.AnyArray

inductive Element (α : Type) where
  | undefined
  | value (value : α)
  | array (items : List α)
  deriving DecidableEq

variable {α : Type}

/-- What an element is flattened to. Only a hole would be left out, and an
undefined element is none. -/
def Element.spread (element : Element α) : List (Element α) :=
  match element with
  | .array items => items.map .value
  | _ => [element]

/-- `array.flat()`. -/
def flat (array : List (Element α)) : List (Element α) := array.flatMap Element.spread

theorem flat_arrays (arrays : List (List α)) :
    flat (arrays.map .array) = arrays.flatten.map .value := by
  rw [flat, List.flatMap_map, List.map_flatten, List.flatMap_def]
  rfl

/-- Flattening keeps what is undefined. -/
theorem undefined_mem_flat {array : List (Element α)} :
    .undefined ∈ flat array ↔ .undefined ∈ array := by
  rw [flat, List.mem_flatMap]
  constructor
  · intro h
    obtain ⟨element, hmem, h⟩ := h
    cases element with
    | undefined => exact hmem
    | value v => simp [Element.spread] at h
    | array items => simp [Element.spread] at h
  · exact fun h => ⟨.undefined, h, List.mem_singleton_self _⟩

end BlockchainTask.Helper.AnyArray
