import Mathlib.Computability.RegularExpressions
import Mathlib.Data.List.Infix

/-! # Patterns in a text

Regular expressions out of classes and literals, the search for a part of a text
that one matches, and what each construct matches. -/
namespace BlockchainTask.Library.Pattern
open RegularExpression

variable {α : Type}

/-- A character class. -/
def anyOf (chars : List α) : RegularExpression α := (chars.map char).sum

def literal (text : List α) : RegularExpression α := (text.map char).prod

def optional (r : RegularExpression α) : RegularExpression α := 1 + r

def oneOrMore (r : RegularExpression α) : RegularExpression α := r * r.star

/-- Whether some part of the text matches. -/
def search [DecidableEq α] (r : RegularExpression α) (text : List α) : Bool :=
  text.tails.any fun rest => rest.inits.any r.rmatch

theorem search_iff [DecidableEq α] {r : RegularExpression α} {text : List α} :
    search r text = true ↔ ∃ found ∈ r.matches', found <:+: text := by
  unfold search
  simp only [List.any_eq_true, List.mem_tails, List.mem_inits, rmatch_iff_matches']
  constructor
  · rintro ⟨rest, hrest, found, hfound, hmatch⟩
    exact ⟨found, hmatch, hfound.isInfix.trans hrest.isInfix⟩
  · rintro ⟨found, hmatch, before, after, heq⟩
    refine ⟨found ++ after, ⟨before, ?_⟩, found, List.prefix_append _ _, hmatch⟩
    rw [← heq, List.append_assoc]

section
variable {r : RegularExpression α} {chars text x : List α}

theorem mem_char {c : α} : x ∈ (char c).matches' ↔ x = [c] := Iff.rfl

theorem mem_anyOf : x ∈ (anyOf chars).matches' ↔ ∃ c ∈ chars, x = [c] := by
  unfold anyOf
  induction chars with
  | nil =>
    rw [List.map_nil, List.sum_nil, matches'_zero]
    simp only [List.not_mem_nil, false_and, exists_false, iff_false]
    exact Language.notMem_zero x
  | cons c rest ih =>
    rw [List.map_cons, List.sum_cons, matches'_add, Language.mem_add, ih, mem_char]
    simp

theorem mem_literal : x ∈ (literal text).matches' ↔ x = text := by
  unfold literal
  induction text generalizing x with
  | nil => simp
  | cons c rest ih =>
    rw [List.map_cons, List.prod_cons, matches'_mul, Language.mem_mul]
    simp only [ih, mem_char]
    simp [eq_comm]

theorem mem_optional : x ∈ (optional r).matches' ↔ x = [] ∨ x ∈ r.matches' := by
  unfold optional
  rw [matches'_add, Language.mem_add, matches'_epsilon, Language.mem_one]

theorem mem_oneOrMore : x ∈ (oneOrMore r).matches' ↔
    ∃ first ∈ r.matches', ∃ rest ∈ r.star.matches', first ++ rest = x := by
  unfold oneOrMore
  rw [matches'_mul, Language.mem_mul]

/-- A repeated class matches the texts of its characters. -/
theorem mem_star {p : α → Prop} (hr : ∀ x, x ∈ r.matches' ↔ ∃ c, p c ∧ x = [c]) :
    x ∈ r.star.matches' ↔ ∀ c ∈ x, p c := by
  rw [matches'_star, Language.mem_kstar]
  constructor
  · rintro ⟨parts, rfl, hparts⟩ c hc
    obtain ⟨part, hpart, hc⟩ := List.mem_flatten.mp hc
    obtain ⟨c', hp, rfl⟩ := (hr part).mp (hparts part hpart)
    rwa [List.mem_singleton.mp hc]
  · intro h
    refine ⟨x.map fun c => [c], (List.flatMap_singleton' x).symm, fun part hpart => ?_⟩
    obtain ⟨c, hc, rfl⟩ := List.mem_map.mp hpart
    exact (hr [c]).mpr ⟨c, h c hc, rfl⟩

/-- Two or more of a class begin with two of its characters. -/
theorem two_of_mem_pow {n : Nat} (h : x ∈ (anyOf chars ^ (n + 2)).matches') :
    ∃ a b rest, x = a :: b :: rest ∧ a ∈ chars ∧ b ∈ chars := by
  rw [matches'_pow, Language.mem_pow] at h
  obtain ⟨parts, rfl, hlength, hparts⟩ := h
  rcases parts with _ | ⟨first, _ | ⟨second, rest⟩⟩
  · cases hlength
  · cases hlength
  · obtain ⟨a, ha, rfl⟩ := mem_anyOf.mp (hparts first List.mem_cons_self)
    obtain ⟨b, hb, rfl⟩ := mem_anyOf.mp (hparts second (List.mem_cons_of_mem _ List.mem_cons_self))
    exact ⟨a, b, rest.flatten, rfl, ha, hb⟩

theorem pair_mem_pow {a b : α} (ha : a ∈ chars) (hb : b ∈ chars) :
    [a, b] ∈ (anyOf chars ^ 2).matches' := by
  have hfirst : [a] ∈ (anyOf chars).matches' := mem_anyOf.mpr ⟨a, ha, rfl⟩
  have hsecond : [b] ∈ (anyOf chars).matches' := mem_anyOf.mpr ⟨b, hb, rfl⟩
  rw [matches'_pow, Language.mem_pow]
  exact ⟨[[a], [b]], rfl, rfl, by simp [hfirst, hsecond]⟩

end

end BlockchainTask.Library.Pattern
