import Mathlib.Data.List.Induction
import Mathlib.Order.Lattice
import Mathlib.Order.Monotone.Basic

/-! # A scan that keeps the best so far

A scan over candidates, some of them missing, that holds the best one it has
seen. It takes another one only for a gain: the value of what it holds, raised
by a margin, has to lie below the new value. With a margin the order is not
total, so the scan need not end with the greatest value, but what it ends with
is within the margin of every candidate. -/
namespace BlockchainTask.Library.Selection

variable {α β : Type} [LinearOrder β] (value : α → β) (raised : β → β)

/-- Whether the scan takes `current` in the place of what it holds. -/
def improves (held current : Option α) : Bool :=
  current.any fun c => held.all fun h => decide (raised (value h) < value c)

def keep (held current : Option α) : Option α :=
  if improves value raised held current then current else held

def scan (held : Option α) (candidates : List (Option α)) : Option α :=
  candidates.foldl (keep value raised) held

section
variable {value raised} {held current : Option α} {candidates : List (Option α)}

@[simp] theorem scan_nil : scan value raised held [] = held := rfl

@[simp] theorem scan_cons : scan value raised held (current :: candidates) =
    scan value raised (keep value raised held current) candidates := rfl

theorem scan_append (more : List (Option α)) :
    scan value raised held (candidates ++ more) =
      scan value raised (scan value raised held candidates) more := List.foldl_append

/-! ## The comparison -/

theorem improves_some {x y : α} :
    improves value raised (some x) (some y) = true ↔ raised (value x) < value y := by
  simp [improves]

@[simp] theorem improves_missing : improves value raised held none = false := rfl

@[simp] theorem improves_first {y : α} : improves value raised none (some y) = true := rfl

theorem improves_irrefl {x : α} (h : value x ≤ raised (value x)) :
    improves value raised (some x) (some x) = false := by
  rw [← Bool.not_eq_true, improves_some]
  exact not_lt.mpr h

theorem improves_asymm {x y : α} (hx : value x ≤ raised (value x))
    (hy : value y ≤ raised (value y)) (h : improves value raised (some x) (some y) = true) :
    improves value raised (some y) (some x) = false := by
  rw [improves_some] at h
  rw [← Bool.not_eq_true, improves_some]
  intro hback
  exact lt_irrefl _ (((hx.trans_lt h).trans_le hy).trans hback)

theorem improves_trans {x y z : α} (hy : value y ≤ raised (value y))
    (hxy : improves value raised (some x) (some y) = true)
    (hyz : improves value raised (some y) (some z) = true) :
    improves value raised (some x) (some z) = true := by
  rw [improves_some] at hxy hyz ⊢
  exact (hxy.trans_le hy).trans hyz

/-! ## One candidate -/

theorem mem_of_keep {x : α} (h : keep value raised held current = some x) :
    held = some x ∨ current = some x := by
  unfold keep at h
  split at h
  · exact Or.inr h
  · exact Or.inl h

theorem keep_eq_none_iff :
    keep value raised held current = none ↔ held = none ∧ current = none := by
  cases current with
  | none => simp [keep]
  | some y =>
    cases held with
    | none => simp [keep]
    | some x =>
      unfold keep
      split <;> simp

/-- What is held after a candidate is no worse than what was held. -/
theorem le_keep (current : Option α) {x : α} (hx : value x ≤ raised (value x)) :
    ∃ y, keep value raised (some x) current = some y ∧ value x ≤ value y := by
  unfold keep
  split
  · rename_i himproves
    cases current with
    | none => cases himproves
    | some y => exact ⟨y, rfl, hx.trans (improves_some.mp himproves).le⟩
  · exact ⟨x, rfl, le_rfl⟩

/-- A candidate that is not taken lies within the margin of what is held. -/
theorem le_raised_keep (held : Option α) {x : α} (hx : value x ≤ raised (value x)) :
    ∃ y, keep value raised held (some x) = some y ∧ value x ≤ raised (value y) := by
  by_cases himproves : improves value raised held (some x) = true
  · exact ⟨x, if_pos himproves, hx⟩
  · cases held with
    | none => exact absurd rfl himproves
    | some y =>
      exact ⟨y, if_neg himproves, not_lt.mp fun hlt => himproves (improves_some.mpr hlt)⟩

/-! ## All candidates -/

theorem mem_of_scan {x : α} (h : scan value raised held candidates = some x) :
    held = some x ∨ some x ∈ candidates := by
  induction candidates generalizing held with
  | nil => exact Or.inl h
  | cons current rest ih =>
    rcases ih h with hheld | hrest
    · rcases mem_of_keep hheld with hheld | hcurrent
      · exact Or.inl hheld
      · exact Or.inr (hcurrent ▸ List.mem_cons_self)
    · exact Or.inr (List.mem_cons_of_mem _ hrest)

theorem scan_eq_none_iff : scan value raised held candidates = none ↔
    held = none ∧ ∀ current ∈ candidates, current = none := by
  induction candidates generalizing held with
  | nil => simp
  | cons current rest ih =>
    rw [scan_cons, ih, keep_eq_none_iff, List.forall_mem_cons, and_assoc]

/-- Where the margin lowers no value, what is held never gets worse. -/
theorem le_scan {x : α} (hx : value x ≤ raised (value x))
    (h : ∀ y, some y ∈ candidates → value y ≤ raised (value y)) :
    ∃ z, scan value raised (some x) candidates = some z ∧ value x ≤ value z := by
  induction candidates generalizing x with
  | nil => exact ⟨x, rfl, le_rfl⟩
  | cons current rest ih =>
    obtain ⟨y, hy, hxy⟩ := le_keep current hx
    have hheld : value y ≤ raised (value y) := by
      rcases mem_of_keep hy with hsame | hcurrent
      · rw [← Option.some.inj hsame]
        exact hx
      · exact h y (hcurrent ▸ List.mem_cons_self)
    obtain ⟨z, hz, hyz⟩ := ih hheld fun w hw => h w (List.mem_cons_of_mem _ hw)
    exact ⟨z, by rw [scan_cons, hy, hz], hxy.trans hyz⟩

/-- The scan ends within the margin of every candidate. -/
theorem le_raised_scan (hraised : Monotone raised)
    (hheld : ∀ y, held = some y → value y ≤ raised (value y))
    (h : ∀ y, some y ∈ candidates → value y ≤ raised (value y)) {x : α}
    (hx : some x ∈ candidates) :
    ∃ z, scan value raised held candidates = some z ∧ value x ≤ raised (value z) := by
  induction candidates generalizing held with
  | nil => cases hx
  | cons current rest ih =>
    have hkept : ∀ y, keep value raised held current = some y → value y ≤ raised (value y) := by
      intro y hy
      rcases mem_of_keep hy with hsame | hcurrent
      · exact hheld y hsame
      · exact h y (hcurrent ▸ List.mem_cons_self)
    have hrest : ∀ y, some y ∈ rest → value y ≤ raised (value y) :=
      fun y hy => h y (List.mem_cons_of_mem _ hy)
    rcases List.mem_cons.mp hx with rfl | hx
    · obtain ⟨y, hy, hxy⟩ := le_raised_keep held (h x List.mem_cons_self)
      obtain ⟨z, hz, hyz⟩ := le_scan (hkept y hy) hrest
      exact ⟨z, by rw [scan_cons, hy, hz], hxy.trans (hraised hyz)⟩
    · exact ih hkept hrest hx

/-! ## Without a margin -/

/-- A greatest candidate, and the first of them: those before it are less, and none
behind it is greater. -/
def FirstGreatest (value : α → β) (candidates : List (Option α)) (best : α) : Prop :=
  ∃ before after, candidates = before ++ some best :: after ∧
    (∀ x, some x ∈ before → value x < value best) ∧ ∀ x, some x ∈ after → value x ≤ value best

theorem FirstGreatest.le {best x : α} (h : FirstGreatest value candidates best)
    (hx : some x ∈ candidates) : value x ≤ value best := by
  obtain ⟨before, after, rfl, hbefore, hafter⟩ := h
  rcases List.mem_append.mp hx with hx | hx
  · exact (hbefore x hx).le
  · rcases List.mem_cons.mp hx with hx | hx
    · rw [Option.some.inj hx]
    · exact hafter x hx

/-- A candidate that is missing or not greater comes behind it. -/
theorem FirstGreatest.concat {best : α} (h : FirstGreatest value candidates best)
    (hlast : ∀ x, current = some x → value x ≤ value best) :
    FirstGreatest value (candidates ++ [current]) best := by
  obtain ⟨before, after, rfl, hbefore, hafter⟩ := h
  refine ⟨before, after ++ [current], by rw [List.append_assoc, List.cons_append], hbefore, ?_⟩
  intro x hx
  rcases List.mem_append.mp hx with hx | hx
  · exact hafter x hx
  · exact hlast x (List.mem_singleton.mp hx).symm

/-- **Without a margin** a scan ends with the first of the greatest candidates. -/
theorem firstGreatest_of_scan {best : α} (h : scan value id none candidates = some best) :
    FirstGreatest value candidates best := by
  induction candidates using List.reverseRecOn generalizing best with
  | nil => cases h
  | append_singleton candidates current ih =>
    rw [scan_append, scan_cons, scan_nil] at h
    cases hheld : scan value id none candidates with
    | none =>
      rw [hheld] at h
      -- nothing was there before
      have hmissing := (scan_eq_none_iff.mp hheld).2
      rcases mem_of_keep h with hnone | rfl
      · cases hnone
      · refine ⟨candidates, [], rfl, fun x hx => ?_, fun x hx => absurd hx List.not_mem_nil⟩
        cases hmissing _ hx
    | some held =>
      rw [hheld] at h
      have hgreatest : FirstGreatest value candidates held := ih hheld
      unfold keep at h
      split at h
      · rename_i himproves
        subst h
        refine ⟨candidates, [], rfl, fun x hx => ?_, fun x hx => absurd hx List.not_mem_nil⟩
        exact (hgreatest.le hx).trans_lt (improves_some.mp himproves)
      · rename_i hkept
        obtain rfl : held = best := Option.some.inj h
        refine hgreatest.concat fun x hx => not_lt.mp fun hlt => hkept ?_
        rw [hx]
        exact improves_some.mpr hlt

end

end BlockchainTask.Library.Selection
