import BlockchainTask.Library.Pattern

/-! # The URI check

A regular expression without anchors tests a text for a part that it matches. Its
flag `i` makes no difference between the cases of a letter, so it is matched against
the text in lower case. -/
namespace BlockchainTask.Helper.RegExp
open BlockchainTask.Library.Pattern RegularExpression

/-- `test` with the flag `i`. -/
def test (r : RegularExpression Char) (str : String) : Bool :=
  search r (str.toList.map Char.toLower)

/-- `a-z0-9` -/
def alphanumeric : List Char := "abcdefghijklmnopqrstuvwxyz0123456789".toList

/-- `\w` -/
def word : List Char := alphanumeric ++ ['_']

/-- `(http(s)?:\/\/)` -/
def scheme : RegularExpression Char :=
  literal "http".toList * optional (literal "s".toList) * literal "://".toList

/-- `[a-z0-9\w]+\.*` -/
def label : RegularExpression Char := oneOrMore (anyOf (alphanumeric ++ word)) * (char '.').star

/-- `/(http(s)?:\/\/)([a-z0-9\w]+\.*)+[a-z0-9]{2,4}/` -/
def uri : RegularExpression Char :=
  scheme * oneOrMore label *
    (anyOf alphanumeric ^ 2 + anyOf alphanumeric ^ 3 + anyOf alphanumeric ^ 4)

def checkURI (str : String) : Bool := test uri str

/-! ## What the check accepts -/

theorem mem_label {x : List Char} : x ∈ label.matches' ↔
    ∃ first rest dots, x = first :: rest ++ dots ∧ (∀ c ∈ first :: rest, c ∈ word) ∧
      ∀ c ∈ dots, c = '.' := by
  have hclass : ∀ x, x ∈ (anyOf (alphanumeric ++ word)).matches' ↔ ∃ c, c ∈ word ∧ x = [c] := by
    intro x
    rw [mem_anyOf]
    simp [word]
  have hdot : ∀ x, x ∈ (char '.').matches' ↔ ∃ c, c = '.' ∧ x = [c] := by
    intro x
    rw [mem_char]
    simp
  unfold label
  simp only [matches'_mul, Language.mem_mul, mem_oneOrMore, mem_star hclass, mem_star hdot, hclass]
  constructor
  · rintro ⟨_, ⟨_, ⟨first, hfirst, rfl⟩, rest, hrest, rfl⟩, dots, hdots, rfl⟩
    exact ⟨first, rest, dots, rfl, List.forall_mem_cons.mpr ⟨hfirst, hrest⟩, hdots⟩
  · rintro ⟨first, rest, dots, rfl, hword, hdots⟩
    obtain ⟨hfirst, hrest⟩ := List.forall_mem_cons.mp hword
    exact ⟨first :: rest, ⟨[first], ⟨first, hfirst, rfl⟩, rest, hrest, rfl⟩, dots, hdots, rfl⟩

/-- A label and its dots can begin at any word character. -/
theorem cons_mem_label {first : Char} {dots : List Char} (hfirst : first ∈ word)
    (hdots : ∀ c ∈ dots, c = '.') : first :: dots ∈ label.matches' :=
  mem_label.mpr ⟨first, [], dots, rfl, List.forall_mem_singleton.mpr hfirst, hdots⟩

theorem exists_dots_labels {x : List Char} (h : ∀ c ∈ x, c ∈ word ∨ c = '.') :
    ∃ dots labels, x = dots ++ labels ∧ (∀ c ∈ dots, c = '.') ∧ labels ∈ label.star.matches' := by
  induction x with
  | nil => exact ⟨[], [], rfl, by simp, Language.nil_mem_kstar _⟩
  | cons c x ih =>
    obtain ⟨hc, hx⟩ := List.forall_mem_cons.mp h
    obtain ⟨dots, labels, rfl, hdots, parts, rfl, hparts⟩ := ih hx
    rcases hc with hword | hdot
    · refine ⟨[], (c :: dots) ++ parts.flatten, rfl, by simp, (c :: dots) :: parts, rfl, ?_⟩
      exact List.forall_mem_cons.mpr ⟨cons_mem_label hword hdots, hparts⟩
    · exact ⟨c :: dots, parts.flatten, rfl, List.forall_mem_cons.mpr ⟨hdot, hdots⟩, parts, rfl, hparts⟩

theorem mem_labels {x : List Char} : x ∈ (oneOrMore label).matches' ↔
    ∃ first rest, x = first :: rest ∧ first ∈ word ∧ ∀ c ∈ rest, c ∈ word ∨ c = '.' := by
  have hchars : ∀ part ∈ label.matches', ∀ c ∈ part, c ∈ word ∨ c = '.' := by
    intro part hpart c hc
    obtain ⟨first, rest, dots, rfl, hword, hdots⟩ := mem_label.mp hpart
    rcases List.mem_append.mp hc with hc | hc
    · exact Or.inl (hword c hc)
    · exact Or.inr (hdots c hc)
  rw [mem_oneOrMore]
  constructor
  · rintro ⟨part, hpart, _, ⟨parts, rfl, hparts⟩, rfl⟩
    have hall := hchars part hpart
    obtain ⟨first, rest, dots, rfl, hword, hdots⟩ := mem_label.mp hpart
    refine ⟨first, rest ++ dots ++ parts.flatten, by simp, hword first List.mem_cons_self, ?_⟩
    intro c hc
    rcases List.mem_append.mp hc with hc | hc
    · exact hall c (List.mem_cons_of_mem _ hc)
    · obtain ⟨other, hother, hc⟩ := List.mem_flatten.mp hc
      exact hchars other (hparts other hother) c hc
  · rintro ⟨first, rest, rfl, hfirst, hrest⟩
    obtain ⟨dots, labels, rfl, hdots, hlabels⟩ := exists_dots_labels hrest
    exact ⟨first :: dots, cons_mem_label hfirst hdots, labels, hlabels, rfl⟩

theorem mem_scheme {x : List Char} :
    x ∈ scheme.matches' ↔ x = "http://".toList ∨ x = "https://".toList := by
  unfold scheme
  simp only [matches'_mul, Language.mem_mul, mem_literal, mem_optional]
  constructor
  · rintro ⟨_, ⟨_, rfl, _, rfl | rfl, rfl⟩, _, rfl, rfl⟩
    · exact Or.inl rfl
    · exact Or.inr rfl
  · rintro (rfl | rfl)
    · exact ⟨_, ⟨_, rfl, [], Or.inl rfl, rfl⟩, _, rfl, rfl⟩
    · exact ⟨_, ⟨_, rfl, _, Or.inr rfl, rfl⟩, _, rfl, rfl⟩

/-- **The URI check** accepts a text that has, in any letter case, `http://` or
`https://` in it, behind that a word character, word characters and dots, and behind
these two letters or digits. -/
theorem checkURI_iff {str : String} : checkURI str = true ↔
    ∃ before start first rest a b after,
      before ++ (start ++ (first :: rest) ++ [a, b]) ++ after = str.toList.map Char.toLower ∧
      (start = "http://".toList ∨ start = "https://".toList) ∧
      first ∈ word ∧ (∀ c ∈ rest, c ∈ word ∨ c = '.') ∧
      a ∈ alphanumeric ∧ b ∈ alphanumeric := by
  unfold checkURI test uri
  rw [search_iff]
  constructor
  · rintro ⟨found, hmatch, before, after, heq⟩
    rw [matches'_mul, matches'_mul, Language.mem_mul] at hmatch
    obtain ⟨_, ⟨start, hstart, host, hhost, rfl⟩, tail, htail, rfl⟩ := hmatch
    obtain ⟨first, rest, rfl, hfirst, hrest⟩ := mem_labels.mp hhost
    have htwo : ∃ a b more, tail = a :: b :: more ∧ a ∈ alphanumeric ∧ b ∈ alphanumeric := by
      rcases htail with (htail | htail) | htail
      · exact two_of_mem_pow (n := 0) htail
      · exact two_of_mem_pow (n := 1) htail
      · exact two_of_mem_pow (n := 2) htail
    obtain ⟨a, b, more, rfl, ha, hb⟩ := htwo
    refine ⟨before, start, first, rest, a, b, more ++ after, ?_, mem_scheme.mp hstart, hfirst,
      hrest, ha, hb⟩
    rw [← heq]
    simp
  · rintro ⟨before, start, first, rest, a, b, after, heq, hstart, hfirst, hrest, ha, hb⟩
    refine ⟨start ++ (first :: rest) ++ [a, b], ?_, before, after, heq⟩
    rw [matches'_mul, matches'_mul, Language.mem_mul]
    exact ⟨_, ⟨start, mem_scheme.mpr hstart, _, mem_labels.mpr ⟨first, rest, rfl, hfirst, hrest⟩,
      rfl⟩, [a, b], Or.inl (Or.inl (pair_mem_pow ha hb)), rfl⟩

-- three characters are the shortest host
example : checkURI "http://_ab" = true ∧ checkURI "http://ab" = false := by decide +kernel

end BlockchainTask.Helper.RegExp
