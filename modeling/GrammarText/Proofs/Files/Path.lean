import GrammarText.Files.Path
import GrammarText.Proofs.Text.Lines
import Mathlib.Data.List.TakeDrop

/-!
# Paths and what writes them

A path that was read from a text is read from its written form again (`Path.ofString_toString`), since its names hold
no slash and none of them is dropped (`Path.Plain`).
-/

namespace GrammarText.Path

/-- Whether the names of a path are such as reading a path gives. -/
def Plain (p : Path) : Prop :=
  ∀ n ∈ p.parts, isPart n.toList = true ∧ '/' ∉ n.toList

theorem plain_ofString (s : String) : (ofString s).Plain := by
  intro n hn
  unfold ofString at hn
  obtain ⟨t, ht, rfl⟩ := List.mem_map.1 hn
  obtain ⟨ht, hpart⟩ := List.mem_filter.1 ht
  rw [String.toList_ofList]
  exact ⟨hpart, not_mem_of_mem_splitOn ht⟩

variable {p : Path}

/-- The names of a path, with the slashes between them, begin with another sign. -/
theorem Plain.head_ne_slash (h : p.Plain) : ∀ c ∈ (['/'].intercalate (p.parts.map String.toList)).head?, c ≠ '/' := by
  intro c hc
  cases hparts : p.parts with
  | nil => simp [hparts] at hc
  | cons n ns =>
    obtain ⟨hpart, hslash⟩ := h n (by simp [hparts])
    obtain ⟨d, r, hn⟩ : ∃ d r, n.toList = d :: r := by
      apply List.exists_cons_of_ne_nil
      intro hnil
      simp [isPart, hnil] at hpart
    obtain rfl : d = c := by
      rw [hparts, List.map_cons, hn, List.intercalate_cons_cons_left] at hc
      simpa using hc
    rintro rfl
    simp [hn] at hslash

theorem toList_slashes (s : PathStart) : s.slashes.toList = List.replicate s.slashes.length '/' := by
  cases s <;> rfl

theorem startOf_length_slashes (s : PathStart) : startOf s.slashes.length = s := by
  cases s <;> rfl

/-- The names with a slash between each two are cut into the names. -/
theorem Plain.split (h : p.Plain) :
    (((['/'].intercalate (p.parts.map String.toList)).splitOn '/').filter isPart).map String.ofList = p.parts := by
  by_cases hnil : p.parts = []
  · rw [hnil]
    rfl
  · have hkept : (p.parts.map String.toList).filter isPart = p.parts.map String.toList := by
      apply List.filter_eq_self.2
      intro t ht
      obtain ⟨n, hn, rfl⟩ := List.mem_map.1 ht
      exact (h n hn).1
    have hslash : ∀ t ∈ p.parts.map String.toList, '/' ∉ t := by
      intro t ht
      obtain ⟨n, hn, rfl⟩ := List.mem_map.1 ht
      exact (h n hn).2
    rw [List.splitOn_intercalate _ hslash (by simpa using hnil), hkept, List.map_map]
    simp [Function.comp_def]

/-- Reading a text that begins with slashes. -/
theorem ofString_slashes {s : String} {n : Nat} {t : Text} (hs : s.toList = List.replicate n '/' ++ t)
    (ht : ∀ c ∈ t.head?, c ≠ '/') :
    ofString s = ⟨startOf n, ((t.splitOn '/').filter isPart).map String.ofList⟩ := by
  have htake : (List.replicate n '/' ++ t).takeWhile (· == '/') = List.replicate n '/' := by
    cases t with
    | nil => simp
    | cons c r => simp [ht c rfl]
  have hdrop : (List.replicate n '/' ++ t).dropWhile (· == '/') = t := by
    cases t with
    | nil => simp
    | cons c r => simp [ht c rfl]
  unfold ofString
  rw [hs, List.span_eq_takeWhile_dropWhile, htake, hdrop]
  simp

/-- The written form of a path is read as the path. -/
theorem Plain.ofString_toString (h : p.Plain) : ofString p.toString = p := by
  have htext : (p.start.slashes ++ String.intercalate "/" p.parts).toList =
      List.replicate p.start.slashes.length '/' ++ ['/'].intercalate (p.parts.map String.toList) := by
    rw [String.toList_append, toList_slashes, String.toList_intercalate]
    rfl
  have hread := ofString_slashes htext h.head_ne_slash
  rw [startOf_length_slashes, h.split] at hread
  unfold toString
  simp only
  split
  · -- a path without slashes and names
    rename_i hempty
    rw [String.isEmpty_iff] at hempty
    rw [hempty] at hread
    exact hread
  · exact hread

theorem ofString_toString_ofString (s : String) : ofString (ofString s).toString = ofString s :=
  (plain_ofString s).ofString_toString

end GrammarText.Path
