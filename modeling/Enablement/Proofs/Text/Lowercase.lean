import Enablement.Text.AsciiCase
import Enablement.Text.Uppercase

/-!
# Lower-casing — the letters that have a case

Of all characters, only the 26 from `A` to `Z` change when they are made
small. So what does not tell these letters from the small ones does not tell
any character from its small form (`eq_toLower`). The upper-case form of a
text is of this kind, though it looks far beyond ASCII: names that are the
same apart from case are the same as texts (`upperText_eq_of_foldName`).
-/

namespace Enablement
namespace Text

/-! ## Characters -/

/-- The letters from `A` to `Z`. -/
def capitals : List Char := (List.range 26).map fun i => Char.ofNat (65 + i)

/-- Every other character is its own small form. -/
theorem toLower_eq_or_mem_capitals (c : Char) : c.toLower = c ∨ c ∈ capitals := by
  by_cases h : 65 ≤ c.toNat ∧ c.toNat ≤ 90
  · refine .inr (List.mem_map.2 ⟨c.toNat - 65, List.mem_range.2 (by omega), ?_⟩)
    rw [Nat.add_sub_cancel' h.1, Char.ofNat_toNat]
  · refine .inl (dif_neg fun hval => h ?_)
    exact ⟨UInt32.le_iff_toNat_le.1 hval.1, UInt32.le_iff_toNat_le.1 hval.2⟩

/-- **What does not tell capital letters from small ones does not tell any
character from its small form.** -/
theorem eq_toLower {α : Type} {f : Char → α}
    (h : capitals.map (fun c => f c.toLower) = capitals.map f) (c : Char) : f c.toLower = f c := by
  rcases toLower_eq_or_mem_capitals c with hc | hc
  · rw [hc]
  · exact List.map_inj_left.1 h c hc

/-- A small letter stays as it is when it is lower-cased again. -/
@[simp] theorem toLower_toLower (c : Char) : c.toLower.toLower = c.toLower :=
  eq_toLower (f := Char.toLower) rfl c

/-- Lower-casing an ASCII letter does not change its upper-case form. -/
@[simp] theorem upper_toLower (c : Char) : upper c.toLower = upper c :=
  eq_toLower (f := upper) rfl c

/-- Only the small forms of capital letters change when they are made large. -/
theorem toUpper_eq_or_mem_small (c : Char) : c.toUpper = c ∨ c ∈ capitals.map Char.toLower := by
  have hsmall : capitals.map Char.toLower = (List.range 26).map fun i => Char.ofNat (97 + i) := rfl
  by_cases h : 97 ≤ c.toNat ∧ c.toNat ≤ 122
  · rw [hsmall]
    refine .inr (List.mem_map.2 ⟨c.toNat - 97, List.mem_range.2 (by omega), ?_⟩)
    rw [Nat.add_sub_cancel' h.1, Char.ofNat_toNat]
  · refine .inl (dif_neg fun hval => h ?_)
    exact ⟨UInt32.le_iff_toNat_le.1 hval.1, UInt32.le_iff_toNat_le.1 hval.2⟩

/-- Upper-casing an ASCII letter does not change its lower-case form. -/
@[simp] theorem toLower_toUpper (c : Char) : c.toUpper.toLower = c.toLower := by
  rcases toUpper_eq_or_mem_small c with hc | hc
  · rw [hc]
  · have hall : (capitals.map Char.toLower).map (fun c => c.toUpper.toLower) =
        (capitals.map Char.toLower).map Char.toLower := rfl
    exact List.map_inj_left.1 hall c hc

/-! ## Texts -/

/-- The text with the letters `A` to `Z` made small. -/
def lower (s : String) : String := String.ofList (foldName s)

/-- A text is lower-cased character by character. -/
@[simp] theorem toList_lower (s : String) : (lower s).toList = s.toList.map Char.toLower :=
  String.toList_ofList

/-- And so are characters that make a text. -/
theorem lower_ofList (cs : List Char) :
    lower (String.ofList cs) = String.ofList (cs.map Char.toLower) := by
  rw [lower, foldName, String.toList_ofList]

/-- Names are folded to the same text in whatever case they are written. -/
@[simp] theorem foldName_lower (s : String) : foldName (lower s) = foldName s := by
  rw [foldName, toList_lower, List.map_map, foldName]
  exact List.map_congr_left fun c _ => toLower_toLower c

/-- Texts with one small form are the same names. -/
theorem lower_eq_iff {s t : String} : lower s = lower t ↔ foldName s = foldName t :=
  String.ofList_inj

/-- **Upper-casing does not see the case of ASCII letters.** -/
theorem upperText_eq_of_foldName {s t : String} (h : foldName s = foldName t) :
    upperText s = upperText t := by
  have hfold (s : String) : upperText s = (foldName s).flatMap upper := by
    simp only [upperText, foldName, List.flatMap_map, upper_toLower]
  rw [hfold, hfold, h]

/-- And in ASCII it sees all else. -/
theorem foldName_eq_of_upperText {s t : String} (hs : ∀ c ∈ s.toList, c.toNat < 0x80)
    (ht : ∀ c ∈ t.toList, c.toNat < 0x80) (h : upperText s = upperText t) :
    foldName s = foldName t := by
  have hfold {s : String} (hs : ∀ c ∈ s.toList, c.toNat < 0x80) :
      foldName s = (upperText s).map Char.toLower := by
    have hupper : upperText s = s.toList.map Char.toUpper := by
      rw [upperText, List.flatMap_def, List.map_congr_left fun c hc => upper_of_ascii (hs c hc),
        ← List.flatMap_def, ← List.map_eq_flatMap]
    rw [hupper, List.map_map, foldName]
    exact List.map_congr_left fun c _ => (toLower_toUpper c).symm
  rw [hfold hs, hfold ht, h]

end Text
end Enablement
