import SvgJsx.Proofs.Markup.Rescanning
import SvgJsx.Proofs.Transform.CamelNames

/-! The attribute names of a whole text in camelCase. A name in camelCase can stand where its name
has stood, so the scanner finds the names in camelCase and nothing else: the text need not be
well-formed for that. -/

namespace SvgJsx.Transform
open Text Markup

theorem canReplace_camelCaseName {t n : Text} (h : n ∈ attributeNames t) :
    CanReplace n (camelCaseName n) := by
  obtain ⟨c, k, rfl, hk⟩ := exists_of_mem_attributeNames h
  rw [camelCaseName]
  split
  · exact ⟨c, k, k, rfl, rfl, hk⟩
  · refine ⟨c, k, joinWords (some c) k, rfl, joinWords_none_cons c k, fun d hd => ?_⟩
    exact endsName_joinWords hk d hd

theorem attributeNames_camelCase (t : Text) :
    attributeNames (camelCase .attributeNames t) = (attributeNames t).map camelCaseName :=
  attributeNames_renameAttributes fun _ hn => canReplace_camelCaseName hn

/-- Scanned again, a text with other attribute names has just these names, if each of them can stand
for the old one. So a second renaming to camelCase finds nothing to do, and only the kept names still
have a hyphen or colon between two lowercase letters. -/
theorem renaming_stable (f : Text → Text) (t : Text) :
    ((∀ n ∈ attributeNames t, CanReplace n (f n)) →
      attributeNames (renameAttributes f t) = (attributeNames t).map f) ∧
    camelCase .attributeNames (camelCase .attributeNames t) = camelCase .attributeNames t ∧
    ∀ n ∈ attributeNames (camelCase .attributeNames t), isKept n = true ∨ ¬ Joined n := by
  refine ⟨attributeNames_renameAttributes, ?_, fun n hn => ?_⟩
  · have hagain : renameAttributes camelCaseName (renameAttributes camelCaseName t) =
        renameAttributes (fun n => camelCaseName (camelCaseName n)) t :=
      renameAttributes_renameAttributes fun n hn => canReplace_camelCaseName hn
    exact hagain.trans (renameAttributes_congr fun n _ => camelCaseName_camelCaseName n)
  · rw [attributeNames_camelCase] at hn
    obtain ⟨m, -, rfl⟩ := List.mem_map.1 hn
    rcases camelCaseName_cases m with ⟨hkept, hm⟩ | hnot
    · exact .inl (hm.symm ▸ hkept)
    · exact .inr hnot

/-- A name that begins with a quote and touches the name before it, in a tag that never ends. -/
theorem renaming_stable_touching :
    attributeNames "<a b\"c-d".toList = ["b".toList, "\"c-d".toList] ∧
      attributeNames (renameAttributes camelCaseName "<a b\"c-d".toList) =
        ["b".toList, "\"cD".toList] := by
  refine ⟨by decide, ?_⟩
  rw [(renaming_stable camelCaseName "<a b\"c-d".toList).1 fun n hn => canReplace_camelCaseName hn]
  decide

end SvgJsx.Transform
