import SvgJsx.Proofs.Markup.Passing
import SvgJsx.Proofs.Transform.StyleLiteral

/-! The attributes behind a style attribute. The scanner finds them behind the object literal as it
has found them behind the quoted value, just if the quotes and braces of the literal are balanced.
The property names go into the literal as they are, so it is they that can get it out of balance. -/

namespace SvgJsx.Transform
open Text Markup

/-- Behind the object literal of a style attribute, the same names are found as behind the attribute,
whatever follows. -/
def HidesNothing (raw : Text) : Prop :=
  ∀ rest, attributeNames ("<g style=".toList ++ styleLiteral raw ++ rest) =
    attributeNames ("<g style=\"".toList ++ raw ++ '"' :: rest)

theorem reads_styledTag : Reads .text "<g style=".toList
    ("<g ".toList.map .other ++ [.name "style".toList] ++ ['='].map .other) .beforeValue := by
  have hopen : Reads .text "<g ".toList ("<g ".toList.map .other) .beforeName :=
    Reads.cons rfl (Reads.cons rfl (Reads.other rfl))
  have hname : Reads .beforeName "style".toList [.name "style".toList] .name :=
    reads_name (n := ⟨"style".toList, by decide, by decide⟩) fun _ hc => step_open .beforeName hc
  exact (hopen.trans hname).trans (Reads.other rfl)

theorem attributeNames_styledTag (u : Text) :
    attributeNames ("<g style=".toList ++ u) = "style".toList :: namesFrom .beforeValue u :=
  reads_styledTag.namesFrom_append State.noConfusion u

theorem hidesNothing_iff {raw : Text} (hraw : '"' ∉ raw) :
    HidesNothing raw ↔ Balanced ('{' :: (entries (declarations raw) ++ ['}'])) := by
  have hliteral : ∀ rest, attributeNames ("<g style=".toList ++ styleLiteral raw ++ rest) =
      "style".toList :: namesFrom .beforeValue
        ('{' :: ('{' :: (entries (declarations raw) ++ ['}']) ++ '}' :: rest)) := by
    intro rest
    rw [List.append_assoc, attributeNames_styledTag, styleLiteral_eq, List.cons_append,
      List.append_assoc, List.singleton_append]
  have hquoted : ∀ rest, attributeNames ("<g style=\"".toList ++ raw ++ '"' :: rest) =
      "style".toList :: namesFrom .beforeName rest := by
    intro rest
    have htag : "<g style=\"".toList ++ raw ++ '"' :: rest =
        "<g style=".toList ++ ('"' :: (raw ++ ['"']) ++ rest) := by
      simp
    rw [htag, attributeNames_styledTag,
      (reads_quoted (.inl rfl) hraw).namesFrom_pass State.noConfusion]
  rw [← namesFrom_braces_iff]
  refine forall_congr' fun rest => ?_
  rw [hliteral, hquoted, List.cons.injEq, and_iff_right rfl]

theorem balanced_literal {raw : Text} (hraw : '"' ∉ raw)
    (h : ∀ d ∈ declarations raw, Balanced d.property) :
    Balanced ('{' :: (entries (declarations raw) ++ ['}'])) := by
  refine .braces (balanced_entries fun d hd => ⟨h d hd, fun hquote => hraw ?_⟩) .nil
  exact (Declaration.infix_of_mem hd).2.subset hquote

/-- The literal hides no attribute where each property name is balanced. In general it hides none
just if it is balanced as a whole. -/
theorem literal_hides_nothing {raw : Text} (hraw : '"' ∉ raw) :
    ((∀ d ∈ declarations raw, Balanced d.property) → HidesNothing raw) ∧
      (HidesNothing raw ↔ Balanced ('{' :: (entries (declarations raw) ++ ['}']))) :=
  ⟨fun h => (hidesNothing_iff hraw).2 (balanced_literal hraw h), hidesNothing_iff hraw⟩

theorem literal_hides_nothing_braceValue :
    '"' ∉ "content:'\x7d; fill-rule:\x7b".toList ∧ HidesNothing "content:'\x7d; fill-rule:\x7b".toList := by
  have hraw : '"' ∉ "content:'\x7d; fill-rule:\x7b".toList := by decide
  refine ⟨hraw, (literal_hides_nothing hraw).1 ?_⟩
  decide

/-- A quote in a comment comes into the key of a property, and the rest of the text is a string. -/
theorem literal_hides_stopColor :
    '"' ∉ "/* don't */ fill:red".toList ∧
      attributeNames ("<g style=".toList ++ styleLiteral "/* don't */ fill:red".toList ++
        " stop-color=\"blue\"/>".toList) = ["style".toList] ∧
      attributeNames ("<g style=\"".toList ++ "/* don't */ fill:red".toList ++
        '"' :: " stop-color=\"blue\"/>".toList) = ["style".toList, "stop-color".toList] := by
  refine ⟨by decide, ?_, ?_⟩
  · decide
  · decide

end SvgJsx.Transform
