import SvgJsx.Proofs.Markup.Words
import SvgJsx.Proofs.Transform.CamelNames
import SvgJsx.Transform.RenameTable

/-! The words of the rename table. There are few of them, so what holds of them is decided one by
one. -/

namespace SvgJsx.Transform
open Text Markup

/-- The entries of the table: words with the same first letter, the new one shorter. -/
theorem exists_words {r : Renaming} (h : r ∈ renameTable) :
    ∃ c v v', r = ⟨c :: v, c :: v'⟩ ∧ c.isLower = true ∧ (∀ d ∈ v, isWordPart d = true) ∧
      (∀ d ∈ v', isWordPart d = true) ∧ v'.length < v.length := by
  have key : ∀ r ∈ renameTable, r = ⟨r.source.headD ' ' :: r.source.tail,
      r.source.headD ' ' :: r.target.tail⟩ ∧ (r.source.headD ' ').isLower = true ∧
      (∀ d ∈ r.source.tail, isWordPart d = true) ∧ (∀ d ∈ r.target.tail, isWordPart d = true) ∧
      r.target.tail.length < r.source.tail.length := by decide
  exact ⟨_, _, _, key r h⟩

theorem joined_source {r : Renaming} (h : r ∈ renameTable) : Joined r.source := by
  have key : ∀ r ∈ renameTable, ∃ i < 12, isJoined ((r.source.drop i).take 3) = true := by decide
  obtain ⟨i, -, hi⟩ := key r h
  exact ⟨_, (List.take_prefix ..).isInfix.trans (List.drop_suffix ..).isInfix, hi⟩

theorem table_apart : ∀ r ∈ renameTable, ∀ r' ∈ renameTable, (r'.source <:+ r.source → r' = r) ∧
    ¬ r'.source <:+ r.target ∧ ¬ r.target <:+ r'.source := by decide

theorem source_plain : ∀ r ∈ renameTable, r.source ≠ [] ∧ '=' ∉ r.source ∧ '=' ∉ r.target := by
  decide

end SvgJsx.Transform
