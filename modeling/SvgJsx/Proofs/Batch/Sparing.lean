import SvgJsx.Proofs.Batch.Watching

/-! An event about one drawing changes at most the file where that drawing has its component. The file
is not asked whom it belongs to, so drawings with one component path can lose theirs to each other. -/

namespace SvgJsx.Batch
open Text SvgJsx.Path FileTree

section Events

variable {s : Settings} {fs : FileTree} {p q : Path} {c : Content}

theorem spot_ne_of_claimed (hext : '/' ∉ s.extension) (hp : IsDrawing s.inputDir p)
    (hq : IsDrawing s.inputDir q) {sources : List Path}
    (hclaimedP : p ∈ (claimOutputs s sources).claimed)
    (hclaimedQ : q ∈ (claimOutputs s sources).claimed) (hne : p ≠ q) :
    fs.spot (s.outputPath p) ≠ fs.spot (s.outputPath q) := by
  obtain ⟨names, hlies⟩ := exists_lies_outputPath hext hp
  obtain ⟨names', hlies'⟩ := exists_lies_outputPath hext hq
  exact fun hspot => hne (eq_of_same_target hclaimedP hclaimedQ ((same_iff_spot hlies hlies').2 hspot))

/-- When an event about the drawing `p` spares the file where the drawing `q` has its component. A
removal does unless both component paths lead to one place; a change does unless a component of `p`
with another text is written there. Drawings that both own their component paths by the rule of a run
over the directory spare each other. -/
theorem handleEvent_spares_iff (hfile : fs.find (s.outputPath q) = .ok (.file c)) :
    ((handleEvent s fs (.removed p)).tree.find (s.outputPath q) = .ok (.file c) ↔
      fs.locate (s.outputPath p) ≠ fs.locate (s.outputPath q)) ∧
    ((handleEvent s fs (.changed p)).tree.find (s.outputPath q) = .ok (.file c) ↔
      ¬ ∃ t, component? s fs p = some t ∧
        (convertFile s fs p).result = .ok (.written (s.outputPath p)) ∧
        fs.spot (s.outputPath p) = fs.spot (s.outputPath q) ∧ c ≠ .text t) ∧
    ('/' ∉ s.extension → IsDrawing s.inputDir p → IsDrawing s.inputDir q → p ≠ q → ∀ sources,
      p ∈ (claimOutputs s sources).claimed → q ∈ (claimOutputs s sources).claimed →
        ∀ e : WatchEvent, e.path = p →
          (handleEvent s fs e).tree.find (s.outputPath q) = .ok (.file c)) := by
  refine ⟨find_removed hfile, find_changed hfile, ?_⟩
  intro hext hp hq hne sources hclaimedP hclaimedQ e he
  have hspot : fs.spot (s.outputPath p) ≠ fs.spot (s.outputPath q) :=
    spot_ne_of_claimed hext hp hq hclaimedP hclaimedQ hne
  cases e with
  | changed x =>
    obtain rfl : x = p := he
    exact (find_changed hfile).2 fun ⟨_, _, _, hsame, _⟩ => hspot hsame
  | removed x =>
    obtain rfl : x = p := he
    have hlocate := (find_eq_ok.1 hfile).1
    exact (find_removed hfile).2 fun hsame => hspot (spot_eq_of_locate (hsame.trans hlocate) hlocate)

end Events
section Icons

theorem handleEvent_spares_builtIcons :
    (builtIcons [] []).find (besideIcons.outputPath iconB) = .ok (.file (.text [])) ∧
    (builtIcons [] []).locate (besideIcons.outputPath iconA) ≠
      (builtIcons [] []).locate (besideIcons.outputPath iconB) ∧
    (handleEvent besideIcons (builtIcons [] []) (.removed iconA)).tree.find
      (besideIcons.outputPath iconB) = .ok (.file (.text [])) ∧
    (handleEvent besideIcons (builtIcons [] []) (.changed iconA)).tree.find
      (besideIcons.outputPath iconB) = .ok (.file (.text [])) := by
  have hfile : (builtIcons [] []).find (besideIcons.outputPath iconB) = .ok (.file (.text [])) := by
    decide
  have hlocate : (builtIcons [] []).locate (besideIcons.outputPath iconA) ≠
      (builtIcons [] []).locate (besideIcons.outputPath iconB) := by decide
  obtain ⟨hremoved, hchanged, -⟩ := handleEvent_spares_iff (p := iconA) hfile
  have hspot : (builtIcons [] []).spot (besideIcons.outputPath iconA) ≠
      (builtIcons [] []).spot (besideIcons.outputPath iconB) := by decide
  exact ⟨hfile, hlocate, hremoved.2 hlocate, hchanged.2 fun ⟨_, _, _, hsame, _⟩ => hspot hsame⟩

def arrowsWith (dash underscore component : Text) : FileTree :=
  { nodes :=
      [(["icons".toList], .directory),
       (["icons".toList, "arrow-left.svg".toList], .file (.text dash)),
       (["icons".toList, "arrow_left.svg".toList], .file (.text underscore)),
       (["out".toList], .directory),
       (["out".toList, "ArrowLeft.jsx".toList], .file (.text component))] }

def arrowDash : Path := ⟨"icons/arrow-left.svg".toList⟩

def arrowUnderscore : Path := ⟨"icons/arrow_left.svg".toList⟩

def arrowWith (dash component : Text) : FileTree :=
  (arrowsWith dash [] component).erase ((arrowsWith dash [] component).spot arrowUnderscore)

theorem claimedBelow_arrowsWith (dash underscore component t : Text) :
    claimedBelow besideIcons (arrowsWith dash underscore component) = [arrowDash] ∧
    claimedBelow besideIcons (arrowWith dash component) = [arrowDash] ∧
    (store (arrowsWith dash underscore component) (besideIcons.outputPath arrowUnderscore) t).2 =
      none := by
  have hboth : (arrowsWith dash underscore component).svgsBelow besideIcons.inputDir =
      [arrowDash, arrowUnderscore] := svgsBelow_of_pairwise rfl (by decide)
  have hone : (arrowWith dash component).svgsBelow besideIcons.inputDir = [arrowDash] :=
    svgsBelow_of_pairwise rfl (by decide)
  refine ⟨?_, ?_, by with_unfolding_all rfl⟩
  · rw [claimedBelow, hboth]
    decide
  · rw [claimedBelow, hone]
    decide

theorem find_arrowsWith (dash underscore component : Text) :
    (arrowsWith dash underscore component).find (besideIcons.outputPath arrowDash) =
      .ok (.file (.text component)) := by
  rfl

theorem find_arrowWith (dash component : Text) :
    (arrowWith dash component).find (besideIcons.outputPath arrowDash) =
      .ok (.file (.text component)) ∧
    (handleEvent besideIcons (arrowWith dash component) (.removed arrowUnderscore)).tree.find
      (besideIcons.outputPath arrowDash) = .error .notFound := by
  constructor <;> rfl

def markupOfDash : Text := "<svg id=\"dash\"></svg>".toList

def markupOfUnderscore : Text := "<svg id=\"underscore\"></svg>".toList

def componentOf (markup : Text) : Text := Component.render "ArrowLeft".toList markup

def arrows : FileTree := arrowsWith markupOfDash markupOfUnderscore (componentOf markupOfDash)

theorem component?_arrows :
    component? besideIcons arrows arrowDash = some (componentOf markupOfDash) ∧
    component? besideIcons arrows arrowUnderscore = some (componentOf markupOfUnderscore) := by
  have hdash : besideIcons.options.transform markupOfDash = markupOfDash := by decide
  have hunderscore : besideIcons.options.transform markupOfUnderscore = markupOfUnderscore := by decide
  have hreadDash : arrows.read arrowDash = .ok markupOfDash := by rfl
  have hreadUnderscore : arrows.read arrowUnderscore = .ok markupOfUnderscore := by rfl
  constructor
  · rw [component?_of_read hreadDash (by decide) (by decide), hdash, componentOf]
    rfl
  · rw [component?_of_read hreadUnderscore (by decide) (by decide), hunderscore, componentOf]
    rfl

/-- The first drawing owns the component path, and its component stands there. A change of the second
one overwrites it, and the removal of the second one takes it away. -/
theorem handleEvent_harms_owner :
    claimedBelow besideIcons arrows = [arrowDash] ∧ arrowUnderscore ≠ arrowDash ∧
    component? besideIcons arrows arrowDash = some (componentOf markupOfDash) ∧
    arrows.find (besideIcons.outputPath arrowDash) =
      .ok (.file (.text (componentOf markupOfDash))) ∧
    (handleEvent besideIcons arrows (.changed arrowUnderscore)).tree.find
      (besideIcons.outputPath arrowDash) ≠ .ok (.file (.text (componentOf markupOfDash))) ∧
    ∃ later, later = arrowWith markupOfDash (componentOf markupOfDash) ∧
      claimedBelow besideIcons later = [arrowDash] ∧
      later.find (besideIcons.outputPath arrowDash) =
        .ok (.file (.text (componentOf markupOfDash))) ∧
      (handleEvent besideIcons later (.removed arrowUnderscore)).tree.find
        (besideIcons.outputPath arrowDash) = .error .notFound := by
  obtain ⟨hdash, hunderscore⟩ := component?_arrows
  obtain ⟨hclaimed, hclaimed', hstored⟩ := claimedBelow_arrowsWith markupOfDash markupOfUnderscore
    (componentOf markupOfDash) (componentOf markupOfUnderscore)
  have hfile := find_arrowsWith markupOfDash markupOfUnderscore (componentOf markupOfDash)
  refine ⟨hclaimed, by decide, hdash, hfile, fun hkept => ?_, _, rfl, hclaimed', find_arrowWith ..⟩
  have hne : Content.text (componentOf markupOfDash) ≠ .text (componentOf markupOfUnderscore) :=
    fun h => absurd (Component.render_injective _ (Content.text.inj h)) (by decide)
  have hspot : arrows.spot (besideIcons.outputPath arrowUnderscore) =
      arrows.spot (besideIcons.outputPath arrowDash) := by decide
  exact (find_changed hfile).1 hkept ⟨_, hunderscore, (written_iff_stored hunderscore).2 hstored,
    hspot, hne⟩

end Icons
end SvgJsx.Batch
