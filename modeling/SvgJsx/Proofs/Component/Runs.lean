import Mathlib.Logic.ExistsUnique
import SvgJsx.Proofs.Component.Name

/-! The name that a stem gives is made of the stem's runs of letters and digits alone, whatever stands
between them, and a name that has been made so gives itself. -/

namespace SvgJsx.Component
open Text

/-- The runs of ASCII letters and digits of a text, each as long as it can be, in their order. -/
inductive HasRuns : List Text → Text → Prop where
  | nil {gap : Text} (hgap : ∀ c ∈ gap, c.isAlphanum = false) : HasRuns [] gap
  | cons {gap run rest : Text} {runs : List Text} (hgap : ∀ c ∈ gap, c.isAlphanum = false)
      (hne : run ≠ []) (hrun : ∀ c ∈ run, c.isAlphanum = true)
      (hend : ∀ c ∈ rest.head?, c.isAlphanum = false) (hrest : HasRuns runs rest) :
      HasRuns (run :: runs) (gap ++ (run ++ rest))

section Runs

variable {t : Text} {runs : List Text}

theorem head_gap {gap : Text} (hne : gap ≠ []) (hgap : ∀ c ∈ gap, c.isAlphanum = false) (rest : Text) :
    ∀ c ∈ (gap ++ rest).head?, c.isAlphanum = false := by
  obtain ⟨d, gap, rfl⟩ := List.exists_cons_of_ne_nil hne
  intro c hc
  obtain rfl : d = c := Option.some.inj hc
  exact hgap d (List.mem_cons_self ..)

theorem HasRuns.cons_gap {c : Char} (hc : c.isAlphanum = false) (h : HasRuns runs t) :
    HasRuns runs (c :: t) := by
  cases h with
  | nil hgap => exact .nil (List.forall_mem_cons.2 ⟨hc, hgap⟩)
  | cons hgap hne hrun hend hrest =>
    exact .cons (List.forall_mem_cons.2 ⟨hc, hgap⟩) hne hrun hend hrest

theorem HasRuns.exists_cons {c : Char} (hc : c.isAlphanum = true) (h : HasRuns runs t) :
    ∃ runs', HasRuns runs' (c :: t) := by
  -- the letter begins a run of its own, or stands before the first one
  have hsingle : ∀ d ∈ [c], d.isAlphanum = true := List.forall_mem_singleton.2 hc
  have hnone : ∀ d ∈ ([] : Text), d.isAlphanum = false := fun d hd => absurd hd List.not_mem_nil
  cases h with
  | nil hgap =>
    have hend : ∀ d ∈ t.head?, d.isAlphanum = false := fun d hd => hgap d (List.mem_of_mem_head? hd)
    exact ⟨[[c]], .cons hnone (List.cons_ne_nil c []) hsingle hend (.nil hgap)⟩
  | @cons gap run rest runs hgap hne hrun hend hrest =>
    cases gap with
    | nil =>
      have hlonger : ∀ d ∈ c :: run, d.isAlphanum = true := List.forall_mem_cons.2 ⟨hc, hrun⟩
      exact ⟨(c :: run) :: runs, .cons hnone (List.cons_ne_nil c run) hlonger hend hrest⟩
    | cons d gap =>
      exact ⟨[c] :: run :: runs, .cons hnone (List.cons_ne_nil c []) hsingle
        (head_gap (List.cons_ne_nil d gap) hgap _) (.cons hgap hne hrun hend hrest)⟩

theorem exists_hasRuns (t : Text) : ∃ runs, HasRuns runs t := by
  induction t with
  | nil => exact ⟨[], .nil fun c hc => absurd hc List.not_mem_nil⟩
  | cons c t ih =>
    obtain ⟨runs, h⟩ := ih
    cases hc : c.isAlphanum with
    | true => exact h.exists_cons hc
    | false => exact ⟨runs, h.cons_gap hc⟩

def filledPieces (t : Text) : List Text := (pieces (fun c => !c.isAlphanum) t).filter (· ≠ [])

theorem filledPieces_append_cons {c : Char} (hc : c.isAlphanum = false) (s t : Text) :
    filledPieces (s ++ c :: t) = filledPieces s ++ filledPieces t := by
  have hsep : (!c.isAlphanum) = true := by rw [hc]; rfl
  have hpieces : pieces (fun d => !d.isAlphanum) (s ++ c :: t) = _ := pieces_append_cons hsep s t
  rw [filledPieces, hpieces, List.filter_append]
  rfl

theorem filledPieces_gap {gap : Text} (hgap : ∀ c ∈ gap, c.isAlphanum = false) (t : Text) :
    filledPieces (gap ++ t) = filledPieces t := by
  induction gap with
  | nil => rfl
  | cons c gap ih =>
    rw [List.forall_mem_cons] at hgap
    exact (filledPieces_append_cons hgap.1 [] (gap ++ t)).trans (ih hgap.2)

theorem filledPieces_run {run rest : Text} (hne : run ≠ []) (hrun : ∀ c ∈ run, c.isAlphanum = true)
    (hend : ∀ c ∈ rest.head?, c.isAlphanum = false) :
    filledPieces (run ++ rest) = run :: filledPieces rest := by
  have hpieces : pieces (fun c => !c.isAlphanum) run = [run] :=
    pieces_of_forall fun c hc => by rw [hrun c hc]; rfl
  have hsingle : filledPieces run = [run] := by
    rw [filledPieces, hpieces]
    simp [hne]
  cases rest with
  | nil =>
    rw [List.append_nil, hsingle]
    rfl
  | cons c rest =>
    have hc : c.isAlphanum = false := hend c rfl
    rw [filledPieces_append_cons hc, hsingle]
    exact congrArg (run :: ·) (filledPieces_append_cons hc [] rest).symm

theorem HasRuns.eq_filledPieces (h : HasRuns runs t) : runs = filledPieces t := by
  induction h with
  | nil hgap =>
    have hnone := filledPieces_gap hgap []
    rw [List.append_nil] at hnone
    exact hnone.symm
  | cons hgap hne hrun hend _ ih => rw [filledPieces_gap hgap, filledPieces_run hne hrun hend, ← ih]

end Runs
section Names

theorem flatten_capitalize_filter (ps : List Text) :
    ((ps.filter (· ≠ [])).map capitalize).flatten = (ps.map capitalize).flatten := by
  induction ps with
  | nil => rfl
  | cons p ps ih =>
    cases p with
    | nil => exact ih
    | cons c p => exact congrArg (capitalize (c :: p) ++ ·) ih

theorem nameOfStem_congr {stem other : Text} (h : filledPieces stem = filledPieces other) :
    nameOfStem stem = nameOfStem other := by
  have hjoined := congrArg (fun words => (words.map capitalize).flatten) h
  rw [filledPieces, filledPieces, flatten_capitalize_filter, flatten_capitalize_filter] at hjoined
  rw [nameOfStem, nameOfStem, hjoined]

theorem nameOfStem_eq_self {c : Char} {t : Text} (hc : c.isUpper = true)
    (ht : ∀ d ∈ t, d.isAlphanum = true) : nameOfStem (c :: t) = c :: t := by
  have hletters : ∀ d ∈ c :: t, d.isAlphanum = true :=
    List.forall_mem_cons.2 ⟨isAlphanum_of_isUpper hc, ht⟩
  have hpieces : pieces (fun d => !d.isAlphanum) (c :: t) = [c :: t] :=
    pieces_of_forall fun d hd => by rw [hletters d hd]; rfl
  have hjoined : ([c :: t].map capitalize).flatten = c :: t := by
    rw [List.map_singleton, List.flatten_singleton, capitalize, toUpper_of_isUpper hc]
  rw [nameOfStem, hpieces, hjoined]
  exact if_neg (by rw [not_isDigit_of_isUpper hc]; exact Bool.false_ne_true)

end Names

/-- The name that a stem gives is an identifier of ASCII letters and digits that begins with an
uppercase letter. It gives itself, and it hangs on nothing but the runs of letters and digits of the
stem, which every stem has in one way. -/
theorem nameOfStem_canonical (stem : Text) :
    isIdentifier (nameOfStem stem) = true ∧
    (∀ c ∈ nameOfStem stem, c.isAlphanum = true) ∧
    (∃ c t, nameOfStem stem = c :: t ∧ c.isUpper = true) ∧
    nameOfStem (nameOfStem stem) = nameOfStem stem ∧
    (∃! runs, HasRuns runs stem) ∧
    ∀ runs other, HasRuns runs stem → HasRuns runs other → nameOfStem other = nameOfStem stem := by
  obtain ⟨c, t, hname, hupper, ht⟩ := exists_nameOfStem stem
  refine ⟨isIdentifier_nameOfStem stem, fun c hc => isAlphanum_nameOfStem hc, ⟨c, t, hname, hupper⟩,
    ?_, ?_, fun runs other hstem hother => nameOfStem_congr ?_⟩
  · rw [hname]
    exact nameOfStem_eq_self hupper ht
  · obtain ⟨runs, hruns⟩ := exists_hasRuns stem
    refine ⟨runs, hruns, fun runs' hruns' => ?_⟩
    rw [hruns'.eq_filledPieces, hruns.eq_filledPieces]
  · rw [← hother.eq_filledPieces, hstem.eq_filledPieces]

/-- A stem whose runs begin with a digit, and the same runs with other characters around them, one of
them a letter that is not ASCII. -/
theorem nameOfStem_canonical_otherGaps :
    HasRuns ["2d".toList, "view".toList] "2d-view".toList ∧
    HasRuns ["2d".toList, "view".toList] "-2dé view.".toList ∧
    nameOfStem "-2dé view.".toList = nameOfStem "2d-view".toList ∧
    nameOfStem "2d-view".toList = "Svg2dView".toList := by
  have hboth : ∀ first gap rest : Text, (∀ c ∈ first, c.isAlphanum = false) → gap ≠ [] →
      (∀ c ∈ gap, c.isAlphanum = false) → (∀ c ∈ rest, c.isAlphanum = false) →
      HasRuns ["2d".toList, "view".toList]
        (first ++ ("2d".toList ++ (gap ++ ("view".toList ++ rest)))) :=
    fun first gap rest hfirst hne hgap hrest =>
      .cons hfirst (by decide) (by decide) (head_gap hne hgap _)
        (.cons hgap (by decide) (by decide) (fun c hc => hrest c (List.mem_of_mem_head? hc))
          (.nil hrest))
  have hstem := hboth [] ['-'] [] (by decide) (by decide) (by decide) (by decide)
  have hother := hboth ['-'] "é ".toList ['.'] (by decide) (by decide) (by decide) (by decide)
  obtain ⟨-, -, -, -, -, hsame⟩ := nameOfStem_canonical "2d-view".toList
  exact ⟨hstem, hother, hsame _ _ hstem hother, by decide⟩

end SvgJsx.Component
