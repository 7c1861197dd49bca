/-
# The amount of a selection

An amount sums up which files of a selection are there: all of them, none, or some.  Two counts are
compared to find it, and what comes out depends on no more than whether there is a file that is
missing and one that is not (`ofFlags_eq`).  So neither order nor repetition matters, and two
selections that are not empty add up to their common amount, or to the one in the middle.

After a run that succeeds the amount is always that of a selection whose files are all there.  Each
job has written its file, and no later write takes it away, also when jobs share a file or their
paths go through links (`willOverwrite_goThrough`).
-/
import EnumAssets.Proofs.Command.Batch
import EnumAssets.Proofs.Tree.Lasting

namespace EnumAssets

/-! ## 1. Amounts of flags -/

namespace Amount

variable {there there' : List Bool}

/-- **An amount** is told by which flags occur. -/
theorem ofFlags_eq (there : List Bool) : ofFlags there =
    if false ∉ there then .update else if true ∉ there then .generate else .updateAndGenerate := by
  have hall : there.count true = there.length ↔ false ∉ there := by
    rw [List.count_eq_length]
    constructor
    · intro h hmem
      cases h false hmem
    · intro h b hb
      cases b with
      | false => exact absurd hb h
      | true => rfl
  rw [ofFlags]
  simp only [hall, List.count_eq_zero]

theorem ofFlags_eq_update_iff : ofFlags there = .update ↔ false ∉ there := by
  rw [ofFlags_eq]
  split_ifs <;> simp_all

theorem ofFlags_eq_generate_iff : ofFlags there = .generate ↔ false ∈ there ∧ true ∉ there := by
  rw [ofFlags_eq]
  split_ifs <;> simp_all

theorem ofFlags_eq_updateAndGenerate_iff :
    ofFlags there = .updateAndGenerate ↔ false ∈ there ∧ true ∈ there := by
  rw [ofFlags_eq]
  split_ifs <;> simp_all

/-- Neither order nor repetition matters. -/
theorem ofFlags_congr (h : ∀ b, b ∈ there' ↔ b ∈ there) : ofFlags there' = ofFlags there := by
  rw [ofFlags_eq, ofFlags_eq]
  simp only [h]

theorem false_mem_iff : false ∈ there ↔ ofFlags there ≠ .update := by
  rw [Ne, ofFlags_eq_update_iff, not_not]

/-- In a selection that is not empty some flag occurs, so the missing files are not all there is. -/
theorem true_mem_iff (hne : there ≠ []) : true ∈ there ↔ ofFlags there ≠ .generate := by
  rw [Ne, ofFlags_eq_generate_iff, not_and, not_not]
  constructor
  · exact fun h _ => h
  · intro h
    obtain ⟨b, rest, rfl⟩ := List.exists_cons_of_ne_nil hne
    cases b with
    | false => exact h List.mem_cons_self
    | true => exact List.mem_cons_self

/-- **Two selections together** have their common amount, or some of their files are there. -/
theorem ofFlags_append (hne : there ≠ []) (hne' : there' ≠ []) : ofFlags (there ++ there') =
    if ofFlags there = ofFlags there' then ofFlags there else .updateAndGenerate := by
  split
  · next hsame =>
    refine ofFlags_congr fun b => ?_
    rw [List.mem_append]
    cases b with
    | false => rw [false_mem_iff, false_mem_iff, hsame, or_self]
    | true => rw [true_mem_iff hne, true_mem_iff hne', hsame, or_self]
  · next hdiff =>
    rw [ofFlags_eq_updateAndGenerate_iff, List.mem_append, List.mem_append, false_mem_iff,
      false_mem_iff, true_mem_iff hne, true_mem_iff hne', ← not_and_or, ← not_and_or]
    exact ⟨fun h => hdiff (h.1.trans h.2.symm), fun h => hdiff (h.1.trans h.2.symm)⟩

/-- What the amount of a selection tells. -/
structure Tells (there : List Bool) : Prop where
  update_iff : ofFlags there = .update ↔ false ∉ there
  generate_iff : ofFlags there = .generate ↔ false ∈ there ∧ true ∉ there
  both_iff : ofFlags there = .updateAndGenerate ↔ false ∈ there ∧ true ∈ there
  congr : ∀ there', (∀ b, b ∈ there' ↔ b ∈ there) → ofFlags there' = ofFlags there
  append : ∀ there', there ≠ [] → there' ≠ [] → ofFlags (there ++ there') =
    if ofFlags there = ofFlags there' then ofFlags there else .updateAndGenerate

end Amount

/-! ## 2. After a run -/

namespace Command

variable {t t' : Tree} {job : Job} {jobs : List Job}

/-- The turn of a job takes nothing away. -/
theorem Judged.lasts {outcome : Outcome} (h : Judged false t job t' outcome) : t.Lasts t' := by
  cases h with
  | invalid hcheck => exact .refl t
  | valid hcheck hmode => cases hmode
  | written hcheck hmode hwrite => exact Destination.lasts_of_write hwrite

/-- A job that passes has its file after its turn. -/
theorem Judged.willOverwrite {outcome : Outcome} (h : Judged false t job t' outcome)
    (hpass : job.Passes) : job.destination.willOverwrite t' job.declaration.fileName = true := by
  obtain ⟨c, hc⟩ := hpass
  cases h with
  | invalid hcheck =>
    rw [hc] at hcheck
    cases hcheck
  | valid hcheck hmode => cases hmode
  | @written c' _ p hcheck hmode hwrite =>
    rw [← c'.declaration_eq_of_check hcheck]
    exact Destination.willOverwrite_of_write hwrite

theorem lasts_goThrough : ∀ {jobs : List Job} {t : Tree}, (goThrough false t jobs).failure = none →
    t.Lasts (goThrough false t jobs).tree
  | [], t, _ => .refl t
  | job :: rest, t, hfailure => by
    rcases goThrough_cons false t job rest with
      ⟨t', outcome, hjudged, hrun⟩ | ⟨c, t', f, -, -, -, hrun⟩
    · rw [hrun] at hfailure ⊢
      exact hjudged.lasts.trans (lasts_goThrough hfailure)
    · rw [hrun] at hfailure
      cases hfailure

/-- **All files are there** after a run without a failure, if their jobs pass. -/
theorem willOverwrite_goThrough : ∀ {jobs : List Job} {t : Tree},
    (goThrough false t jobs).failure = none → ∀ j ∈ jobs, j.Passes →
      j.destination.willOverwrite (goThrough false t jobs).tree j.declaration.fileName = true
  | [], _, _, _, hj, _ => absurd hj List.not_mem_nil
  | job :: rest, t, hfailure, j, hj, hpass => by
    rcases goThrough_cons false t job rest with
      ⟨t', outcome, hjudged, hrun⟩ | ⟨c, t', f, -, -, -, hrun⟩
    · rw [hrun] at hfailure ⊢
      rcases List.mem_cons.mp hj with rfl | hj
      · exact Destination.willOverwrite_of_lasts (lasts_goThrough hfailure)
          (hjudged.willOverwrite hpass)
      · exact willOverwrite_goThrough hfailure j hj hpass
    · rw [hrun] at hfailure
      cases hfailure

/-- The amount of jobs is an update if all their files are there. -/
theorem amountOf_eq_update_iff : amountOf t jobs = .update ↔
    ∀ j ∈ jobs, j.destination.willOverwrite t j.declaration.fileName = true := by
  rw [amountOf, Amount.ofFlags_eq_update_iff, List.mem_map]
  simp

/-- **The amount of a selection is right**, and after every generating run that succeeds it is an
update, whatever it was before. -/
theorem amount_of_selection : (∀ there : List Bool, Amount.Tells there) ∧
    ∀ (t : Tree) (asked : Option Threshold) (args : Arguments), args.check = false →
      (perform t asked (.run args)).ending.status = 0 →
        ∃ config files jobs, Loads t args config files jobs ∧
          amountOf (perform t asked (.run args)).tree jobs = .update := by
  constructor
  · intro there
    constructor
    case update_iff => exact Amount.ofFlags_eq_update_iff
    case generate_iff => exact Amount.ofFlags_eq_generate_iff
    case both_iff => exact Amount.ofFlags_eq_updateAndGenerate_iff
    case congr => exact fun there' h => Amount.ofFlags_congr h
    case append => exact fun there' hne hne' => Amount.ofFlags_append hne hne'
  · intro t asked args hcheck hstatus
    have hending := Ending.status_eq_zero_iff.mp hstatus
    obtain ⟨config, files, jobs, h⟩ := loads_of_finished hending
    rw [h.ending_eq] at hending
    have hfailure := failure_of_ending_eq hending
    have hpass := (h.account hfailure).status_eq_zero_iff.mp hstatus
    rw [hcheck] at hfailure
    refine ⟨config, files, jobs, h, amountOf_eq_update_iff.mpr fun j hj => ?_⟩
    rw [h.tree_eq, hcheck]
    exact willOverwrite_goThrough hfailure j hj (hpass j hj)

namespace Sample

/-- Two assets for one file that is missing at first. -/
theorem update_of_tree :
    (arguments.check = false ∧ (perform tree none (.run arguments)).ending.status = 0) ∧
      amountOf tree [jobOf first "A", jobOf second "B"] = .generate ∧
      ∃ config files jobs, Loads tree arguments config files jobs ∧
        amountOf (perform tree none (.run arguments)).tree jobs = .update := by
  have hmissing : amountOf tree [jobOf first "A", jobOf second "B"] = .generate := by cbv
  exact ⟨⟨rfl, status_tree⟩, hmissing, amount_of_selection.2 tree none arguments rfl status_tree⟩

end Sample

end Command
end EnumAssets
