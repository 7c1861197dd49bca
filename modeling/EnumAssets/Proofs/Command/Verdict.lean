/-
# Verdicts and what is printed of them

`Accounts` says what the verdict on a job has to say, and every turn of a job that ends without a
failure gives such a verdict (`Judged.accounts`).

A verdict is only seen as a line of JSON.  So what it says is stated once more of the object that a
reader finds in that line: its keys, the path of the asset, the messages, whether there are none,
and the path of the generated file (`Shows`).  Nothing is lost between the two (`Accounts.shows`),
and the text of a run whose results are JSON has these objects and nothing else
(`readLines?_stdout`).
-/
import EnumAssets.Proofs.Command.Effect
import EnumAssets.Proofs.Text.Json

namespace EnumAssets.Command

variable {t t' : Tree} {check : Bool} {job : Job}

/-! ## 1. Declarations that pass -/

/-- Whether the declaration of a job passes the check. -/
def Job.Passes (j : Job) : Prop :=
  ∃ c, j.declaration.check = .ok c

theorem Job.passes_iff : job.Passes ↔ job.declaration.isValid = true := by
  rw [Job.Passes, Declaration.isValid, List.isEmpty_iff, Declaration.exists_check_eq_ok_iff]

/-! ## 2. One job -/

/-- **The turn of a job** that ends without a failure: the tree afterwards, and the outcome. -/
inductive Judged (check : Bool) (t : Tree) (job : Job) : Tree → Outcome → Prop where
  | invalid {ds : List Defect} (hcheck : job.declaration.check = .error ds) :
      Judged check t job t (.invalid (ds.map Defect.message))
  | valid {c : Checked Entry} (hcheck : job.declaration.check = .ok c) (hmode : check = true) :
      Judged check t job t .valid
  | written {c : Checked Entry} {t' : Tree} {p : Path} (hcheck : job.declaration.check = .ok c)
      (hmode : check = false) (hwrite : job.destination.write t c = (t', .ok p)) :
      Judged check t job t' (.written p)

/-- **A job is judged, and the run goes on; or its file cannot be written**, and the run ends. -/
theorem goThrough_cons (check : Bool) (t : Tree) (job : Job) (rest : List Job) :
    (∃ t' outcome, Judged check t job t' outcome ∧
      goThrough check t (job :: rest) = { goThrough check t' rest with
        verdicts := ⟨job.asset, outcome⟩ :: (goThrough check t' rest).verdicts }) ∨
    (∃ c t' f, job.declaration.check = .ok c ∧ check = false ∧
      job.destination.write t c = (t', .error f) ∧
      goThrough check t (job :: rest) = ⟨t', [], some (job.asset, f)⟩) := by
  rw [goThrough]
  cases hcheck : job.declaration.check with
  | error ds => exact Or.inl ⟨t, _, .invalid hcheck, rfl⟩
  | ok c =>
    cases check with
    | true => exact Or.inl ⟨t, .valid, .valid hcheck rfl, rfl⟩
    | false =>
      cases hwrite : job.destination.write t c with
      | mk t' result =>
        cases result with
        | ok p => exact Or.inl ⟨t', .written p, .written hcheck rfl hwrite, by simp [hwrite]⟩
        | error f => exact Or.inr ⟨c, t', f, rfl, rfl, hwrite, by simp [hwrite]⟩

/-- **What the verdict on a job says.** -/
structure Accounts (check : Bool) (job : Job) (v : Verdict) : Prop where
  asset_eq : v.asset = job.asset
  isOk_iff_messages : v.isOk = true ↔ v.messages = []
  isOk_iff : v.isOk = true ↔ job.Passes
  messages_eq : v.messages = job.declaration.messages
  /-- There is an output if the job passes and the run does more than check. -/
  isSome_output?_iff : v.output?.isSome = true ↔ job.Passes ∧ check = false
  /-- The output is the path of the generated file. -/
  path?_eq : ∀ p, v.output? = some p → job.destination.path? job.declaration.fileName = some p

theorem Judged.accounts {outcome : Outcome} (h : Judged check t job t' outcome) :
    Accounts check job ⟨job.asset, outcome⟩ := by
  cases h with
  | @invalid ds hcheck =>
    obtain ⟨rfl, hne⟩ := Declaration.check_eq_error_iff.mp hcheck
    have hfails : ¬ job.Passes := fun h => hne (Declaration.exists_check_eq_ok_iff.mp h)
    refine ⟨rfl, ?_, ?_, rfl, ?_, nofun⟩
    · simp [Verdict.isOk, Verdict.messages, hne]
    · simp [Verdict.isOk, hfails]
    · simp [Verdict.output?, hfails]
  | valid hcheck hmode =>
    have hpasses : job.Passes := ⟨_, hcheck⟩
    have hnone := Declaration.exists_check_eq_ok_iff.mp hpasses
    refine ⟨rfl, ?_, ?_, ?_, ?_, nofun⟩
    · simp [Verdict.isOk, Verdict.messages]
    · simp [Verdict.isOk, hpasses]
    · simp [Verdict.messages, Declaration.messages, hnone]
    · simp [Verdict.output?, hmode]
  | @written c _ p hcheck hmode hwrite =>
    have hpasses : job.Passes := ⟨_, hcheck⟩
    have hnone := Declaration.exists_check_eq_ok_iff.mp hpasses
    obtain ⟨hpath, -⟩ := Destination.write_eq_ok hwrite
    rw [c.declaration_eq_of_check hcheck] at hpath
    refine ⟨rfl, ?_, ?_, ?_, ?_, ?_⟩
    · simp [Verdict.isOk, Verdict.messages]
    · simp [Verdict.isOk, hpasses]
    · simp [Verdict.messages, Declaration.messages, hnone]
    · simp [Verdict.output?, hmode, hpasses]
    · rintro q hq
      rw [← Option.some.inj hq]
      exact hpath

/-! ## 3. What is printed -/

/-- **A text shows a path**: it is the path, or what is displayed of a path that is no text. -/
structure ShowsPath (p : Path) (s : String) : Prop where
  eq_display : s = p.display
  eq_of_text : ∀ text, p = .ofText text → s = text

theorem showsPath_display (p : Path) : ShowsPath p p.display := by
  refine ⟨rfl, ?_⟩
  rintro text rfl
  exact Utf8.decodeLossy_encode text

/-- **What the object on a job says**, field by field. -/
structure Shows (check : Bool) (job : Job) (o : Json.Object) : Prop where
  keys : o.map Prod.fst = ["errors", "ok", "output", "path"]
  path : ∃ s, o.lookup "path" = some (.text s) ∧ ShowsPath job.asset s
  errors : o.lookup "errors" = some (.texts job.declaration.messages)
  ok : ∃ b, o.lookup "ok" = some (.boolean b) ∧
    (b = true ↔ o.lookup "errors" = some (.texts [])) ∧ (b = true ↔ job.Passes)
  /-- There is an output if the job passes and the run does more than check. -/
  output_ne_null_iff : o.lookup "output" ≠ some .null ↔ job.Passes ∧ check = false
  /-- The output is the path of the generated file. -/
  output : o.lookup "output" ≠ some .null → ∃ p s, o.lookup "output" = some (.text s) ∧
    ShowsPath p s ∧ job.destination.path? job.declaration.fileName = some p

/-- The fields of the object of a verdict. -/
theorem lookup_object (v : Verdict) :
    v.object.lookup "errors" = some (.texts v.messages) ∧
      v.object.lookup "ok" = some (.boolean v.isOk) ∧
      v.object.lookup "output" = some (v.output?.elim .null fun p => .text p.display) ∧
      v.object.lookup "path" = some (.text v.asset.display) := by
  refine ⟨rfl, rfl, ?_, rfl⟩
  cases hout : v.output? <;> simp [Verdict.object, List.lookup, hout]

/-- **What a verdict says is what its object says.** -/
theorem Accounts.shows {v : Verdict} (h : Accounts check job v) : Shows check job v.object := by
  obtain ⟨herrors, hok, houtput, hpath⟩ := lookup_object v
  constructor
  case keys => rfl
  case path => exact ⟨_, hpath, h.asset_eq ▸ showsPath_display v.asset⟩
  case errors => rw [herrors, h.messages_eq]
  case ok =>
    refine ⟨_, hok, ?_, h.isOk_iff⟩
    rw [herrors, h.isOk_iff_messages]
    simp
  case output_ne_null_iff =>
    rw [houtput, ← h.isSome_output?_iff]
    cases v.output? <;> simp
  case output =>
    rw [houtput]
    cases hout : v.output? with
    | none => exact fun hne => absurd rfl hne
    | some p => exact fun _ => ⟨p, _, rfl, showsPath_display p, h.path?_eq p hout⟩

/-- **The text of a run that shows verdicts only** is read as their objects. -/
theorem readLines?_stdout {r : Report} {verdicts : List Verdict}
    (h : r.screen = verdicts.map .verdict) (elapsed : String) :
    Json.readLines? (r.stdout elapsed) = some (verdicts.map Verdict.object) := by
  rw [← Json.readLines?_ofList]
  congr 1
  apply String.toList_inj.mp
  simp [Report.stdout, h, String.toList_join, List.flatMap_map, Line.render, Verdict.json]

end EnumAssets.Command
