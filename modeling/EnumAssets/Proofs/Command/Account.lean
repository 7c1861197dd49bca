/-
# The account of a run

What a run says about its assets, in verdicts or in numbers, is a matter of their declarations: the
verdict on a job is `Accounts`, and going through jobs without a failure gives one for each of them,
in order (`accounts_goThrough`).  The numbers of the summary and the exit status are counted from
these.

The numbers and the objects are those of the text that is printed, not only of what is to be
printed: `Account` speaks of `Report.stdout` and of what a reader of JSON finds there.

Only the screen depends on the form of the results, and only the tree and the outputs depend on
whether the run just checks; `perform_agreement` puts these facts together.  Each of them is proved
for one job (`Judged`) and then for all by induction on the jobs.
-/
import EnumAssets.Proofs.Command.Verdict
import EnumAssets.Proofs.Path.Order

namespace EnumAssets.Command

variable {t t' : Tree} {check : Bool} {job : Job} {jobs : List Job}

/-! ## 1. All jobs -/

/-- **A run without a failure** gives one verdict on each job, in the order of the jobs. -/
theorem accounts_goThrough : ∀ {jobs : List Job} {t : Tree},
    (goThrough check t jobs).failure = none →
      List.Forall₂ (Accounts check) jobs (goThrough check t jobs).verdicts
  | [], _, _ => List.Forall₂.nil
  | job :: rest, t, h => by
    rcases goThrough_cons check t job rest with
      ⟨t', outcome, hjudged, hrun⟩ | ⟨c, t', f, -, -, -, hrun⟩
    · rw [hrun] at h ⊢
      exact List.Forall₂.cons hjudged.accounts (accounts_goThrough h)
    · rw [hrun] at h
      cases h

/-- A run that only checks does not fail and changes nothing. -/
theorem goThrough_true : ∀ (jobs : List Job) (t : Tree),
    (goThrough true t jobs).failure = none ∧ (goThrough true t jobs).tree = t
  | [], _ => ⟨rfl, rfl⟩
  | job :: rest, t => by
    rcases goThrough_cons true t job rest with
      ⟨t', outcome, hjudged, hrun⟩ | ⟨-, -, -, -, hmode, -, -⟩
    · have htree : t' = t := by
        cases hjudged with
        | invalid hcheck => rfl
        | valid hcheck hmode => rfl
        | written hcheck hmode hwrite => cases hmode
      rw [hrun, htree]
      exact goThrough_true rest t
    · cases hmode

/-- What verdicts say about assets, their files apart: the paths, whether they are valid, and the
messages. -/
def judgements (verdicts : List Verdict) : List (Path × Bool × List String) :=
  verdicts.map fun v => (v.asset, v.isOk, v.messages)

/-- **What verdicts say is said by the jobs**, whether or not the run only checks. -/
theorem judgements_eq {verdicts : List Verdict} (h : List.Forall₂ (Accounts check) jobs verdicts) :
    judgements verdicts =
      jobs.map fun j => (j.asset, j.declaration.isValid, j.declaration.messages) := by
  rw [judgements, ← List.forall₂_eq_eq_eq, List.forall₂_map_left_iff, List.forall₂_map_right_iff]
  refine h.flip.imp fun v j hj => ?_
  have hvalid : v.isOk = j.declaration.isValid := by
    rw [Bool.eq_iff_iff, hj.isOk_iff, Job.passes_iff]
  rw [hj.asset_eq, hvalid, hj.messages_eq]

/-- There are as many verdicts on invalid assets as there are jobs with defects. -/
theorem countP_invalid_eq {verdicts : List Verdict}
    (h : List.Forall₂ (Accounts check) jobs verdicts) :
    verdicts.countP (fun v => !v.isOk) = jobs.countP fun j => !j.declaration.isValid := by
  have hcount := congrArg (List.countP fun said => !said.2.1) (judgements_eq h)
  rwa [judgements, List.countP_map, List.countP_map] at hcount

/-- There are as many outputs as there are valid jobs, and none if the run only checks. -/
theorem countP_output_eq {verdicts : List Verdict}
    (h : List.Forall₂ (Accounts check) jobs verdicts) :
    verdicts.countP (fun v => v.output?.isSome) =
      if check then 0 else jobs.countP fun j => j.declaration.isValid := by
  induction h with
  | nil => simp
  | @cons job v jobs verdicts hv hrest ih =>
    rw [List.countP_cons, ih, List.countP_cons]
    have hsome := hv.isSome_output?_iff
    rw [Job.passes_iff] at hsome
    cases check with
    | true => simp [hsome]
    | false => simp [hsome]

/-- A run without a failure ends with the number of invalid jobs. -/
theorem ending_of_failure_eq_none (h : (goThrough check t jobs).failure = none) :
    (goThrough check t jobs).ending = .finished (jobs.countP fun j => !j.declaration.isValid) := by
  rw [Progress.ending, h, ← countP_invalid_eq (accounts_goThrough h)]

/-! ## 2. A whole run -/

variable {asked : Option Threshold} {args : Arguments} {config : Config} {files : List Path}

theorem failure_of_ending_eq {p : Progress} {invalid : Nat} (h : p.ending = .finished invalid) :
    p.failure = none := by
  rw [Progress.ending] at h
  split at h
  · cases h
  · assumption

/-- A run that finishes has loaded. -/
theorem loads_of_finished {invalid : Nat}
    (h : (perform t asked (.run args)).ending = .finished invalid) :
    ∃ config files jobs, Loads t args config files jobs := by
  by_contra hnone
  push Not at hnone
  obtain ⟨⟨message, causes, hending⟩, -⟩ := @stops_of_not_loads t args asked hnone
  rw [hending] at h
  cases h

/-- **The account of a run** without a failure. -/
structure Account (t : Tree) (args : Arguments) (files : List Path) (jobs : List Job)
    (r : Report) : Prop where
  /-- There is one job for each asset, in order, with what the asset declares. -/
  jobs_files : List.Forall₂ (fun p (j : Job) =>
    j.asset = p ∧ ∃ asset, Asset.load t p = .ok asset ∧ j.declaration = asset.declaration)
    files jobs
  /-- Assets that are named keep their order. -/
  named : args.assets ≠ [] → files = args.assets
  /-- Assets that are found ascend. -/
  found : args.assets = [] → Path.Ascending files
  /-- In JSON there is one object on each job, in order, and nothing else. -/
  json : args.report = .json → ∃ verdicts,
    r.screen = verdicts.map .verdict ∧ List.Forall₂ (Accounts args.check) jobs verdicts
  /-- In text there are the numbers of a summary, below other text. -/
  text : args.report = .text → ∃ lines, (∀ line ∈ lines, ∃ s, line = .text s) ∧
    r.screen = lines ++ [.summary (jobs.countP fun j => j.declaration.isValid)
      (jobs.countP fun j => !j.declaration.isValid)
      (if args.check then 0 else jobs.countP fun j => j.declaration.isValid)]
  /-- What is printed in JSON is read as one object on each job, in order, and nothing else. -/
  printed_json : args.report = .json → ∀ elapsed, ∃ objects,
    Json.readLines? (r.stdout elapsed) = some objects ∧
      List.Forall₂ (Shows args.check) jobs objects
  /-- What is printed as text ends with the line of the summary, below other lines. -/
  printed_text : args.report = .text → ∀ elapsed, ∃ lines : List String,
    r.stdout elapsed = String.join (lines.map (· ++ "\n")) ++
      ("Done! " ++ Nat.repr (jobs.countP fun j => j.declaration.isValid) ++ " valid, " ++
        Nat.repr (jobs.countP fun j => !j.declaration.isValid) ++ " invalid, " ++
        Nat.repr (if args.check then 0 else jobs.countP fun j => j.declaration.isValid) ++
        " file(s) written in " ++ elapsed ++ "\n")
  valid_add_invalid : (jobs.countP fun j => j.declaration.isValid) +
    (jobs.countP fun j => !j.declaration.isValid) = files.length
  status_eq_zero_iff : r.ending.status = 0 ↔ ∀ j ∈ jobs, j.Passes
  status_eq_one_iff : r.ending.status = 1 ↔ ∃ j ∈ jobs, ¬ j.Passes

theorem ascending_of_findAssets (h : findAssets t args config = .ok files)
    (hnil : args.assets = []) : Path.Ascending files := by
  rw [findAssets, hnil, collect] at h
  cases hfound : config.sources.mapM (Source.assets t (sourceRoot args)) with
  | error f =>
    rw [hfound] at h
    cases h
  | ok found =>
    rw [hfound] at h
    cases h
    exact Path.ascending_arrange _

theorem eq_assets_of_findAssets (h : findAssets t args config = .ok files)
    (hne : args.assets ≠ []) : files = args.assets := by
  rw [findAssets, if_neg (by rwa [List.isEmpty_iff])] at h
  split at h
  · cases h
  · cases h
    rfl

/-- The numbers of valid and of invalid jobs add up. -/
theorem countP_valid_add (jobs : List Job) :
    (jobs.countP fun j => j.declaration.isValid) + (jobs.countP fun j => !j.declaration.isValid) =
      jobs.length := by
  rw [List.length_eq_countP_add_countP fun j : Job => j.declaration.isValid]
  simp

/-- The lines after all assets, in numbers of jobs. -/
theorem closing_eq {verdicts : List Verdict} (h : List.Forall₂ (Accounts check) jobs verdicts) :
    closing verdicts = [.text "", .text rule,
      .summary (jobs.countP fun j => j.declaration.isValid)
        (jobs.countP fun j => !j.declaration.isValid)
        (if check then 0 else jobs.countP fun j => j.declaration.isValid)] := by
  have hvalid : verdicts.length - (jobs.countP fun j => !j.declaration.isValid) =
      jobs.countP fun j => j.declaration.isValid := by
    rw [← h.length_eq, ← countP_valid_add, Nat.add_sub_cancel_right]
  rw [closing, countP_invalid_eq h, countP_output_eq h, hvalid]

/-- What is on the screen of a run whose results are JSON. -/
theorem Loads.screen_eq_of_json (h : Loads t args config files jobs) (hform : args.report = .json) :
    (perform t asked (.run args)).screen =
      (goThrough args.check t jobs).verdicts.map .verdict := by
  simp [h.screen_eq, onText, onJson, hform]

/-- What is on the screen of a run whose results are text, if it has no failure: other text, then
the numbers of jobs. -/
theorem Loads.screen_eq_of_text (h : Loads t args config files jobs) (asked : Option Threshold)
    (hform : args.report = .text) (hfailure : (goThrough args.check t jobs).failure = none) :
    ∃ texts : List String,
    (perform t asked (.run args)).screen = texts.map .text ++
      [.summary (jobs.countP fun j => j.declaration.isValid)
        (jobs.countP fun j => !j.declaration.isValid)
        (if args.check then 0 else jobs.countP fun j => j.declaration.isValid)] := by
  obtain ⟨texts, htexts⟩ : ∃ texts : List String, introduction ++ foundLines files.length ++
      stageLines args (amountOf t jobs) ++ [.text "", .text rule] = texts.map Line.text := by
    refine ⟨_ :: _ :: _ :: _ :: _ :: _ :: _ :: _ :: _ :: _ :: _ :: [], rfl⟩
  refine ⟨texts, ?_⟩
  rw [← htexts]
  simp [h.screen_eq, onText, onJson, hform, hfailure, closing_eq (accounts_goThrough hfailure)]

/-- **The account of a run** that loads and goes through its jobs without a failure. -/
theorem Loads.account (h : Loads t args config files jobs)
    (hfailure : (goThrough args.check t jobs).failure = none) :
    Account t args files jobs (perform t asked (.run args)) := by
  have hverdicts := accounts_goThrough hfailure
  have hjobs := mapM_eq_ok_iff.mp h.jobs_eq
  have hstatus : (perform t asked (.run args)).ending.status =
      if (jobs.countP fun j => !j.declaration.isValid) = 0 then 0 else 1 := by
    rw [h.ending_eq, ending_of_failure_eq_none hfailure, Ending.status]
  have hzero : (jobs.countP fun j => !j.declaration.isValid) = 0 ↔ ∀ j ∈ jobs, j.Passes := by
    simp [List.countP_eq_zero, Job.passes_iff]
  constructor
  case jobs_files =>
    refine hjobs.imp fun p j hj => ?_
    obtain ⟨asset, hasset, rfl⟩ := loadJob_eq_ok_iff.mp hj
    exact ⟨rfl, asset, hasset, rfl⟩
  case named => exact eq_assets_of_findAssets h.files_eq
  case found => exact ascending_of_findAssets h.files_eq
  case json => exact fun hform => ⟨_, h.screen_eq_of_json hform, hverdicts⟩
  case text =>
    intro hform
    obtain ⟨texts, hscreen⟩ := h.screen_eq_of_text asked hform hfailure
    refine ⟨texts.map .text, ?_, hscreen⟩
    intro line hline
    obtain ⟨s, -, hs⟩ := List.mem_map.mp hline
    exact ⟨s, hs.symm⟩
  case printed_json =>
    intro hform elapsed
    refine ⟨_, readLines?_stdout (h.screen_eq_of_json hform) elapsed, ?_⟩
    rw [List.forall₂_map_right_iff]
    exact hverdicts.imp fun _ _ => Accounts.shows
  case printed_text =>
    intro hform elapsed
    obtain ⟨texts, hscreen⟩ := h.screen_eq_of_text asked hform hfailure
    refine ⟨texts, String.toList_inj.mp ?_⟩
    simp [Report.stdout, hscreen, String.toList_join, List.flatMap_map, Line.render]
  case valid_add_invalid => rw [countP_valid_add, hjobs.length_eq]
  case status_eq_zero_iff =>
    rw [hstatus, ← hzero]
    split
    · next hnone => exact iff_of_true rfl hnone
    · next hsome => exact iff_of_false (by decide) hsome
  case status_eq_one_iff =>
    have hone : (∃ j ∈ jobs, ¬ j.Passes) ↔ ¬ ∀ j ∈ jobs, j.Passes := by
      push Not
      rfl
    rw [hstatus, hone, ← hzero]
    split
    · next hnone => exact iff_of_false (by decide) (not_not.mpr hnone)
    · next hsome => exact iff_of_true rfl hsome

/-! ## 3. Runs that differ in their options -/

theorem Loads.withCheck (h : Loads t args config files jobs) (check : Bool) :
    Loads t { args with check := check } config files jobs :=
  ⟨h.config_eq, h.files_eq, h.jobs_eq⟩

/-- The verdicts on the screen are those of going through the jobs, if the results are JSON. -/
theorem Loads.verdicts_eq (h : Loads t args config files jobs) :
    (perform t asked (.run args)).verdicts =
      if args.report = .json then (goThrough args.check t jobs).verdicts else [] := by
  have hclosing (verdicts : List Verdict) (failure : Option (Path × Failure)) :
      (if failure.isNone then onText args (closing verdicts) else []).filterMap Line.verdict? =
        [] := by
    split
    · exact filterMap_onText rfl
    · rfl
  rw [Report.verdicts, h.screen_eq, List.filterMap_append, List.filterMap_append,
    filterMap_onText rfl, hclosing, List.nil_append, List.append_nil, onJson]
  split
  · rw [List.filterMap_map]
    exact List.filterMap_some
  · rfl

/-- A run changes nothing if it only checks. -/
theorem tree_of_check (hcheck : args.check = true) : (perform t asked (.run args)).tree = t := by
  by_cases hloads : ∃ config files jobs, Loads t args config files jobs
  · obtain ⟨config, files, jobs, h⟩ := hloads
    rw [h.tree_eq, hcheck]
    exact (goThrough_true jobs t).2
  · push Not at hloads
    exact (stops_of_not_loads hloads).2.1

/-- **A run that only checks** says about the assets what a run says that writes their files. -/
theorem check_agrees {invalid : Nat}
    (h : (perform t asked (.run { args with check := false })).ending = .finished invalid) :
    (perform t asked (.run { args with check := true })).ending = .finished invalid ∧
      judgements (perform t asked (.run { args with check := true })).verdicts =
        judgements (perform t asked (.run { args with check := false })).verdicts := by
  obtain ⟨config, files, jobs, hloads⟩ := loads_of_finished h
  have hloads' : Loads t { args with check := true } config files jobs := hloads.withCheck true
  rw [hloads.ending_eq] at h
  have hfailure := failure_of_ending_eq h
  have hfailure' := (goThrough_true jobs t).1
  constructor
  · rw [hloads'.ending_eq, ← h, ending_of_failure_eq_none hfailure,
      ending_of_failure_eq_none hfailure']
  · have hwritten := accounts_goThrough hfailure
    have hchecked := accounts_goThrough hfailure'
    rw [hloads.verdicts_eq, hloads'.verdicts_eq]
    by_cases hform : args.report = .json
    · rw [if_pos hform, if_pos hform, judgements_eq hwritten, judgements_eq hchecked]
    · rw [if_neg hform, if_neg hform]

/-- What an object says about an asset, its file apart. -/
def judgementOf (o : Json.Object) : Option Json.Value × Option Json.Value × Option Json.Value :=
  (o.lookup "path", o.lookup "ok", o.lookup "errors")

/-- What the objects of verdicts say is said by the verdicts. -/
theorem map_judgementOf (verdicts : List Verdict) :
    (verdicts.map Verdict.object).map judgementOf = (judgements verdicts).map fun said =>
      (some (.text said.1.display), some (.boolean said.2.1), some (.texts said.2.2)) := by
  rw [judgements, List.map_map, List.map_map]
  rfl

/-- **A run that only checks** prints about the assets what a run prints that writes their files. -/
theorem check_prints (hform : args.report = .json) {invalid : Nat}
    (h : (perform t asked (.run { args with check := false })).ending = .finished invalid)
    (elapsed elapsed' : String) : ∃ checked written,
      Json.readLines? ((perform t asked (.run { args with check := true })).stdout elapsed) =
          some checked ∧
        Json.readLines? ((perform t asked (.run { args with check := false })).stdout elapsed') =
          some written ∧
        checked.map judgementOf = written.map judgementOf := by
  obtain ⟨config, files, jobs, hloads⟩ := loads_of_finished h
  have hloads' : Loads t { args with check := true } config files jobs := hloads.withCheck true
  rw [hloads.ending_eq] at h
  have hwritten := accounts_goThrough (failure_of_ending_eq h)
  have hchecked := accounts_goThrough (goThrough_true jobs t).1
  refine ⟨_, _, readLines?_stdout (hloads'.screen_eq_of_json hform) elapsed,
    readLines?_stdout (hloads.screen_eq_of_json hform) elapsed', ?_⟩
  rw [map_judgementOf, map_judgementOf, judgements_eq hchecked, judgements_eq hwritten]

/-- The form of the results is a matter of the screen alone. -/
theorem form_agrees (form : ReportForm) :
    (perform t asked (.run { args with report := form })).tree =
        (perform t asked (.run args)).tree ∧
      (perform t asked (.run { args with report := form })).ending =
        (perform t asked (.run args)).ending := by
  have hconfig : loadConfig t { args with report := form } = loadConfig t args := rfl
  have hfiles : findAssets t { args with report := form } = findAssets t args := rfl
  simp only [perform, report, hconfig, hfiles, reportAssets]
  cases loadConfig t args with
  | error f => exact ⟨rfl, rfl⟩
  | ok config =>
    cases hfiles : findAssets t args config with
    | error stop => simp [hfiles]
    | ok files =>
      simp only [hfiles]
      cases files.mapM (loadJob t config) with
      | error f => exact ⟨rfl, rfl⟩
      | ok jobs => exact ⟨rfl, rfl⟩

/-- **How reports, exit status, tree and modes agree** for a command line. -/
structure Agreement (t : Tree) (asked : Option Threshold) (args : Arguments) : Prop where
  /-- A run without a failure gives account of what it has loaded. -/
  account : ∀ invalid, (perform t asked (.run args)).ending = .finished invalid →
    ∃ config files jobs, Loads t args config files jobs ∧
      Account t args files jobs (perform t asked (.run args))
  /-- A run that only checks leaves the tree as it was. -/
  tree_of_check : args.check = true → (perform t asked (.run args)).tree = t
  /-- If the files can be written, checking alone says the same and ends the same. -/
  check_agrees : ∀ invalid,
    (perform t asked (.run { args with check := false })).ending = .finished invalid →
      (perform t asked (.run { args with check := true })).ending = .finished invalid ∧
        judgements (perform t asked (.run { args with check := true })).verdicts =
          judgements (perform t asked (.run { args with check := false })).verdicts
  /-- In JSON it also prints the same, in the same order: the paths, whether they are valid, and the
  messages. -/
  check_prints : args.report = .json → ∀ invalid,
    (perform t asked (.run { args with check := false })).ending = .finished invalid →
      ∀ elapsed elapsed', ∃ checked written,
        Json.readLines? ((perform t asked (.run { args with check := true })).stdout elapsed) =
            some checked ∧
          Json.readLines? ((perform t asked (.run { args with check := false })).stdout elapsed') =
            some written ∧
          checked.map judgementOf = written.map judgementOf
  /-- Text and JSON leave the same tree and end the same. -/
  form_agrees :
    (perform t asked (.run { args with report := .text })).tree =
        (perform t asked (.run { args with report := .json })).tree ∧
      (perform t asked (.run { args with report := .text })).ending =
        (perform t asked (.run { args with report := .json })).ending

/-- **Reports, exit status and modes agree**, for every tree and every command line. -/
theorem perform_agreement (t : Tree) (asked : Option Threshold) (args : Arguments) :
    Agreement t asked args := by
  constructor
  case account =>
    intro invalid hending
    obtain ⟨config, files, jobs, h⟩ := loads_of_finished hending
    rw [h.ending_eq] at hending
    exact ⟨config, files, jobs, h, h.account (failure_of_ending_eq hending)⟩
  case tree_of_check => exact tree_of_check
  case check_agrees => exact fun invalid h => check_agrees h
  case check_prints => exact fun hform invalid h => check_prints hform h
  case form_agrees =>
    obtain ⟨htree, hending⟩ := @form_agrees t asked args .text
    obtain ⟨htree', hending'⟩ := @form_agrees t asked args .json
    exact ⟨htree.trans htree'.symm, hending.trans hending'.symm⟩

namespace Sample

/-- A declaration without values. -/
def emptyText : String :=
  "file_name = \"B\"\nenumerator_name = \"B\"\nkind = \"simple\"\nvalues = []\n"

/-- A valid asset in front of an invalid one. -/
def mixed : Tree :=
  filesInRoot (first.bytes, Utf8.encode firstText) (second.bytes, Utf8.encode emptyText) (by decide)
    isProperName_first isProperName_second

def mixedJobs : List Job :=
  [jobOf first "A", { jobOf second "B" with
    declaration := { fileName := "B", enumName := "B", values := [] } }]

def jsonArguments : Arguments := { arguments with report := .json }

theorem loads_mixed : Loads mixed jsonArguments {} [first, second] mixedJobs := by
  have hfirst : mixed.text? first = some firstText := by cbv
  have hsecond : mixed.text? second = some emptyText := by cbv
  have hasset : Asset.ofText? firstText =
      some { header := { fileName := "A", enumName := "A" }, values := .simple ["X"] } := by cbv
  have hempty : Asset.ofText? emptyText =
      some { header := { fileName := "B", enumName := "B" }, values := .simple [] } := by cbv
  constructor
  case config_eq => cbv
  case files_eq => cbv
  case jobs_eq =>
    rw [List.mapM_cons, List.mapM_cons, loadJob_eq_ok hfirst hasset, loadJob_eq_ok hsecond hempty]
    rfl

/-- The first file can be written, and the second asset has none. -/
theorem failure_mixed : (goThrough false mixed mixedJobs).failure = none := by
  have hready := loads_mixed.ready (by decide) (by decide)
  refine failure_eq_none_of_canWrite linkFree_filesInRoot hready fun j hj hcode => ?_
  rw [mixedJobs, List.mem_cons, List.mem_singleton] at hj
  rcases hj with rfl | rfl
  · cbv
  · exact absurd hcode (by decide)

/-- A run on a valid and an invalid asset, with and without its file being written. -/
theorem agreement_of_mixed :
    (perform mixed none (.run jsonArguments)).ending = .finished 1 ∧
      (∃ config files jobs, Loads mixed jsonArguments config files jobs ∧
        Account mixed jsonArguments files jobs (perform mixed none (.run jsonArguments))) ∧
      (perform mixed none (.run { jsonArguments with check := true })).ending = .finished 1 ∧
      ∃ checked written,
        Json.readLines? ((perform mixed none (.run { jsonArguments with check := true })).stdout
            "1s") = some checked ∧
          Json.readLines? ((perform mixed none (.run { jsonArguments with check := false })).stdout
            "2s") = some written ∧
          checked.map judgementOf = written.map judgementOf := by
  have hending : (perform mixed none (.run jsonArguments)).ending = .finished 1 := by
    rw [loads_mixed.ending_eq]
    refine (ending_of_failure_eq_none failure_mixed).trans ?_
    decide
  exact ⟨hending, (perform_agreement mixed none jsonArguments).account 1 hending,
    ((perform_agreement mixed none jsonArguments).check_agrees 1 hending).1,
    (perform_agreement mixed none jsonArguments).check_prints rfl 1 hending "1s" "2s"⟩

end Sample
end EnumAssets.Command
