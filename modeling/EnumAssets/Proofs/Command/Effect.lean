/-
# The effect of a run on the tree

A run goes through its jobs one by one, and each of them may write a file that another one reads or
writes too.  What is left in the end is said by `Effect`: up to the first valid job whose file
cannot be written, the last code for a place is there, and everything else is as it was.

Two things make this so.  What a job writes was read before the first write, so no write changes
what another job does.  And no write changes a directory, so the places of all paths stay, and
whether a file can be written is known from the tree at the start (`Stays`).

`goThrough_cons_of_passes` and `goThrough_cons_of_fails` say what one job does, and the facts about
whole runs follow by induction on the jobs.
-/
import EnumAssets.Proofs.Command.Loading
import EnumAssets.Proofs.Output

namespace EnumAssets.Command

/-! ## 1. What a run does -/

/-- The code of a job; none if its declaration has defects. -/
def Job.code? (j : Job) : Option String :=
  match j.declaration.check with
  | .ok c => some c.code
  | .error _ => none

/-- The place of the file of a job. -/
def Job.place? (j : Job) (t : Tree) : Option Location :=
  j.destination.place? t j.declaration.fileName

/-- Whether a job is valid and its file cannot be written. -/
def Job.fails (j : Job) (t : Tree) : Bool :=
  match j.declaration.check with
  | .ok c =>
    match (j.destination.write t c).2 with
    | .ok _ => false
    | .error _ => true
  | .error _ => false

/-- The position of the first job that fails; their number if there is none. -/
def firstFailure (t : Tree) (jobs : List Job) : Nat :=
  jobs.findIdx fun j => j.fails t

/-- The code of the last valid job whose file has the given place. -/
def lastCode? (t : Tree) (jobs : List Job) (loc : Location) : Option String :=
  ((jobs.filter fun j => j.place? t == some loc).filterMap Job.code?).getLast?

/-- **The effect of a run** that goes through jobs on a tree. -/
structure Effect (t : Tree) (jobs : List Job) (r : Report) : Prop where
  /-- A job fails in its turn if it fails on the tree at the start. -/
  fails_in_turn : ∀ i (h : i < jobs.length),
    jobs[i].fails (goThrough false t (jobs.take i)).tree = jobs[i].fails t
  /-- The paths of the files lead to the places they led to. -/
  place?_eq : ∀ j ∈ jobs, j.place? r.tree = j.place? t
  /-- The last code for a place is there, and all else is as it was. -/
  at?_eq : ∀ loc, r.tree.at? loc =
    match lastCode? t (jobs.take (firstFailure t jobs)) loc with
    | some code => some (.file (Utf8.encode code))
    | none => t.at? loc
  /-- Something fails if there is a first job that does. -/
  failed_iff : (∃ message causes, r.ending = .failed message causes) ↔
    firstFailure t jobs < jobs.length

/-! ## 2. What stays -/

/-- What stays in the course of a run: there are no links, and the directories are the same. -/
structure Stays (t t' : Tree) : Prop where
  linkFree : t.LinkFree
  linkFree' : t'.LinkFree
  sameDirectories : t.SameDirectories t'

theorem Stays.refl {t : Tree} (hfree : t.LinkFree) : Stays t t :=
  ⟨hfree, hfree, .refl t⟩

theorem Stays.puts {t t' t'' : Tree} {loc : Location} {content : Bytes} (h : Stays t t')
    (hputs : t'.Puts loc content t'') : Stays t t'' :=
  ⟨h.linkFree, hputs.linkFree h.linkFree', h.sameDirectories.trans hputs.sameDirectories⟩

variable {t t' : Tree} {job : Job} {jobs : List Job}

theorem Stays.place?_eq (h : Stays t t') (j : Job) : j.place? t' = j.place? t :=
  Destination.place?_eq h.sameDirectories h.linkFree h.linkFree' _

/-- A job that is ready to be written: its asset was read, and its file goes beside it. -/
structure Job.Ready (t : Tree) (j : Job) : Prop where
  ready : j.destination.Ready t
  beside : j.destination.Beside

theorem Job.Ready.stays (h : job.Ready t) (hstays : Stays t t') : job.Ready t' :=
  ⟨h.ready.of_sameDirectories hstays.sameDirectories hstays.linkFree hstays.linkFree', h.beside⟩

/-! ## 3. One job -/

/-- Whether a job fails depends on the place of its file. -/
theorem Job.Ready.fails_eq (h : job.Ready t) (hfree : t.LinkFree) :
    job.fails t = (job.code?.isSome && !job.destination.canWrite t job.declaration.fileName) := by
  rw [Job.fails, Job.code?]
  cases hc : job.declaration.check with
  | error ds => rfl
  | ok c =>
    have hdecl := c.declaration_eq_of_check hc
    rw [← hdecl]
    cases hcan : job.destination.canWrite t c.declaration.fileName with
    | true =>
      obtain ⟨loc, t', p, -, hwrite, -⟩ :=
        Destination.write_of_canWrite h.ready h.beside hfree c hcan
      simp [hwrite]
    | false =>
      obtain ⟨f, hwrite⟩ := Destination.write_of_not_canWrite h.ready h.beside c hcan
      simp [hwrite]

/-- **Whether a job fails stays** in the course of a run. -/
theorem Job.Ready.fails_eq_of_stays (h : job.Ready t) (hstays : Stays t t') :
    job.fails t' = job.fails t := by
  rw [(h.stays hstays).fails_eq hstays.linkFree', h.fails_eq hstays.linkFree,
    Destination.canWrite_eq hstays.sameDirectories hstays.linkFree hstays.linkFree']

/-- What a job that does not fail leaves behind: the same tree if it is not valid, and else the
tree with its code at the place of its file. -/
inductive Turn (t : Tree) (job : Job) : Tree → Prop where
  | skipped (hcode : job.code? = none) : Turn t job t
  | written {code : String} {loc : Location} {t' : Tree} (hcode : job.code? = some code)
      (hplace : job.place? t = some loc) (hputs : t.Puts loc (Utf8.encode code) t') : Turn t job t'

/-- A job that fails ends the run, and the tree is as it was. -/
theorem goThrough_cons_of_fails (h : job.Ready t) (hfree : t.LinkFree) (hfails : job.fails t = true)
    (rest : List Job) :
    ∃ f, goThrough false t (job :: rest) = ⟨t, [], some (job.asset, f)⟩ := by
  rw [h.fails_eq hfree, Job.code?] at hfails
  cases hc : job.declaration.check with
  | error ds =>
    rw [hc] at hfails
    cases hfails
  | ok c =>
    have hcan : job.destination.canWrite t c.declaration.fileName = false := by
      rw [c.declaration_eq_of_check hc]
      simpa [hc] using hfails
    obtain ⟨f, hwrite⟩ := Destination.write_of_not_canWrite h.ready h.beside c hcan
    refine ⟨f, ?_⟩
    rw [goThrough, hc]
    simp [hwrite]

/-- **A job that does not fail** changes the place of its file at most, and the run goes on. -/
theorem goThrough_cons_of_passes (h : job.Ready t) (hfree : t.LinkFree)
    (hpasses : job.fails t = false) (rest : List Job) :
    ∃ t', Turn t job t' ∧
      (goThrough false t (job :: rest)).tree = (goThrough false t' rest).tree ∧
      (goThrough false t (job :: rest)).failure = (goThrough false t' rest).failure := by
  rw [h.fails_eq hfree] at hpasses
  cases hc : job.declaration.check with
  | error ds =>
    refine ⟨t, .skipped (by rw [Job.code?, hc]), ?_, ?_⟩
    · rw [goThrough, hc]
    · rw [goThrough, hc]
  | ok c =>
    have hcode : job.code? = some c.code := by rw [Job.code?, hc]
    have hcan : job.destination.canWrite t c.declaration.fileName = true := by
      rw [c.declaration_eq_of_check hc]
      simpa [hcode] using hpasses
    obtain ⟨loc, t', p, hplace, hwrite, hputs⟩ :=
      Destination.write_of_canWrite h.ready h.beside hfree c hcan
    rw [c.declaration_eq_of_check hc] at hplace
    refine ⟨t', .written hcode hplace hputs, ?_, ?_⟩
    · rw [goThrough, hc]
      simp [hwrite]
    · rw [goThrough, hc]
      simp [hwrite]

/-! ## 4. A run -/

theorem Stays.turn {t'' : Tree} (h : Stays t t') (hturn : Turn t' job t'') : Stays t t'' := by
  cases hturn with
  | skipped hcode => exact h
  | written hcode hplace hputs => exact h.puts hputs

/-- **A run stays**: it makes no link and changes no directory. -/
theorem stays_goThrough : ∀ {jobs : List Job} {t' : Tree}, (∀ j ∈ jobs, j.Ready t) → Stays t t' →
    Stays t (goThrough false t' jobs).tree
  | [], _, _, hstays => hstays
  | job :: rest, t', hready, hstays => by
    have hjob := (hready job List.mem_cons_self).stays hstays
    cases hfails : job.fails t' with
    | true =>
      obtain ⟨f, hrun⟩ := goThrough_cons_of_fails hjob hstays.linkFree' hfails rest
      rw [hrun]
      exact hstays
    | false =>
      obtain ⟨t'', hturn, htree, -⟩ :=
        goThrough_cons_of_passes hjob hstays.linkFree' hfails rest
      rw [htree]
      exact stays_goThrough (fun j hj => hready j (List.mem_cons_of_mem _ hj)) (hstays.turn hturn)

theorem firstFailure_cons (rest : List Job) :
    firstFailure t (job :: rest) = if job.fails t then 0 else firstFailure t rest + 1 := by
  rw [firstFailure, List.findIdx_cons, Bool.cond_eq_ite, firstFailure]

/-- **A run fails** at the first job that fails on the tree at the start. -/
theorem failure_goThrough : ∀ {jobs : List Job} {t' : Tree}, (∀ j ∈ jobs, j.Ready t) → Stays t t' →
    ((goThrough false t' jobs).failure ≠ none ↔ firstFailure t jobs < jobs.length)
  | [], _, _, _ => by simp [goThrough, firstFailure]
  | job :: rest, t', hready, hstays => by
    have hjob := hready job List.mem_cons_self
    have hjob' := hjob.stays hstays
    rw [firstFailure_cons, ← hjob.fails_eq_of_stays hstays]
    cases hfails : job.fails t' with
    | true =>
      obtain ⟨f, hrun⟩ := goThrough_cons_of_fails hjob' hstays.linkFree' hfails rest
      rw [hrun]
      simp
    | false =>
      obtain ⟨t'', hturn, -, hfailure⟩ :=
        goThrough_cons_of_passes hjob' hstays.linkFree' hfails rest
      rw [hfailure, failure_goThrough (fun j hj => hready j (List.mem_cons_of_mem _ hj))
        (hstays.turn hturn), List.length_cons]
      simp

/-- A run has no failure if the file of each job can be written on the tree at the start. -/
theorem failure_eq_none_of_canWrite (hfree : t.LinkFree) (hready : ∀ j ∈ jobs, j.Ready t)
    (hcan : ∀ j ∈ jobs, j.code?.isSome = true →
      j.destination.canWrite t j.declaration.fileName = true) :
    (goThrough false t jobs).failure = none := by
  by_contra hfailure
  obtain ⟨j, hj, hfails⟩ :=
    List.findIdx_lt_length.mp ((failure_goThrough hready (.refl hfree)).mp hfailure)
  rw [(hready j hj).fails_eq hfree, Bool.and_eq_true] at hfails
  rw [hcan j hj hfails.1] at hfails
  cases hfails.2

/-- The last code for a place is that of the last jobs if there is one, and else that of the first
job if the place is its own. -/
theorem lastCode?_cons (t : Tree) (job : Job) (rest : List Job) (loc : Location) :
    lastCode? t (job :: rest) loc =
      (lastCode? t rest loc).or (if job.place? t = some loc then job.code? else none) := by
  rw [lastCode?, lastCode?, List.filter_cons]
  by_cases hplace : job.place? t = some loc
  · rw [if_pos hplace, if_pos (by simpa using hplace), List.filterMap_cons]
    cases hcode : job.code? with
    | none => simp
    | some code =>
      rw [List.getLast?_cons]
      cases (List.filterMap Job.code? (rest.filter fun j => j.place? t == some loc)).getLast? <;>
        rfl
  · rw [if_neg hplace, if_neg (by simpa using hplace), Option.or_none]

/-- What the turn of a job changes. -/
theorem Turn.at?_eq {t'' : Tree} (hturn : Turn t' job t'') (hstays : Stays t t') (loc : Location) :
    t''.at? loc =
      match (if job.place? t = some loc then job.code? else none) with
      | some code => some (.file (Utf8.encode code))
      | none => t'.at? loc := by
  cases hturn with
  | skipped hcode => rw [hcode, ite_self]
  | @written code own _ hcode hplace hputs =>
    rw [hputs.at?_eq, hcode, ← hstays.place?_eq, hplace]
    by_cases h : loc = own
    · rw [if_pos h, if_pos (by rw [h])]
    · rw [if_neg h, if_neg fun e => h (Option.some.inj e).symm]

/-- **What a run leaves behind**: the last code for a place, in front of the first failure. -/
theorem at?_goThrough : ∀ {jobs : List Job} {t' : Tree}, (∀ j ∈ jobs, j.Ready t) → Stays t t' →
    ∀ loc, (goThrough false t' jobs).tree.at? loc =
      match lastCode? t (jobs.take (firstFailure t jobs)) loc with
      | some code => some (.file (Utf8.encode code))
      | none => t'.at? loc
  | [], _, _, _, _ => rfl
  | job :: rest, t', hready, hstays, loc => by
    have hjob := hready job List.mem_cons_self
    have hjob' := hjob.stays hstays
    rw [firstFailure_cons, ← hjob.fails_eq_of_stays hstays]
    cases hfails : job.fails t' with
    | true =>
      obtain ⟨f, hrun⟩ := goThrough_cons_of_fails hjob' hstays.linkFree' hfails rest
      rw [hrun]
      rfl
    | false =>
      obtain ⟨t'', hturn, htree, -⟩ :=
        goThrough_cons_of_passes hjob' hstays.linkFree' hfails rest
      rw [htree, at?_goThrough (fun j hj => hready j (List.mem_cons_of_mem _ hj))
        (hstays.turn hturn), hturn.at?_eq hstays]
      simp only [Bool.false_eq_true, if_false, List.take_succ_cons, lastCode?_cons]
      cases lastCode? t (rest.take (firstFailure t rest)) loc <;> rfl

/-! ## 5. The whole command -/

/-- A job that was read is ready to be written. -/
theorem ready_of_loadJob {config : Config} {p : Path} (hne : config.extension ≠ "")
    (hslash : '/' ∉ config.extension.toList) (h : loadJob t config p = .ok job) : job.Ready t := by
  cases htext : t.text? p with
  | none =>
    rw [loadJob, Asset.load, htext] at h
    cases h
  | some text =>
    cases hasset : Asset.ofText? text with
    | none =>
      rw [loadJob, Asset.load, htext] at h
      simp only [hasset] at h
      cases h
    | some asset =>
      rw [loadJob_eq_ok htext hasset] at h
      cases h
      exact ⟨Destination.ready_of_text? htext, hne, hslash⟩

/-- The jobs of a run that loads are ready to be written. -/
theorem Loads.ready {args : Arguments} {config : Config} {files : List Path}
    (h : Loads t args config files jobs) (hne : config.extension ≠ "")
    (hslash : '/' ∉ config.extension.toList) : ∀ j ∈ jobs, j.Ready t := by
  intro j hj
  obtain ⟨p, -, hp⟩ := exists_of_mem_mapM h.jobs_eq j hj
  exact ready_of_loadJob hne hslash hp

/-- **The effect of a generating run.**  In a tree without links and with an extension that is a
part of a name, whenever the configuration, the assets and all that they say can be read, the run
has the effect of its jobs, as they were read at the start. -/
theorem perform_effect {t : Tree} {asked : Option Threshold} {args : Arguments} {config : Config}
    {files : List Path} {jobs : List Job} (hfree : t.LinkFree) (hcheck : args.check = false)
    (hconfig : loadConfig t args = .ok config) (hne : config.extension ≠ "")
    (hslash : '/' ∉ config.extension.toList) (hfiles : findAssets t args config = .ok files)
    (hjobs : files.mapM (loadJob t config) = .ok jobs) :
    Effect t jobs (perform t asked (.run args)) := by
  have hready : ∀ j ∈ jobs, j.Ready t := fun j hj => by
    obtain ⟨p, -, hp⟩ := exists_of_mem_mapM hjobs j hj
    exact ready_of_loadJob hne hslash hp
  have htree : (perform t asked (.run args)).tree = (goThrough false t jobs).tree := by
    simp only [perform, report, hconfig, hfiles, reportAssets, hjobs, reportJobs, hcheck]
  have hending : (perform t asked (.run args)).ending = (goThrough false t jobs).ending := by
    simp only [perform, report, hconfig, hfiles, reportAssets, hjobs, reportJobs, hcheck]
  constructor
  · intro i hi
    have hprefix : ∀ j ∈ jobs.take i, j.Ready t := fun j hj => hready j (List.mem_of_mem_take hj)
    exact (hready _ (List.getElem_mem hi)).fails_eq_of_stays (stays_goThrough hprefix (.refl hfree))
  · intro j hj
    rw [htree, (stays_goThrough hready (.refl hfree)).place?_eq]
  · intro loc
    rw [htree, at?_goThrough hready (.refl hfree)]
  · rw [hending, ← failure_goThrough hready (.refl hfree), Progress.ending]
    cases (goThrough false t jobs).failure with
    | none => simp
    | some failure => simp

namespace Sample

def secondText : String :=
  "file_name = \"A\"\nenumerator_name = \"B\"\nkind = \"simple\"\nvalues = [\"X\"]\n"

/-- Two assets in the root, for one and the same file. -/
def tree : Tree where
  nodes := [([first.bytes], .file (Utf8.encode firstText)),
    ([second.bytes], .file (Utf8.encode secondText))]
  nodup := by
    have hne : first.bytes ≠ second.bytes := by decide
    simp [hne]
  closed := by
    intro loc hloc
    rw [List.map_cons, List.map_singleton, List.mem_cons, List.mem_singleton] at hloc
    rcases hloc with rfl | rfl
    · exact ⟨by cbv, rfl⟩
    · exact ⟨by cbv, rfl⟩
  workingDirectory := []

def jobOf (asset : Path) (enumName : String) : Job where
  asset := asset
  destination := ⟨asset, "cs"⟩
  kind := "simple"
  declaration := { fileName := "A", enumName := enumName, values := [.plain "X"] }

theorem linkFree_filesInRoot {one two : Name × Bytes} {hne : one.1 ≠ two.1}
    {hone : isProperName one.1 = true} {htwo : isProperName two.1 = true} :
    (filesInRoot one two hne hone htwo).LinkFree := by
  refine Tree.linkFree_of_nodes ?_
  rintro ⟨loc, node⟩ hmem target rfl
  simp [filesInRoot] at hmem

theorem linkFree_tree : tree.LinkFree := by
  have htree : tree = filesInRoot (first.bytes, Utf8.encode firstText)
      (second.bytes, Utf8.encode secondText) (by decide) isProperName_first isProperName_second :=
    rfl
  rw [htree]
  exact linkFree_filesInRoot

set_option maxRecDepth 20000 in
theorem loadJob_first : loadJob tree {} first = .ok (jobOf first "A") := by
  have htext : tree.text? first = some firstText := by cbv
  have hasset : Asset.ofText? firstText =
      some { header := { fileName := "A", enumName := "A" }, values := .simple ["X"] } := by cbv
  exact loadJob_eq_ok htext hasset

set_option maxRecDepth 20000 in
theorem loadJob_second : loadJob tree {} second = .ok (jobOf second "B") := by
  have htext : tree.text? second = some secondText := by cbv
  have hasset : Asset.ofText? secondText =
      some { header := { fileName := "A", enumName := "B" }, values := .simple ["X"] } := by cbv
  exact loadJob_eq_ok htext hasset

theorem mapM_loadJob :
    [first, second].mapM (loadJob tree {}) = .ok [jobOf first "A", jobOf second "B"] := by
  rw [List.mapM_cons, List.mapM_cons, loadJob_first, loadJob_second]
  rfl

/-- Both assets go to one file, and the run has its effect. -/
theorem effect_of_two_assets :
    tree.LinkFree ∧ arguments.check = false ∧ loadConfig tree arguments = .ok {} ∧
      findAssets tree arguments {} = .ok [first, second] ∧
      [first, second].mapM (loadJob tree {}) = .ok [jobOf first "A", jobOf second "B"] ∧
      Effect tree [jobOf first "A", jobOf second "B"] (perform tree none (.run arguments)) := by
  have hconfig : loadConfig tree arguments = .ok {} := by cbv
  have hfiles : findAssets tree arguments {} = .ok [first, second] := by cbv
  exact ⟨linkFree_tree, rfl, hconfig, hfiles, mapM_loadJob,
    perform_effect linkFree_tree rfl hconfig (by decide) (by decide) hfiles mapM_loadJob⟩

end Sample
end EnumAssets.Command
