/-
# Running again

A run that has no failure can be made again with the same result.  It finds the same assets, reads
the same declarations from them and says the same about them, and it leaves every file as it is.
Only what is said about files that were there before the run may change.

With the default extension each file that a run writes has a name with the ending of code, whatever
name the declaration gives (`besides_of_write`), so the tree afterwards agrees with the tree before
besides this ending (`besides_goThrough`).  No such file is an asset, so scans and patterns find
what they found before (`findAssets_eq`), and neither the assets nor the configuration are among the
files that have changed (`Loads.again`).  Thus the second run goes through the same jobs.  The last
job for a place decides what the file there holds, and it has decided so already
(`at?_goThrough_again`).
-/
import EnumAssets.Proofs.Command.Account
import EnumAssets.Proofs.Glob.Expand
import EnumAssets.Proofs.Output.Placement

namespace EnumAssets

/-! ## 1. The ending of code -/

/-- What the names of files with the default extension end with. -/
def codeEnding : Bytes :=
  Utf8.encode ("." ++ defaultExtension)

theorem noAsset_codeEnding : NoAsset codeEnding := by
  intro n hcode hasset
  rcases List.suffix_or_suffix_of_suffix hcode hasset with h | h
  · exact absurd h (by decide)
  · exact absurd h (by decide)

namespace Destination

variable {t t' : Tree} {d : Destination} {α : Type} [Named α]

theorem codeEnding_suffix (hdefault : d.extension = defaultExtension) (fileName : String) :
    codeEnding <:+ Utf8.encode (d.fullName fileName) := by
  refine ⟨Utf8.encode fileName, ?_⟩
  rw [codeEnding, fullName, hdefault, String.append_assoc, Utf8.encode, Utf8.encode, Utf8.encode,
    ← List.flatMap_append, ← String.toList_append]

/-- **Writing a file with the default extension** changes nothing but files with the ending of
code. -/
theorem besides_of_write (hfree : t.LinkFree) (hready : d.Ready t)
    (hdefault : d.extension = defaultExtension) {c : Checked α} {p : Path}
    (hwrite : d.write t c = (t', .ok p)) : t.Besides codeEnding t' := by
  have hbeside : d.Beside := ⟨by rw [hdefault]; decide, by rw [hdefault]; decide⟩
  rw [write] at hwrite
  split at hwrite
  · cases hwrite
  · next q hq =>
    obtain ⟨directory, hdirectory, hparent⟩ := parent_path? hbeside c hq
    rw [path?_eq_some hdirectory] at hq
    have hq := (Option.some.inj hq).symm
    rw [Tree.persist_eq hparent (hready directory hdirectory)] at hwrite
    cases hfile : t.writeFile q (Utf8.encode c.code) with
    | none =>
      rw [hfile] at hwrite
      cases hwrite
    | some t'' =>
      rw [hfile] at hwrite
      cases hwrite
      refine Tree.besides_of_writeFile hfile fun n parent hplace => ?_
      obtain ⟨loc, hloc, hputs⟩ := Tree.writeFile_eq_some hfile
      obtain rfl := Option.some.inj (hplace.symm.trans hloc)
      obtain ⟨m, outer, heq, hname⟩ :=
        Tree.exists_fileName_of_place? hfree hplace hputs.noDirectory
      obtain ⟨rfl, -⟩ := List.cons.inj heq
      rw [hq, Path.ofText, Path.fileName_join directory (isSegment_of_default hdefault c)] at hname
      rw [← Option.some.inj hname]
      exact codeEnding_suffix hdefault _

end Destination

namespace Command

variable {t t' : Tree} {check : Bool} {asked : Option Threshold}
variable {args : Arguments} {config : Config}
  {files : List Path} {jobs : List Job}

/-! ## 2. The tree afterwards -/

/-- **Going through jobs** changes nothing but files with the ending of code. -/
theorem besides_goThrough : ∀ {jobs : List Job} {t : Tree}, t.LinkFree → (∀ j ∈ jobs, j.Ready t) →
    (∀ j ∈ jobs, j.destination.extension = defaultExtension) →
      (goThrough check t jobs).failure = none → t.Besides codeEnding (goThrough check t jobs).tree
  | [], t, _, _, _, _ => .refl codeEnding t
  | job :: rest, t, hfree, hready, hdefault, hfailure => by
    rcases goThrough_cons check t job rest with
      ⟨t', outcome, hjudged, hrun⟩ | ⟨c, t', f, -, -, -, hrun⟩
    · rw [hrun] at hfailure ⊢
      have hturn : t.Besides codeEnding t' := by
        cases hjudged with
        | invalid hcheck => exact .refl codeEnding t
        | valid hcheck hmode => exact .refl codeEnding t
        | written hcheck hmode hwrite =>
          exact Destination.besides_of_write hfree (hready job List.mem_cons_self).ready
            (hdefault job List.mem_cons_self) hwrite
      have hstays : Stays t t' := ⟨hfree, hturn.linkFree hfree, hturn.sameDirectories⟩
      exact hturn.trans (besides_goThrough hstays.linkFree'
        (fun j hj => (hready j (List.mem_cons_of_mem _ hj)).stays hstays)
        (fun j hj => hdefault j (List.mem_cons_of_mem _ hj)) hfailure)
    · rw [hrun] at hfailure
      cases hfailure

/-! ## 3. Loading again -/

theorem mapM_congr_of_mem {ε α β : Type} {f g : α → Except ε β} : ∀ {as : List α},
    (∀ a ∈ as, f a = g a) → as.mapM f = as.mapM g
  | [], _ => rfl
  | a :: as, h => by
    rw [List.mapM_cons, List.mapM_cons, h a List.mem_cons_self,
      mapM_congr_of_mem fun b hb => h b (List.mem_cons_of_mem _ hb)]

/-- The assets of a source other than a single file are the same in both trees. -/
theorem source_assets_eq {ending : Bytes} (h : t.Besides ending t') (hfree : t.LinkFree)
    (hno : NoAsset ending) (root : Path) {s : Source} (hs : ∀ p, s ≠ .file p) :
    s.assets t' root = s.assets t root := by
  cases s with
  | directory p => exact Scan.assets_eq h hfree hno _
  | file p => exact absurd rfl (hs p)
  | glob pattern => exact Glob.assets_eq h hfree hno _

/-- So are the assets of a run. -/
theorem findAssets_eq {ending : Bytes} (h : t.Besides ending t') (hfree : t.LinkFree)
    (hno : NoAsset ending) (hnil : args.assets = []) (hsources : ∀ p, .file p ∉ config.sources) :
    findAssets t' args config = findAssets t args config := by
  have hall : config.sources.mapM (Source.assets t' (sourceRoot args)) =
      config.sources.mapM (Source.assets t (sourceRoot args)) :=
    mapM_congr_of_mem fun s hs =>
      source_assets_eq h hfree hno _ fun p heq => hsources p (heq ▸ hs)
  rw [findAssets, findAssets, hnil, collect, collect, hall]
  rfl

/-- What is found by going through directories, or by a pattern, is an asset. -/
theorem isAsset_of_mem_files (hfiles : findAssets t args config = .ok files)
    (hnil : args.assets = []) (hsources : ∀ p, .file p ∉ config.sources) :
    ∀ p ∈ files, p.isAsset = true := by
  rw [findAssets, hnil, collect] at hfiles
  cases hfound : config.sources.mapM (Source.assets t (sourceRoot args)) with
  | error f =>
    rw [hfound] at hfiles
    cases hfiles
  | ok found =>
    rw [hfound] at hfiles
    cases hfiles
    intro p hp
    have hmem := List.mem_mergeSort.mp ((Path.dropRepeats_sublist _).subset hp)
    obtain ⟨ps, hps, hp⟩ := List.mem_flatten.mp hmem
    obtain ⟨s, hs, hassets⟩ := exists_of_mem_mapM hfound ps hps
    cases s with
    | directory q => exact Scan.isAsset_of_mem_assets hassets hp
    | file q => exact absurd hs (hsources q)
    | glob pattern => exact Glob.isAsset_of_mem_assets hassets hp

/-- **A run that loads can load again** from a tree that agrees besides the ending of code. -/
theorem Loads.again {ending : Bytes} (h : Loads t args config files jobs)
    (hbesides : t.Besides ending t') (hfree : t.LinkFree) (hno : NoAsset ending)
    (hnil : args.assets = []) (hsources : ∀ p, .file p ∉ config.sources)
    (hname : ∀ n, args.config.fileName = some n → ¬ ending <:+ n) :
    Loads t' args config files jobs := by
  have htext : ∀ p : Path,
      (∀ n, p.fileName = some n → ¬ ending <:+ n) → t'.text? p = t.text? p := by
    intro p hp
    rw [Tree.text?, hbesides.content?_eq hfree hp, Tree.text?]
  constructor
  case config_eq =>
    have hconfig := h.config_eq
    rw [loadConfig, hnil] at hconfig ⊢
    rwa [List.isEmpty_nil, Bool.true_or, if_pos rfl, Config.load, htext _ hname, ← Config.load]
  case files_eq => rw [findAssets_eq hbesides hfree hno hnil hsources, h.files_eq]
  case jobs_eq =>
    rw [← h.jobs_eq]
    refine mapM_congr_of_mem fun p hp => ?_
    have hasset := isAsset_of_mem_files h.files_eq hnil hsources p hp
    rw [loadJob, loadJob, Asset.load, htext p fun n => hno.not_suffix hasset, ← Asset.load]

/-! ## 4. Going through the jobs again -/

/-- A verdict is what it says. -/
theorem Verdict.eq_of_says {v w : Verdict} (hasset : v.asset = w.asset) (hok : v.isOk = w.isOk)
    (hmessages : v.messages = w.messages) (houtput : v.output? = w.output?) : v = w := by
  obtain ⟨p, o⟩ := v
  obtain ⟨q, u⟩ := w
  obtain rfl : p = q := hasset
  cases o <;> cases u <;> simp_all [Verdict.isOk, Verdict.messages, Verdict.output?]

/-- What is said of a job is said in one way only. -/
theorem Accounts.eq {job : Job} {v w : Verdict} (hv : Accounts check job v)
    (hw : Accounts check job w) : v = w := by
  have hok : v.isOk = w.isOk := by rw [Bool.eq_iff_iff, hv.isOk_iff, hw.isOk_iff]
  have hsome : v.output?.isSome = w.output?.isSome := by
    rw [Bool.eq_iff_iff, hv.isSome_output?_iff, hw.isSome_output?_iff]
  refine Verdict.eq_of_says (hv.asset_eq.trans hw.asset_eq.symm) hok
    (hv.messages_eq.trans hw.messages_eq.symm) ?_
  cases hp : v.output? with
  | none =>
    rw [hp] at hsome
    exact (Option.not_isSome_iff_eq_none.mp (Bool.not_eq_true _ ▸ hsome.symm)).symm
  | some p =>
    rw [hp] at hsome
    obtain ⟨q, hq⟩ := Option.isSome_iff_exists.mp hsome.symm
    rw [hq, ← hv.path?_eq p hp, ← hw.path?_eq q hq]

theorem verdicts_eq_of_accounts {vs ws : List Verdict} (hvs : List.Forall₂ (Accounts check) jobs vs)
    (hws : List.Forall₂ (Accounts check) jobs ws) : vs = ws := by
  induction hvs generalizing ws with
  | nil =>
    cases hws
    rfl
  | cons hv _ ih =>
    cases hws with
    | cons hw hrest => rw [hv.eq hw, ih hrest]

/-- **Going through the jobs again** has no failure if there was none. -/
theorem failure_goThrough_again (hfree : t.LinkFree) (hready : ∀ j ∈ jobs, j.Ready t)
    (hfailure : (goThrough check t jobs).failure = none) :
    (goThrough check (goThrough check t jobs).tree jobs).failure = none := by
  cases check with
  | true => exact (goThrough_true jobs _).1
  | false =>
    by_contra hagain
    have hfirst := (failure_goThrough hready (stays_goThrough hready (.refl hfree))).mp hagain
    exact (failure_goThrough hready (.refl hfree)).mpr hfirst hfailure

/-- **Going through the jobs again** leaves everything as it is. -/
theorem at?_goThrough_again (hfree : t.LinkFree) (hready : ∀ j ∈ jobs, j.Ready t) (loc : Location) :
    (goThrough check (goThrough check t jobs).tree jobs).tree.at? loc =
      (goThrough check t jobs).tree.at? loc := by
  cases check with
  | true => rw [(goThrough_true jobs _).2]
  | false =>
    rw [at?_goThrough hready (stays_goThrough hready (.refl hfree)),
      at?_goThrough hready (.refl hfree)]
    split <;> rfl

/-! ## 5. The whole run -/

/-- Text is shown line by line. -/
theorem onText_append (lines more : List Line) :
    onText args (lines ++ more) = onText args lines ++ onText args more := by
  rw [onText, onText, onText]
  split <;> rfl

/-- JSON shows no text. -/
theorem onText_of_json (hform : args.report = .json) (lines : List Line) :
    onText args lines = [] := by
  rw [onText, hform, if_neg (by decide)]

/-- What a run without a failure shows, the line about the files that were there before in the
middle. -/
theorem Loads.screen_eq_of_failure_eq_none (h : Loads t args config files jobs)
    (hfailure : (goThrough args.check t jobs).failure = none) :
    (perform t asked (.run args)).screen =
      onText args (introduction ++ foundLines files.length) ++
        onText args (stageLines args (amountOf t jobs)) ++
        (onJson args (goThrough args.check t jobs).verdicts ++
          onText args (closing (goThrough args.check t jobs).verdicts)) := by
  rw [h.screen_eq, hfailure, onText_append, Option.isNone_none, if_pos rfl, List.append_assoc,
    List.append_assoc]

/-- The record of how many files were there before. -/
def amountRecord (amount : Amount) : Record :=
  ⟨.debug, "selection state", [("mode", amount.label)]⟩

/-- The records that are kept. -/
def kept (asked : Option Threshold) (args : Arguments) (records : List Record) : List Record :=
  records.filter fun r => (Threshold.choose asked args.verbose).keeps r.level

/-- The records of a run that loads. -/
theorem Loads.records_eq (h : Loads t args config files jobs) :
    (perform t asked (.run args)).records =
      kept asked args (⟨.debug, "scanned enum assets", [("count", Nat.repr files.length)]⟩ ::
        jobs.map Job.record) ++
        kept asked args [amountRecord (amountOf t jobs)] ++
        kept asked args ((goThrough args.check t jobs).verdicts.flatMap Verdict.records) := by
  simp only [perform, report, h.config_eq, h.files_eq, reportAssets, h.jobs_eq, reportJobs,
    amountRecord, kept, ← List.filter_append, List.cons_append]

/-- The jobs of a run put their files where the configuration says. -/
theorem Loads.extension_eq (h : Loads t args config files jobs) :
    ∀ j ∈ jobs, j.destination.extension = config.extension := by
  intro j hj
  obtain ⟨p, -, hp⟩ := exists_of_mem_mapM h.jobs_eq j hj
  obtain ⟨asset, -, rfl⟩ := loadJob_eq_ok_iff.mp hp
  rfl

/-- **The second of two runs** with the same command line: `r` is the run on a tree, and `r'` the
run on what `r` leaves behind. -/
structure Again (t : Tree) (asked : Option Threshold) (args : Arguments) (config : Config)
    (files : List Path) (jobs : List Job) (r r' : Report) : Prop where
  loads : Loads t args config files jobs
  /-- The same assets are found, and the same declarations are read from them. -/
  loads_again : Loads r.tree args config files jobs
  /-- The paths, verdicts, messages and outputs are the same. -/
  verdicts_eq :
    (goThrough args.check r.tree jobs).verdicts = (goThrough args.check t jobs).verdicts
  ending_eq : r'.ending = r.ending
  /-- The screen differs at most in the line about the files that were there before. -/
  screen_eq : ∃ above below,
    r.screen = above ++ onText args (stageLines args (amountOf t jobs)) ++ below ∧
      r'.screen = above ++ onText args (stageLines args (amountOf r.tree jobs)) ++ below
  /-- So do the records. -/
  records_eq : ∃ before after,
    r.records = before ++ kept asked args [amountRecord (amountOf t jobs)] ++ after ∧
      r'.records = before ++ kept asked args [amountRecord (amountOf r.tree jobs)] ++ after
  /-- The screen is the same if it is JSON. -/
  screen_eq_of_json : args.report = .json → r'.screen = r.screen
  /-- Each file is as the first run left it. -/
  at?_eq : ∀ loc, r'.tree.at? loc = r.tree.at? loc

/-- **A run that has no failure can be made again with the same result**: in a tree without links,
with the default extension, if the assets are found by going through directories or by patterns, and
the configuration itself does not have the name of a file of code. -/
theorem perform_again {invalid : Nat} (hfree : t.LinkFree) (hnil : args.assets = [])
    (hconfig : loadConfig t args = .ok config) (hdefault : config.extension = defaultExtension)
    (hsources : ∀ p, .file p ∉ config.sources)
    (hname : ∀ n, args.config.fileName = some n → ¬ codeEnding <:+ n)
    (hending : (perform t asked (.run args)).ending = .finished invalid) :
    ∃ files jobs, Again t asked args config files jobs (perform t asked (.run args))
      (perform (perform t asked (.run args)).tree asked (.run args)) := by
  obtain ⟨config', files, jobs, hloads⟩ := loads_of_finished hending
  obtain rfl := Except.ok.inj (hconfig.symm.trans hloads.config_eq)
  have hfailure : (goThrough args.check t jobs).failure = none :=
    failure_of_ending_eq (hloads.ending_eq.symm.trans hending)
  have hready : ∀ j ∈ jobs, j.Ready t :=
    hloads.ready (by rw [hdefault]; decide) (by rw [hdefault]; decide)
  have hextension : ∀ j ∈ jobs, j.destination.extension = defaultExtension :=
    fun j hj => (hloads.extension_eq j hj).trans hdefault
  -- The first run changes no asset and not the configuration, so the second one loads the same.
  have hbesides : t.Besides codeEnding (goThrough args.check t jobs).tree :=
    besides_goThrough hfree hready hextension hfailure
  have hagain : Loads (goThrough args.check t jobs).tree args config files jobs :=
    hloads.again hbesides hfree noAsset_codeEnding hnil hsources hname
  have hfailure' := failure_goThrough_again hfree hready hfailure
  have hverdicts :
      (goThrough args.check (goThrough args.check t jobs).tree jobs).verdicts =
        (goThrough args.check t jobs).verdicts :=
    verdicts_eq_of_accounts (accounts_goThrough hfailure') (accounts_goThrough hfailure)
  refine ⟨files, jobs, ?_⟩
  have htree : (perform t asked (.run args)).tree = (goThrough args.check t jobs).tree :=
    hloads.tree_eq
  rw [htree]
  constructor
  case loads => exact hloads
  case loads_again => rwa [htree]
  case verdicts_eq => rwa [htree]
  case ending_eq =>
    rw [hagain.ending_eq, hloads.ending_eq, ending_of_failure_eq_none hfailure,
      ending_of_failure_eq_none hfailure']
  case screen_eq =>
    refine ⟨_, _, hloads.screen_eq_of_failure_eq_none hfailure, ?_⟩
    rw [hagain.screen_eq_of_failure_eq_none hfailure', hverdicts, htree]
  case records_eq =>
    refine ⟨_, _, hloads.records_eq, ?_⟩
    rw [hagain.records_eq, hverdicts, htree]
  case screen_eq_of_json =>
    intro hform
    rw [hagain.screen_eq_of_failure_eq_none hfailure', hloads.screen_eq_of_failure_eq_none hfailure,
      hverdicts]
    simp only [onText_of_json hform]
  case at?_eq =>
    intro loc
    rw [htree, hagain.tree_eq, at?_goThrough_again hfree hready]

namespace Sample

/-- A configuration that looks for assets beside it. -/
def besideText : String :=
  "[[sources]]\ntype = \"directory\"\npath = \".\"\n"

def besideConfig : Config := { sources := [.directory (.ofText ".")] }

def settings : Path := .ofText Config.defaultFile

/-- A configuration, and two assets beside it for one and the same file. -/
def project : Tree where
  nodes := [([settings.bytes], .file (Utf8.encode besideText)),
    ([first.bytes], .file (Utf8.encode firstText)),
    ([second.bytes], .file (Utf8.encode secondText))]
  nodup := by decide
  closed := by
    intro loc hloc
    simp only [List.map_cons, List.map_nil, List.mem_cons, List.not_mem_nil, or_false] at hloc
    rcases hloc with rfl | rfl | rfl
    · exact ⟨by cbv, rfl⟩
    · exact ⟨isProperName_first, rfl⟩
    · exact ⟨isProperName_second, rfl⟩
  workingDirectory := []

theorem linkFree_project : project.LinkFree := by
  intro loc target h
  cases loc with
  | nil => cases h
  | cons n parent =>
    rw [project, Tree.at?, Nodes.at?_cons, List.lookup_cons, List.lookup_cons,
      List.lookup_cons] at h
    split at h
    · cases h
    · split at h
      · cases h
      · split at h <;> cases h

/-- A path below the directory of the configuration. -/
def here (p : Path) : Path :=
  Path.join (.ofText ".") p

theorem entries_project :
    (project.entries ⟨.ofText ".", [], linkLimit⟩ fun n => Path.join (.ofText ".") ⟨n⟩) =
      [(settings.bytes, ⟨here settings, [settings.bytes], linkLimit⟩),
        (first.bytes, ⟨here first, [first.bytes], linkLimit⟩),
        (second.bytes, ⟨here second, [second.bytes], linkLimit⟩)] := by
  cbv

/-- The assets are found, and the configuration is none. -/
theorem scan_project : Scan.assets project (.ofText ".") = .ok [here first, here second] := by
  have hspot : project.spot? (.ofText ".") = some ⟨.ofText ".", [], linkLimit⟩ := by cbv
  have hdirectory : project.isDirectorySpot ⟨.ofText ".", [], linkLimit⟩ = true := by cbv
  have hsettings : (here settings).isAsset = false := by cbv
  have hfirst : (here first).isAsset = true := by cbv
  have hsecond : (here second).isAsset = true := by cbv
  rw [Scan.assets, hspot]
  simp only [hdirectory, if_true]
  rw [Scan.below_eq, entries_project, List.flatMap_cons, List.flatMap_cons, List.flatMap_cons,
    List.flatMap_nil, Scan.atEntry_of_file (by cbv) (by cbv),
    Scan.atEntry_of_file (by cbv) (by cbv),
    Scan.atEntry_of_file (by cbv) (by cbv)]
  simp only [hsettings, hfirst, hsecond]
  rfl

theorem findAssets_project :
    findAssets project {} besideConfig = .ok [here first, here second] := by
  have hroot : (sourceRoot {}).join (.ofText ".") = .ofText "." := by cbv
  have harrange : Path.arrange [here first, here second] = [here first, here second] := by cbv
  rw [findAssets, collect, besideConfig, List.mapM_cons, Source.assets, hroot, scan_project]
  exact congrArg Except.ok harrange

def projectJobs : List Job :=
  [jobOf (here first) "A", jobOf (here second) "B"]

theorem loads_project :
    Loads project {} besideConfig [here first, here second] projectJobs := by
  have hfirst : project.text? (here first) = some firstText := by cbv
  have hsecond : project.text? (here second) = some secondText := by cbv
  have hasset : Asset.ofText? firstText =
      some { header := { fileName := "A", enumName := "A" }, values := .simple ["X"] } := by cbv
  have hother : Asset.ofText? secondText =
      some { header := { fileName := "A", enumName := "B" }, values := .simple ["X"] } := by cbv
  constructor
  case config_eq => cbv
  case files_eq => exact findAssets_project
  case jobs_eq =>
    rw [List.mapM_cons, List.mapM_cons, loadJob_eq_ok hfirst hasset, loadJob_eq_ok hsecond hother]
    rfl

theorem ending_project : (perform project none (.run {})).ending = .finished 0 := by
  have hfailure : (goThrough false project projectJobs).failure = none := by
    refine failure_eq_none_of_canWrite linkFree_project
      (loads_project.ready (by decide) (by decide)) fun j hj _ => ?_
    rw [projectJobs, List.mem_cons, List.mem_singleton] at hj
    rcases hj with rfl | rfl
    · cbv
    · cbv
  rw [loads_project.ending_eq]
  refine (ending_of_failure_eq_none hfailure).trans ?_
  decide

/-- Two assets go to one file, and the run can be made again. -/
theorem again_of_project :
    project.LinkFree ∧ loadConfig project {} = .ok besideConfig ∧
      (perform project none (.run {})).ending = .finished 0 ∧
      ∃ files jobs, Again project none {} besideConfig files jobs (perform project none (.run {}))
        (perform (perform project none (.run {})).tree none (.run {})) := by
  have hsources : ∀ p, Source.file p ∉ besideConfig.sources := by
    intro p hp
    rw [besideConfig, List.mem_singleton] at hp
    cases hp
  have hname : ∀ n, settings.fileName = some n → ¬ codeEnding <:+ n := by
    intro n hn
    have hsettings : settings.fileName = some (Utf8.encode Config.defaultFile) := by cbv
    obtain rfl := Option.some.inj (hsettings.symm.trans hn)
    decide
  exact ⟨linkFree_project, loads_project.config_eq, ending_project,
    perform_again linkFree_project rfl loads_project.config_eq rfl hsources hname ending_project⟩

end Sample
end Command
end EnumAssets
