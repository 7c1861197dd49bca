/-
# What a run has to read

Before a run judges the first asset it has read the configuration, found the assets, and read all of
them (`Loads`).  What keeps it from that is listed by `Unloadable`, in terms of the tree and of the
documents alone, and the two exclude one another and leave no third case (`unloadable_iff`).

So a run is one of two things.  If everything loads it goes through its jobs, and its tree, its
screen and its ending are those of `goThrough` (`Loads.tree_eq`, `Loads.screen_eq`,
`Loads.ending_eq`).  If not, it fails, whatever its options are, and the tree is as it was
(`stops_unless_loaded`).

Runs on sample trees, here and in the modules that build on this one, are evaluated by `cbv`, which
takes the equations of all the functions it meets, those on bytes and characters too.  Mathlib has
some of these equations in modules far apart; it is imported whole for their sake alone.
-/
import Mathlib
import EnumAssets.Command.Run

namespace EnumAssets

/-! ## 1. Reading all of a list -/

section Reading

variable {ε α β : Type} {f : α → Except ε β}

/-- All of a list can be read if each of it can, and the results are in the same order. -/
theorem mapM_eq_ok_iff : ∀ {as : List α} {bs : List β},
    as.mapM f = .ok bs ↔ List.Forall₂ (fun a b => f a = .ok b) as bs
  | [], bs => by
    rw [List.mapM_nil, List.forall₂_nil_left_iff]
    constructor
    · intro h
      cases h
      rfl
    · rintro rfl
      rfl
  | a :: as, bs => by
    rw [List.mapM_cons, List.forall₂_cons_left_iff]
    cases ha : f a with
    | error e =>
      constructor
      · intro h
        cases h
      · rintro ⟨b, -, hb, -⟩
        cases hb
    | ok b =>
      cases has : as.mapM f with
      | error e =>
        constructor
        · intro h
          cases h
        · rintro ⟨-, bs', -, hbs, -⟩
          rw [← mapM_eq_ok_iff, has] at hbs
          cases hbs
      | ok others =>
        constructor
        · intro h
          cases h
          exact ⟨b, others, rfl, mapM_eq_ok_iff.mp has, rfl⟩
        · rintro ⟨b', bs', hb, hbs, rfl⟩
          cases hb
          rw [← mapM_eq_ok_iff, has] at hbs
          cases hbs
          rfl

theorem exists_of_mem_mapM {as : List α} {bs : List β} (h : as.mapM f = .ok bs) :
    ∀ b ∈ bs, ∃ a ∈ as, f a = .ok b := by
  intro b hb
  obtain ⟨i, hi, rfl⟩ := List.mem_iff_getElem.mp hb
  obtain ⟨hlen, hall⟩ := List.forall₂_iff_get.mp (mapM_eq_ok_iff.mp h)
  exact ⟨_, List.getElem_mem (hlen ▸ hi), hall i (hlen ▸ hi) hi⟩

/-- A list can be read exactly if nothing in it fails. -/
theorem exists_mapM_eq_ok_iff {as : List α} :
    (∃ bs, as.mapM f = .ok bs) ↔ ∀ a ∈ as, ∀ e, f a ≠ .error e := by
  simp only [mapM_eq_ok_iff]
  induction as with
  | nil => simp
  | cons a as ih =>
    simp only [List.forall₂_cons_left_iff, List.forall_mem_cons]
    constructor
    · rintro ⟨bs, b, rest, hb, hrest, -⟩
      refine ⟨fun e he => ?_, ih.mp ⟨rest, hrest⟩⟩
      rw [hb] at he
      cases he
    · rintro ⟨ha, has⟩
      obtain ⟨rest, hrest⟩ := ih.mpr has
      cases hb : f a with
      | error e => exact absurd hb (ha e)
      | ok b => exact ⟨b :: rest, b, rest, rfl, hrest, rfl⟩

end Reading

/-! ## 2. What cannot be read -/

/-- Whether no document of the expected sort can be read from a path: nothing is there that is text,
or the text is none of these documents. -/
def CannotRead {α : Type} (t : Tree) (p : Path) (ofText? : String → Option α) : Prop :=
  ∀ text, t.text? p = some text → ofText? text = none

theorem Asset.cannotRead_iff {t : Tree} {p : Path} :
    CannotRead t p Asset.ofText? ↔ ∃ f, Asset.load t p = .error f := by
  rw [CannotRead, Asset.load]
  cases t.text? p with
  | none => simp
  | some text => cases h : Asset.ofText? text <;> simp [h]

theorem Config.cannotRead_iff {t : Tree} {p : Path} :
    CannotRead t p Config.ofText? ↔ ∃ f, Config.load t p = .error f := by
  rw [CannotRead, Config.load]
  cases t.text? p with
  | none => simp
  | some text => cases h : Config.ofText? text <;> simp [h]

/-- Whether a source is missing, or is no pattern. -/
def Source.Fails (t : Tree) (root : Path) : Source → Prop
  | .directory p => t.isDirectory (root.join p) = false
  | .file p => t.isFile (root.join p) = false
  | .glob pattern => Glob.Pattern.ofText? (root.join (.ofText pattern)).display = none

theorem Source.fails_iff {t : Tree} {root : Path} {s : Source} :
    s.Fails t root ↔ ∃ f, s.assets t root = .error f := by
  cases s with
  | directory p =>
    rw [Source.Fails, Source.assets, Scan.assets, Tree.spot?, Tree.isDirectory]
    cases t.lookup (root.join p) with
    | found loc links => cases hdir : t.isDirectoryAt loc <;> simp [Tree.isDirectorySpot, hdir]
    | free loc => simp
    | missing => simp
    | refused => simp
  | file p =>
    rw [Source.Fails, Source.assets]
    cases t.isFile (root.join p) <;> simp
  | glob pattern =>
    rw [Source.Fails, Source.assets, Glob.assets]
    cases Glob.Pattern.ofText? (root.join (.ofText pattern)).display with
    | none => simp
    | some parsed => cases h : parsed.directoriesOnly <;> simp [h]

theorem collect_eq_error_iff {t : Tree} {root : Path} {sources : List Source} :
    (∃ f, collect t root sources = .error f) ↔ ∃ s ∈ sources, s.Fails t root := by
  have hall : (∃ found, sources.mapM (Source.assets t root) = .ok found) ↔ _ :=
    exists_mapM_eq_ok_iff
  simp only [Source.fails_iff]
  rw [collect]
  cases hfound : sources.mapM (Source.assets t root) with
  | error e =>
    rw [hfound] at hall
    refine iff_of_true ⟨e, rfl⟩ ?_
    by_contra hnone
    obtain ⟨found, h⟩ := hall.mpr fun s hs f hf => hnone ⟨s, hs, f, hf⟩
    cases h
  | ok found =>
    refine iff_of_false ?_ ?_
    · rintro ⟨f, h⟩
      cases h
    · rintro ⟨s, hs, f, hf⟩
      exact hall.mp ⟨found, hfound⟩ s hs f hf

namespace Command

variable {t : Tree} {args : Arguments} {config : Config} {files : List Path} {jobs : List Job}

/-! ## 3. Runs that load -/

/-- What a run reads before it judges the first asset. -/
structure Loads (t : Tree) (args : Arguments) (config : Config) (files : List Path)
    (jobs : List Job) : Prop where
  config_eq : loadConfig t args = .ok config
  files_eq : findAssets t args config = .ok files
  jobs_eq : files.mapM (loadJob t config) = .ok jobs

/-- **Why a run does not load**: the configuration cannot be read although it is needed or there, an
asset that was named is missing, a source fails, or an asset cannot be read. -/
inductive Unloadable (t : Tree) (args : Arguments) : Prop where
  | config (needed : args.assets = [] ∨ t.exists? args.config = true)
      (unread : CannotRead t args.config Config.ofText?)
  | missing (p : Path) (named : p ∈ args.assets) (unread : t.isFile p = false)
  | source (config : Config) (config_eq : loadConfig t args = .ok config)
      (unnamed : args.assets = []) (s : Source) (mem : s ∈ config.sources)
      (fails : s.Fails t (sourceRoot args))
  | asset (config : Config) (config_eq : loadConfig t args = .ok config) (files : List Path)
      (files_eq : findAssets t args config = .ok files) (p : Path) (mem : p ∈ files)
      (unread : CannotRead t p Asset.ofText?)

theorem loadConfig_eq_error_iff : (∃ f, loadConfig t args = .error f) ↔
    (args.assets = [] ∨ t.exists? args.config = true) ∧
      CannotRead t args.config Config.ofText? := by
  rw [loadConfig, Config.cannotRead_iff]
  split
  · next h =>
    rw [Bool.or_eq_true, List.isEmpty_iff] at h
    exact ⟨fun hf => ⟨h, hf⟩, fun hf => hf.2⟩
  · next h =>
    rw [Bool.or_eq_true, List.isEmpty_iff] at h
    refine iff_of_false ?_ fun hf => h hf.1
    rintro ⟨f, hf⟩
    cases hf

theorem findAssets_eq_error_iff : (∃ stop, findAssets t args config = .error stop) ↔
    (∃ p ∈ args.assets, t.isFile p = false) ∨
      args.assets = [] ∧ ∃ s ∈ config.sources, s.Fails t (sourceRoot args) := by
  rw [findAssets, ← collect_eq_error_iff]
  split
  · next h =>
    rw [List.isEmpty_iff] at h
    cases collect t (sourceRoot args) config.sources <;> simp [h]
  · next h =>
    rw [List.isEmpty_iff] at h
    cases hfind : args.assets.find? fun p => !t.isFile p with
    | some p =>
      have hmissing : t.isFile p = false := by simpa using List.find?_some hfind
      exact iff_of_true ⟨_, rfl⟩ (Or.inl ⟨p, List.mem_of_find?_eq_some hfind, hmissing⟩)
    | none =>
      refine iff_of_false ?_ ?_
      · rintro ⟨stop, hstop⟩
        cases hstop
      · rintro (⟨p, hp, hmissing⟩ | ⟨hnil, -⟩)
        · have hfile := List.find?_eq_none.mp hfind p hp
          rw [hmissing] at hfile
          exact hfile rfl
        · exact h hnil

theorem loadJob_eq_error_iff {p : Path} :
    (∃ f, loadJob t config p = .error f) ↔ CannotRead t p Asset.ofText? := by
  rw [Asset.cannotRead_iff, loadJob]
  cases Asset.load t p with
  | error f => exact iff_of_true ⟨f, rfl⟩ ⟨f, rfl⟩
  | ok asset =>
    constructor
    · rintro ⟨f, hf⟩
      cases hf
    · rintro ⟨f, hf⟩
      cases hf

/-- An asset is read as a job if its file is text and the text spells an asset. -/
theorem loadJob_eq_ok {p : Path} {text : String} {asset : Asset} (htext : t.text? p = some text)
    (hasset : Asset.ofText? text = some asset) :
    loadJob t config p = .ok ⟨p, ⟨p, config.extension⟩, asset.values.kind, asset.declaration⟩ := by
  rw [loadJob, Asset.load, htext]
  simp only [hasset]
  rfl

/-- What the job of an asset is. -/
theorem loadJob_eq_ok_iff {p : Path} {job : Job} : loadJob t config p = .ok job ↔
    ∃ asset, Asset.load t p = .ok asset ∧
      job = ⟨p, ⟨p, config.extension⟩, asset.values.kind, asset.declaration⟩ := by
  rw [loadJob]
  cases Asset.load t p with
  | error f =>
    constructor
    · intro h
      cases h
    · rintro ⟨asset, h, -⟩
      cases h
  | ok asset =>
    constructor
    · intro h
      cases h
      exact ⟨asset, rfl, rfl⟩
    · rintro ⟨asset', h, rfl⟩
      cases h
      rfl

/-- **A run loads, or something keeps it from that**, and never both. -/
theorem unloadable_iff :
    Unloadable t args ↔ ∀ config files jobs, ¬ Loads t args config files jobs := by
  constructor
  · rintro h config files jobs ⟨hconfig, hfiles, hjobs⟩
    cases h with
    | config needed unread =>
      obtain ⟨f, hf⟩ := loadConfig_eq_error_iff.mpr ⟨needed, unread⟩
      rw [hconfig] at hf
      cases hf
    | missing p named unread =>
      obtain ⟨stop, hstop⟩ := findAssets_eq_error_iff.mpr (Or.inl ⟨p, named, unread⟩)
      rw [hfiles] at hstop
      cases hstop
    | source config' config_eq unnamed s mem fails =>
      obtain rfl := Except.ok.inj (hconfig.symm.trans config_eq)
      obtain ⟨stop, hstop⟩ := findAssets_eq_error_iff.mpr (Or.inr ⟨unnamed, s, mem, fails⟩)
      rw [hfiles] at hstop
      cases hstop
    | asset config' config_eq files' files_eq p mem unread =>
      obtain rfl := Except.ok.inj (hconfig.symm.trans config_eq)
      obtain rfl := Except.ok.inj (hfiles.symm.trans files_eq)
      obtain ⟨f, hf⟩ := loadJob_eq_error_iff.mpr unread
      exact exists_mapM_eq_ok_iff.mp ⟨jobs, hjobs⟩ p mem f hf
  · intro h
    cases hconfig : loadConfig t args with
    | error f =>
      obtain ⟨needed, unread⟩ := loadConfig_eq_error_iff.mp ⟨f, hconfig⟩
      exact .config needed unread
    | ok config =>
      cases hfiles : findAssets t args config with
      | error stop =>
        rcases findAssets_eq_error_iff.mp ⟨stop, hfiles⟩ with
          ⟨p, hp, hmissing⟩ | ⟨hnil, s, hs, hfails⟩
        · exact .missing p hp hmissing
        · exact .source config hconfig hnil s hs hfails
      | ok files =>
        by_contra hloadable
        obtain ⟨jobs, hjobs⟩ := exists_mapM_eq_ok_iff.mpr fun p hp f hf =>
          hloadable (.asset config hconfig files hfiles p hp (loadJob_eq_error_iff.mp ⟨f, hf⟩))
        exact h config files jobs ⟨hconfig, hfiles, hjobs⟩

/-! ## 4. What comes of it -/

/-- The verdict that a line shows. -/
def Line.verdict? : Line → Option Verdict
  | .verdict v => some v
  | _ => none

/-- The verdicts on the screen. -/
def Report.verdicts (r : Report) : List Verdict :=
  r.screen.filterMap Line.verdict?

variable {asked : Option Threshold}

/-- A run that loads leaves the tree of going through its jobs. -/
theorem Loads.tree_eq (h : Loads t args config files jobs) :
    (perform t asked (.run args)).tree = (goThrough args.check t jobs).tree := by
  simp only [perform, report, h.config_eq, h.files_eq, reportAssets, h.jobs_eq, reportJobs]

/-- A run that loads ends as going through its jobs does. -/
theorem Loads.ending_eq (h : Loads t args config files jobs) :
    (perform t asked (.run args)).ending = (goThrough args.check t jobs).ending := by
  simp only [perform, report, h.config_eq, h.files_eq, reportAssets, h.jobs_eq, reportJobs]

/-- What a run that loads shows. -/
theorem Loads.screen_eq (h : Loads t args config files jobs) :
    (perform t asked (.run args)).screen =
      onText args (introduction ++ foundLines files.length ++ stageLines args (amountOf t jobs)) ++
        onJson args (goThrough args.check t jobs).verdicts ++
        (if (goThrough args.check t jobs).failure.isNone then
          onText args (closing (goThrough args.check t jobs).verdicts) else []) := by
  simp only [perform, report, h.config_eq, h.files_eq, reportAssets, h.jobs_eq, reportJobs]
  cases hform : args.report <;> simp [onText, hform]

/-- Text shows no verdict. -/
theorem filterMap_onText {lines : List Line} (h : lines.filterMap Line.verdict? = []) :
    (onText args lines).filterMap Line.verdict? = [] := by
  rw [onText]
  split
  · exact h
  · rfl

theorem stops_of_report_eq {screen : List Line} {records : List Record} {message : String}
    {causes : List String} (h : report t args = ⟨t, screen, records, .failed message causes⟩)
    (hscreen : screen.filterMap Line.verdict? = []) :
    (∃ message causes, (perform t asked (.run args)).ending = .failed message causes) ∧
      (perform t asked (.run args)).tree = t ∧ (perform t asked (.run args)).verdicts = [] := by
  rw [Report.verdicts, perform, h]
  exact ⟨⟨message, causes, rfl⟩, rfl, hscreen⟩

/-- **A run that does not load** fails without a change and without a verdict. -/
theorem stops_of_not_loads (h : ∀ config files jobs, ¬ Loads t args config files jobs) :
    (∃ message causes, (perform t asked (.run args)).ending = .failed message causes) ∧
      (perform t asked (.run args)).tree = t ∧ (perform t asked (.run args)).verdicts = [] := by
  cases hconfig : loadConfig t args with
  | error f =>
    have hrun : report t args =
        ⟨t, [], [], .failed ("Failed to load config from " ++ args.config.quoted) [f.message]⟩ := by
      rw [report, hconfig]
    exact stops_of_report_eq hrun rfl
  | ok config =>
    cases hfiles : findAssets t args config with
    | error stop =>
      have hrun : report t args = ⟨t, onText args introduction, [],
          .failed stop.message (stop.cause.toList.map Failure.message)⟩ := by
        rw [report, hconfig]
        simp only [hfiles]
        rfl
      exact stops_of_report_eq hrun (filterMap_onText rfl)
    | ok files =>
      cases hjobs : files.mapM (loadJob t config) with
      | error f =>
        have hrun : report t args =
            ⟨t, onText args introduction ++ onText args (foundLines files.length),
              [⟨.debug, "scanned enum assets", [("count", Nat.repr files.length)]⟩],
              .failed f.message []⟩ := by
          rw [report, hconfig]
          simp only [hfiles, reportAssets, hjobs]
        refine stops_of_report_eq hrun ?_
        rw [List.filterMap_append, filterMap_onText rfl, filterMap_onText rfl]
        rfl
      | ok jobs => exact absurd ⟨hconfig, hfiles, hjobs⟩ (h config files jobs)

/-- **Nothing is written unless everything loads.**  Whatever keeps a run from loading, and whatever
is asked of it, it ends with a status that is not zero, leaves the tree as it was, and shows no
verdict on any asset. -/
theorem stops_unless_loaded (h : Unloadable t args) :
    (perform t asked (.run args)).ending.status ≠ 0 ∧ (perform t asked (.run args)).tree = t ∧
      (perform t asked (.run args)).verdicts = [] := by
  obtain ⟨⟨message, causes, hending⟩, htree, hverdicts⟩ := stops_of_not_loads (unloadable_iff.mp h)
  refine ⟨?_, htree, hverdicts⟩
  rw [hending, Ending.status]
  exact Nat.one_ne_zero

namespace Sample

/-- Two files in the root. -/
def filesInRoot (one two : Name × Bytes) (hne : one.1 ≠ two.1) (hone : isProperName one.1 = true)
    (htwo : isProperName two.1 = true) : Tree where
  nodes := [([one.1], .file one.2), ([two.1], .file two.2)]
  nodup := by simp [hne]
  closed := by
    intro loc hloc
    rw [List.map_cons, List.map_singleton, List.mem_cons, List.mem_singleton] at hloc
    rcases hloc with rfl | rfl
    · exact ⟨hone, rfl⟩
    · exact ⟨htwo, rfl⟩
  workingDirectory := []

def firstText : String :=
  "file_name = \"A\"\nenumerator_name = \"A\"\nkind = \"simple\"\nvalues = [\"X\"]\n"

def first : Path := .ofText "a.enum.toml"

def second : Path := .ofText "b.enum.toml"

def arguments : Arguments := { assets := [first, second] }

theorem isProperName_first : isProperName first.bytes = true := by cbv

theorem isProperName_second : isProperName second.bytes = true := by cbv

/-- A sound asset in front of one that is no document. -/
def halfBroken : Tree :=
  filesInRoot (first.bytes, Utf8.encode firstText) (second.bytes, Utf8.encode "kind = ") (by decide)
    isProperName_first isProperName_second

theorem unloadable_halfBroken : Unloadable halfBroken arguments := by
  have hconfig : loadConfig halfBroken arguments = .ok {} := by cbv
  have hfiles : findAssets halfBroken arguments {} = .ok [first, second] := by cbv
  refine .asset {} hconfig [first, second] hfiles second (by simp) fun text htext => ?_
  have hsecond : halfBroken.text? second = some "kind = " := by cbv
  obtain rfl := Option.some.inj (hsecond.symm.trans htext)
  cbv

/-- The sound asset is not reported, and its file is not written. -/
theorem stops_at_second_asset :
    Unloadable halfBroken arguments ∧
      (perform halfBroken none (.run arguments)).ending.status ≠ 0 ∧
      (perform halfBroken none (.run arguments)).tree = halfBroken ∧
      (perform halfBroken none (.run arguments)).verdicts = [] :=
  ⟨unloadable_halfBroken, stops_unless_loaded unloadable_halfBroken⟩

end Sample
end Command
end EnumAssets
