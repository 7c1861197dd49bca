/-
# A run

A run loads the configuration, finds the assets, reads all of them, and only then goes through them
in order: an asset with defects is reported, and the file of a sound one is written unless the run
only checks.  Nothing is written before everything is read, and the declarations are those that
were read at first.  A failure ends the run at once; what was written until then stays.

A run is a function from a tree to a `Report`: the tree afterwards, the lines on the screen, the log
records, and how it ended.
-/
import EnumAssets.Command.Arguments
import EnumAssets.Command.Help
import EnumAssets.Command.Verdict
import EnumAssets.Output
import EnumAssets.Sources

namespace EnumAssets.Command

/-! ## 1. What a run leaves behind -/

/-- A line on the screen. -/
inductive Line where
  | text (s : String)
  | verdict (v : Verdict)
  | summary (valid invalid written : Nat)
deriving DecidableEq, Repr

/-- How a run ends: all assets were gone through, something failed, or the command line could not be
read. -/
inductive Ending where
  | finished (invalid : Nat)
  | failed (message : String) (causes : List String)
  | unreadable
deriving DecidableEq, Repr

/-- What a run leaves behind. -/
structure Report where
  tree : Tree
  screen : List Line
  records : List Record
  ending : Ending

/-- The text of a line; the summary tells how long the run took. -/
def Line.render (elapsed : String) : Line → String
  | .text s => s
  | .verdict v => v.json
  | .summary valid invalid written =>
    "Done! " ++ Nat.repr valid ++ " valid, " ++ Nat.repr invalid ++ " invalid, " ++
      Nat.repr written ++ " file(s) written in " ++ elapsed

/-- The text on the screen. -/
def Report.stdout (r : Report) (elapsed : String) : String :=
  String.join (r.screen.map fun line => line.render elapsed ++ "\n")

/-- The exit status. -/
def Ending.status : Ending → Nat
  | .finished invalid => if invalid = 0 then 0 else 1
  | .failed .. => 1
  | .unreadable => 2

/-! ## 2. Going through the assets -/

/-- An asset that was read: where it came from, where its file goes, and what it declares. -/
structure Job where
  asset : Path
  destination : Destination
  kind : String
  declaration : Declaration Entry

/-- The state after going through jobs: the tree, the verdicts so far, and the failure, if any, with
the asset it is about. -/
structure Progress where
  tree : Tree
  verdicts : List Verdict
  failure : Option (Path × Failure)

/-- Goes through jobs in order, up to the first file that cannot be written. -/
def goThrough (check : Bool) (t : Tree) : List Job → Progress
  | [] => ⟨t, [], none⟩
  | job :: rest =>
    let goOn (t : Tree) (outcome : Outcome) : Progress :=
      let after := goThrough check t rest
      { after with verdicts := ⟨job.asset, outcome⟩ :: after.verdicts }
    match job.declaration.check with
    | .error ds => goOn t (.invalid (ds.map Defect.message))
    | .ok c =>
      if check then goOn t .valid
      else
        match job.destination.write t c with
        | (t', .ok p) => goOn t' (.written p)
        | (t', .error f) => ⟨t', [], some (job.asset, f)⟩

/-! ## 3. Loading -/

/-- The configuration of a run.  It has to be there unless assets are named. -/
def loadConfig (t : Tree) (args : Arguments) : Except Failure Config :=
  if args.assets.isEmpty || t.exists? args.config then Config.load t args.config else .ok {}

/-- The directory that sources are relative to: that of the configuration. -/
def sourceRoot (args : Arguments) : Path :=
  args.config.parent.getD ⟨[Path.dot]⟩

/-- Why a run cannot go on: a text, and the failure behind it. -/
structure Stop where
  message : String
  cause : Option Failure
deriving DecidableEq, Repr

/-- The assets of a run, those that are named or else those of the sources. -/
def findAssets (t : Tree) (args : Arguments) (config : Config) : Except Stop (List Path) :=
  if args.assets.isEmpty then
    match collect t (sourceRoot args) config.sources with
    | .ok files => .ok files
    | .error f => .error ⟨"Failed to scan sources from " ++ args.config.quoted, some f⟩
  else
    match args.assets.find? fun p => !t.isFile p with
    | some p => .error ⟨"Enum asset not found: " ++ p.quoted, none⟩
    | none => .ok args.assets

/-- The job of an asset. -/
def loadJob (t : Tree) (config : Config) (p : Path) : Except Failure Job := do
  let asset ← Asset.load t p
  return {
    asset := p
    destination := ⟨p, config.extension⟩
    kind := asset.values.kind
    declaration := asset.declaration }

/-- The amount of files of jobs that are there already. -/
def amountOf (t : Tree) (jobs : List Job) : Amount :=
  .ofFlags (jobs.map fun j => j.destination.willOverwrite t j.declaration.fileName)

/-- The record that an asset was read. -/
def Job.record (j : Job) : Record :=
  ⟨.debug, "loaded", [("asset", j.asset.display), ("kind", Quoted.text j.kind)]⟩

/-! ## 4. The screen -/

/-- Fifty equals signs. -/
def rule : String :=
  String.ofList (List.replicate 50 '=')

/-- The lines before the assets are known. -/
def introduction : List Line :=
  [.text ("Enum Generator v" ++ version), .text rule, .text "", .text "[1/3] Scanning assets..."]

/-- The lines before the assets are read. -/
def foundLines (count : Nat) : List Line :=
  [.text ("  Found " ++ Nat.repr count ++ " enum assets"), .text "",
    .text "[2/3] Loading assets..."]

/-- The lines before the assets are gone through. -/
def stageLines (args : Arguments) (amount : Amount) : List Line :=
  [.text "", .text ("[3/3] " ++ (if args.check then "Validating" else amount.label) ++ "...")]

/-- The lines after all assets. -/
def closing (verdicts : List Verdict) : List Line :=
  let invalid := verdicts.countP fun v => !v.isOk
  [.text "", .text rule, .summary (verdicts.length - invalid) invalid
    (verdicts.countP fun v => v.output?.isSome)]

/-- Lines for the screen of a run whose results are text. -/
def onText (args : Arguments) (lines : List Line) : List Line :=
  if args.report = .text then lines else []

/-- Lines for the screen of a run whose results are JSON. -/
def onJson (args : Arguments) (verdicts : List Verdict) : List Line :=
  if args.report = .json then verdicts.map .verdict else []

/-! ## 5. The report -/

/-- The end of a run that cannot go on. -/
def Stop.ending (s : Stop) : Ending :=
  .failed s.message (s.cause.toList.map Failure.message)

/-- The end of a run that went through its jobs as far as it could. -/
def Progress.ending (p : Progress) : Ending :=
  match p.failure with
  | some (asset, f) => .failed ("Failed to generate enum for " ++ asset.quoted) [f.message]
  | none => .finished (p.verdicts.countP fun v => !v.isOk)

/-- The report of going through jobs. -/
def reportJobs (t : Tree) (args : Arguments) (jobs : List Job) : Report :=
  let amount := amountOf t jobs
  let progress := goThrough args.check t jobs
  { tree := progress.tree
    screen := onText args (stageLines args amount) ++ onJson args progress.verdicts ++
      (if progress.failure.isNone then onText args (closing progress.verdicts) else [])
    records := jobs.map Job.record ++ [⟨.debug, "selection state", [("mode", amount.label)]⟩] ++
      progress.verdicts.flatMap Verdict.records
    ending := progress.ending }

/-- The report of reading assets and going through them. -/
def reportAssets (t : Tree) (args : Arguments) (config : Config) (files : List Path) : Report :=
  let start := onText args (foundLines files.length)
  let counted : Record :=
    ⟨.debug, "scanned enum assets", [("count", Nat.repr files.length)]⟩
  match files.mapM (loadJob t config) with
  | .error f => ⟨t, start, [counted], .failed f.message []⟩
  | .ok jobs =>
    let rest := reportJobs t args jobs
    { rest with screen := start ++ rest.screen, records := counted :: rest.records }

/-- The report of a run, all records included. -/
def report (t : Tree) (args : Arguments) : Report :=
  match loadConfig t args with
  | .error f =>
    ⟨t, [], [], .failed ("Failed to load config from " ++ args.config.quoted) [f.message]⟩
  | .ok config =>
    let start := onText args introduction
    match findAssets t args config with
    | .error stop => ⟨t, start, [], stop.ending⟩
    | .ok files =>
      let rest := reportAssets t args config files
      { rest with screen := start ++ rest.screen }

/-- The report of what a command line asks for; `asked` is the threshold set from outside. -/
def perform (t : Tree) (asked : Option Threshold) : Request → Report
  | .run args =>
    let all := report t args
    { all with records :=
        all.records.filter fun r => (Threshold.choose asked args.verbose).keeps r.level }
  | .shortHelp => ⟨t, shortHelp.map .text, [], .finished 0⟩
  | .longHelp => ⟨t, longHelp.map .text, [], .finished 0⟩
  | .version => ⟨t, [.text versionLine], [], .finished 0⟩
  | .unreadable => ⟨t, [], [], .unreadable⟩

end EnumAssets.Command
